import PlugWatch.Proofs.Calls

/-! # The course of a session

  A session passes through many states in which no operation ends. Callbacks see them, and a panic
  may stop at any of them. One leads to the next by a **step**, which is a move together with what
  has to be the case for it to be made:

  * an arrival is taken by a registration that is not flagged and **expects** the device;
  * a removal is told to a registration that is not flagged and has the device, or to one that was
    **reclaimed**;
  * a callback returns if it is **engaged**: no callback of its registration was entered later, and
    it has not returned yet.

  A turn is **opened** by a note of what it is about. What is true at every point of a session is
  proved for single steps, once and for all walks.
-/

namespace PlugWatch

namespace Registry

open Walk

variable {β : Type} [Bus β]

/-! ## Steps -/

/-- The callback entered last for a registration has not returned. -/
def Engaged (r : Registry β) (i : Nat) (c : Change) (d : Device) : Prop :=
  (r.calls i).getLast? = some ⟨c, d, none⟩

/-- The flagged registration at a place was taken off the list by a sweep. -/
def WasReclaimed (r : Registry β) (i : Nat) : Prop :=
  i < r.entries.size ∧ .reclaimed i ∈ r.history.toList

/-- How a turn begins. -/
inductive Opening : Registry β → Registry β → Prop where
  /-- A change is about to be offered. -/
  | dispatched (r : Registry β) (d : Device) (c : Change) : Opening r (r.record (.dispatched d c))
  /-- A wakeup is taken. -/
  | woken (r : Registry β) {mailbox : Mailbox} : r.mailbox.take? = some (.wakeup, mailbox) →
      Opening r ({ r with mailbox }.record (.taken .wakeup))
  /-- A change is taken and about to be offered. -/
  | received (r : Registry β) {d : Device} {c : Change} {mailbox : Mailbox} :
      r.mailbox.take? = some (.change d c, mailbox) →
      Opening r (({ r with mailbox }.record (.taken (.change d c))).record (.dispatched d c))
  /-- The flagged registrations go off the list. -/
  | startSweep (r : Registry β) : Opening r r.startSweep

/-- A step of the registration at a place. -/
inductive StepOf (i : Nat) : Registry β → Registry β → Prop where
  /-- It is made. -/
  | enlist {r : Registry β} {g : Registration β} : g.check = .ok () → r.entries.size = i →
      StepOf i r (r.enlist g)
  /-- Its arrival callback is entered. -/
  | tell {r : Registry β} {e : Entry β} (d : Device) : r.entries[i]? = some e →
      e.flagged = false → e.expects d = true → e.calls .arrived = true →
      StepOf i r (r.enter i .arrived d)
  /-- It takes a device without a call. -/
  | adopt {r : Registry β} {e : Entry β} (d : Device) : r.entries[i]? = some e →
      e.flagged = false → e.expects d = true → e.calls .arrived = false →
      StepOf i r (r.update i (·.attach d))
  /-- Its arrival callback returns and keeps it. -/
  | keep {r : Registry β} {d : Device} : i < r.entries.size → r.Engaged i .arrived d →
      StepOf i r (r.keep i d)
  /-- Its arrival callback returns and drops it. -/
  | drop {r : Registry β} {d : Device} : i < r.entries.size → r.Engaged i .arrived d →
      StepOf i r (r.drop i d)
  /-- It loses a device without a call. -/
  | lose {r : Registry β} {e : Entry β} {id : DeviceId} {d : Device} : r.entries[i]? = some e →
      e.flagged = false → e.recorded? id = some d → e.calls .left = false →
      StepOf i r (r.update i (·.detach id))
  /-- It loses a device, and its removal callback is entered. -/
  | part {r : Registry β} {e : Entry β} {id : DeviceId} {d : Device} : r.entries[i]? = some e →
      e.flagged = false → e.recorded? id = some d → e.calls .left = true →
      StepOf i r ((r.update i (·.detach id)).enter i .left d)
  /-- It was reclaimed and loses its devices. -/
  | clear {r : Registry β} : r.WasReclaimed i →
      StepOf i r (r.update i ({ · with attached := [] }))
  /-- It was reclaimed, and its removal callback is entered. -/
  | release {r : Registry β} (d : Device) : r.WasReclaimed i → StepOf i r (r.enter i .left d)
  /-- Its removal callback returns. -/
  | finish {r : Registry β} {d : Device} (v : Verdict) : i < r.entries.size →
      r.Engaged i .left d → StepOf i r (r.record (.answered i .left d v))
  /-- It is taken off the list again, since the devices present are not known. -/
  | rollBack {r : Registry β} {e : Entry β} (why : Failure) : r.entries[i]? = some e →
      StepOf i r (r.rollBack i e.handle why)
  /-- The devices present are about to be replayed to it. -/
  | beginReplay {r : Registry β} (h : Handle) (ds : List Device) : i < r.entries.size →
      StepOf i r (r.beginReplay i h ds)

/-- A single thing that happens in a session. -/
inductive Step : Registry β → Registry β → Prop where
  | opening {r r' : Registry β} : Opening r r' → Step r r'
  /-- A move that is about no registration. -/
  | aside {r r' : Registry β} : Move (fun _ => False) r r' → Step r r'
  | of {i : Nat} {r r' : Registry β} : StepOf i r r' → Step r r'

/-- A part of the course of a session. -/
def Steps : Registry β → Registry β → Prop :=
  Relation.ReflTransGen Step

variable {r r' r'' : Registry β} {i : Nat}

theorem Steps.refl (r : Registry β) : Steps r r :=
  Relation.ReflTransGen.refl

theorem Step.steps (h : Step r r') : Steps r r' :=
  Relation.ReflTransGen.single h

theorem Steps.trans (h : Steps r r') (h' : Steps r' r'') : Steps r r'' :=
  Relation.ReflTransGen.trans h h'

/-- What every single step keeps, a part of a course keeps. -/
theorem Steps.keeps {P : Registry β → Prop} (hP : ∀ {r r'}, Step r r' → P r → P r')
    (h : Steps r r') (hr : P r) : P r' := by
  induction h with
  | refl => exact hr
  | tail _ hs ih => exact hP hs ih

theorem StepOf.steps (h : StepOf i r r') : Steps r r' :=
  (Step.of h).steps

/-- A step of a registration calls no other. -/
theorem StepOf.moves (h : StepOf i r r') : Moves (· = i) r r' := by
  have single {s s' : Registry β} (hm : Move (· = i) s s') : Moves (· = i) s s' := hm.moves
  cases h with
  | enlist hg hi => exact single (.enlist r _ hg hi)
  | tell d he _ _ _ => exact single (.enter r .arrived d rfl (lt_size_of_getElem? he))
  | adopt d he _ _ _ => exact single (.adopt r d rfl (lt_size_of_getElem? he))
  | keep hlt _ => exact single (.keep r _ rfl hlt)
  | drop hlt _ => exact single (.drop r _ rfl hlt)
  | lose he _ _ _ => exact single (.detach r _ rfl (lt_size_of_getElem? he))
  | part he _ _ _ =>
    have hlt := lt_size_of_getElem? he
    exact (single (.detach r _ rfl hlt)).trans (single (.enter _ .left _ rfl (by simpa using hlt)))
  | clear hc => exact single (.clear r rfl hc.1)
  | release d hc => exact single (.enter r .left d rfl hc.1)
  | finish v hlt _ => exact single (.finish r _ v rfl hlt)
  | rollBack why he => exact single (.rollBack r why rfl he)
  | beginReplay h ds hlt => exact single (.beginReplay r h ds rfl hlt)

/-- A step opens a turn, or is made of moves. -/
theorem Step.moves (h : Step r r') : Opening r r' ∨ Moves (fun _ => True) r r' := by
  cases h with
  | opening ho => exact .inl ho
  | aside hm => exact .inr (hm.mono fun _ _ => trivial).moves
  | of hs => exact .inr (hs.moves.mono fun _ _ => trivial)

theorem Opening.entries (h : Opening r r') : r'.entries = r.entries := by
  cases h with
  | startSweep => exact entries_startSweep r
  | _ => rfl

theorem history_received (r : Registry β) (mailbox : Mailbox) (d : Device) (c : Change) :
    (({ r with mailbox }.record (.taken (.change d c))).record (.dispatched d c)).history.toList =
      r.history.toList ++ [.taken (.change d c), .dispatched d c] := by
  rw [history_record, history_record, List.append_assoc]
  rfl

theorem Opening.news (h : Opening r r') : r.history.toList <+: r'.history.toList := by
  cases h with
  | dispatched d c => exact prefix_record r _
  | woken hm => exact prefix_record { r with mailbox := _ } _
  | received hm => exact ⟨_, (history_received r _ _ _).symm⟩
  | startSweep =>
    rw [history_startSweep]
    exact List.prefix_append _ _

theorem Step.news (h : Step r r') : r.history.toList <+: r'.history.toList := by
  rcases h.moves with ho | hm
  · exact ho.news
  · exact hm.news

theorem Steps.news (h : Steps r r') : r.history.toList <+: r'.history.toList :=
  h.keeps (P := fun s => r.history.toList <+: s.history.toList) (fun hs hr => hr.trans hs.news)
    (List.prefix_refl _)

theorem Step.size_le (h : Step r r') : r.entries.size ≤ r'.entries.size := by
  rcases h.moves with ho | hm
  · rw [ho.entries]
  · exact hm.spares.size_le

theorem Steps.size_le (h : Steps r r') : r.entries.size ≤ r'.entries.size :=
  h.keeps (P := fun s => r.entries.size ≤ s.entries.size)
    (fun hs hr => Nat.le_trans hr hs.size_le) (Nat.le_refl _)

theorem Steps.wasReclaimed (h : Steps r r') (hr : r.WasReclaimed i) : r'.WasReclaimed i :=
  ⟨Nat.lt_of_lt_of_le hr.1 h.size_le, h.news.subset hr.2⟩

/-! ## Delivery by steps -/

/-- A callback whose course is made of steps. -/
def Treads (f : Nat → Device → Walk β Verdict) : Prop :=
  ∀ k d r, (f k d).Ends (fun _ r' => Steps r r') r

/-- A tame callback leaves its registration engaged. -/
theorem Engaged.of_moves {c : Change} {d : Device} (hlt : i < r.entries.size)
    (hm : Moves (r.entries.size ≤ ·) r r') (h : r.Engaged i c d) : r'.Engaged i c d := by
  unfold Engaged
  rw [hm.spares.calls_eq (Nat.not_le.mpr hlt)]
  exact h

theorem engaged_enter (r : Registry β) (i : Nat) (c : Change) (d : Device) :
    (r.enter i c d).Engaged i c d := by
  unfold Engaged
  rw [calls_enter, List.getLast?_concat]

/-- While the callback of a registration goes on, it stays engaged. -/
theorem body_steps {f : Nat → Device → Walk β Verdict} (hf : Tame f) (hs : Treads f) (k : Nat)
    {c : Change} {d : Device} (hlt : i < r.entries.size) (henter : Steps r (r'.enter i c d))
    (hsize : r'.entries.size = r.entries.size) :
    (f k d).Ends (fun _ s => Steps r s ∧ i < s.entries.size ∧ s.Engaged i c d)
      (r'.enter i c d) := by
  have hlt' : i < (r'.enter i c d).entries.size := by simpa [enter, hsize] using hlt
  apply ((hf k d _).and (hs k d _)).mono
  intro o s hends
  obtain ⟨hm, hsteps⟩ := hends
  exact ⟨henter.trans hsteps, Nat.lt_of_lt_of_le hlt' hm.spares.size_le,
    (engaged_enter r' i c d).of_moves hlt' hm⟩

theorem offerArrival_steps {f : Nat → Device → Walk β Verdict} (hf : Tame f) (hs : Treads f)
    (i : Nat) (d : Device) (r : Registry β) :
    (offerArrival i f d).Ends (fun _ r' => Steps r r') r := by
  apply offerArrival_ends
  · intro _
    exact .refl r
  · intro _ _ _
    exact .refl r
  · intro e he hfl hx hc
    exact (StepOf.adopt d he hfl hx hc).steps
  · intro e he hfl hx hc
    apply (body_steps hf hs e.arrivals (lt_size_of_getElem? he)
      (StepOf.tell d he hfl hx hc).steps rfl).mono
    intro o s hends
    obtain ⟨hsteps, hlt, hengaged⟩ := hends
    match o with
    | none => exact hsteps
    | some .keep => exact hsteps.trans (StepOf.keep hlt hengaged).steps
    | some .deregister => exact hsteps.trans (StepOf.drop hlt hengaged).steps

theorem offerLeft_steps {f : Nat → Device → Walk β Verdict} (hf : Tame f) (hs : Treads f)
    (i : Nat) (id : DeviceId) (r : Registry β) :
    (offerLeft i f id).Ends (fun _ r' => Steps r r') r := by
  apply offerLeft_ends
  · intro _
    exact .refl r
  · intro _ _ _
    exact .refl r
  · intro e d he hfl hd hc
    exact (StepOf.lose he hfl hd hc).steps
  · intro e d he hfl hd hc
    apply (body_steps hf hs e.removals (lt_size_of_getElem? he)
      (StepOf.part he hfl hd hc).steps (by simp)).mono
    intro o s hends
    obtain ⟨hsteps, hlt, hengaged⟩ := hends
    match o with
    | none => exact hsteps
    | some v => exact hsteps.trans (StepOf.finish v hlt hengaged).steps

theorem replay_steps {f : Nat → Device → Walk β Verdict} (hf : Tame f) (hs : Treads f) (i : Nat)
    (ds : List Device) (r : Registry β) : (replay i f ds).Ends (fun _ r' => Steps r r') r := by
  induction ds generalizing r with
  | nil => exact replay_nil_ends.mpr (.refl r)
  | cons d ds ih =>
    refine replay_cons_ends.mpr ((offerArrival_steps hf hs i d r).mono fun o s hsteps => ?_)
    have hrest : (replay i f ds).Ends (fun _ r' => Steps r r') s :=
      (ih s).mono fun _ _ h => hsteps.trans h
    match o with
    | none => exact hsteps
    | some .dropped => exact hsteps
    | some .ignored => exact hrest
    | some .attached => exact hrest

theorem registerWith_steps {g : Registration β} {f : Nat → Device → Walk β Verdict} (hf : Tame f)
    (hs : Treads f) (r : Registry β) : (registerWith g f).Ends (fun _ r' => Steps r r') r := by
  have hlisted (hg : g.check = .ok ()) : Steps r (r.enlist g) :=
    (StepOf.enlist hg rfl).steps
  have hknown (hg : g.check = .ok ()) : Steps r (r.enlist g).enumerate.2 :=
    (hlisted hg).trans (Step.aside (.enumerate _)).steps
  apply registerWith_ends
  · intro _
    exact .refl r
  · intro hg _
    exact hlisted hg
  · intro hg why _
    exact (hknown hg).trans (StepOf.rollBack why (getElem?_enlist_enumerate r g)).steps
  · intro hg _ ds _
    have hlt : r.entries.size < (r.enlist g).enumerate.2.entries.size := by
      rw [size_enlist_enumerate]
      omega
    have hopen := (hknown hg).trans (StepOf.beginReplay r.nextHandle ds hlt).steps
    apply (replay_steps hf hs r.entries.size ds _).mono
    intro _ _ h
    exact hopen.trans h

/-- Whatever a script does, however deep its callbacks are nested, is done by steps. -/
theorem run_steps (s : Script β) (r : Registry β) : (run s).Ends (fun _ r' => Steps r r') r := by
  induction s generalizing r with
  | finish v => exact Steps.refl r
  | panic => exact Steps.refl r
  | act a next ih =>
    rw [run, ends_bind, ends_modifyGet, before_some]
    have hact : Steps r (r.perform a).2 := (Step.aside (.perform r a)).steps
    exact (ih _ _).mono fun _ _ h => hact.trans h
  | register filter provided onArrived onLeft next order ihA _ ihN =>
    rw [run, ends_bind]
    apply (registerWith_steps (tame_run onArrived) ihA r).mono
    intro o r' hsteps
    cases o with
    | none => exact hsteps
    | some reply => exact (ihN reply r').mono fun _ _ h => hsteps.trans h

theorem treads_run (f : Nat → Device → Script β) : Treads fun k d => run (f k d) :=
  fun k d r => run_steps (f k d) r

theorem register_steps (g : Registration β) (r : Registry β) :
    (register g).Ends (fun _ r' => Steps r r') r :=
  registerWith_steps (tame_run g.onArrived) (treads_run g.onArrived) r

theorem offer_steps (d : Device) (c : Change) (i : Nat) (r : Registry β) :
    (offer d c i).Ends (fun _ r' => Steps r r') r :=
  offer_ends (fun _ => .refl r)
    (fun e _ _ => offerArrival_steps (tame_run e.onArrived) (treads_run e.onArrived) i d r)
    (fun e _ _ => offerLeft_steps (tame_run e.onLeft) (treads_run e.onLeft) i d.id r)

theorem offerAll_steps (d : Device) (c : Change) (is : List Nat) (r : Registry β) :
    (offerAll d c is).Ends (fun _ r' => Steps r r') r := by
  induction is generalizing r with
  | nil => exact Steps.refl r
  | cons i is ih =>
    apply offerAll_cons_ends_of (Q := fun _ r' => Steps r r')
    apply (offer_steps d c i r).mono
    intro o s hsteps
    cases o with
    | none => exact hsteps
    | some _ => exact (ih s).mono fun _ _ h => hsteps.trans h

theorem aside_log (r : Registry β) (level : LogLevel) (message : String) :
    Steps r (r.log level message) :=
  (Step.aside (.log r level message)).steps

/-- After the note of it, a change is dispatched by steps. -/
theorem dispatch_steps (d : Device) (c : Change) (r : Registry β) :
    (dispatch d c).Ends (fun _ r' => Steps (r.record (.dispatched d c)) r') r := by
  apply dispatch_ends (Q := fun _ r' => Steps (r.record (.dispatched d c)) r')
  apply (offerAll_steps d c _ _).mono
  intro o s hsteps message
  cases o with
  | none => exact hsteps
  | some n => exact hsteps.trans (aside_log s _ message)

theorem release_steps (e : Entry β) (ds : List Device) (hr : r.WasReclaimed i) :
    (release i e ds).Ends (fun _ r' => Steps r r') r := by
  induction ds generalizing r with
  | nil => exact Steps.refl r
  | cons d ds ih =>
    apply release_cons_ends _ rfl
    apply (body_steps (tame_run e.onLeft) (treads_run e.onLeft) _ hr.1 (StepOf.release d hr).steps
      rfl).mono
    intro o s hends
    obtain ⟨hsteps, hlt, hengaged⟩ := hends
    match o with
    | none => exact hsteps
    | some v =>
      have hsteps' := hsteps.trans (StepOf.finish v hlt hengaged).steps
      show (release i e ds).Ends (fun _ r' => Steps r r') _
      exact (ih (hsteps'.wasReclaimed hr)).mono fun _ _ h => hsteps'.trans h

theorem reclaim_steps (hr : r.WasReclaimed i) :
    (reclaim i).Ends (fun _ r' => Steps r r') r := by
  have hclear : Steps r (r.update i ({ · with attached := [] })) := (StepOf.clear hr).steps
  apply reclaim_ends (Q := fun _ r' => Steps r r')
  · intro _
    exact .refl r
  · intro e _ _ message
    exact hclear.trans (aside_log _ _ message)
  · intro e _ _
    apply (release_steps e e.parting (hclear.wasReclaimed hr)).mono
    intro o s hsteps message
    cases o with
    | none => exact hclear.trans hsteps
    | some _ => exact (hclear.trans hsteps).trans (aside_log s _ message)

theorem reclaimAll_steps (is : List Nat) (his : ∀ i ∈ is, r.WasReclaimed i) :
    (reclaimAll is).Ends (fun _ r' => Steps r r') r := by
  induction is generalizing r with
  | nil => exact Steps.refl r
  | cons i is ih =>
    rw [reclaimAll, ends_bind]
    apply (reclaim_steps (his i (by simp))).mono
    intro o s hsteps
    cases o with
    | none => exact hsteps
    | some _ =>
      have his' : ∀ j ∈ is, s.WasReclaimed j :=
        fun j hj => hsteps.wasReclaimed (his j (by simp [hj]))
      exact (ih his').mono fun _ _ h => hsteps.trans h

/-- Who is swept is noted first. -/
theorem wasReclaimed_startSweep (hi : i ∈ r.places (·.flagged)) : r.startSweep.WasReclaimed i := by
  obtain ⟨-, e, he, -⟩ := mem_places.mp hi
  refine ⟨by simpa using lt_size_of_getElem? he, ?_⟩
  rw [history_startSweep, List.mem_append]
  exact .inr (List.mem_map_of_mem hi)

theorem sweep_steps (r : Registry β) : sweep.Ends (fun _ r' => Steps r r') r := by
  have hopen : Steps r r.startSweep := (Step.opening (.startSweep r)).steps
  apply sweep_ends (Q := fun _ r' => Steps r r')
  apply (reclaimAll_steps _ fun i hi => wasReclaimed_startSweep hi).mono
  intro _ _ h
  exact hopen.trans h

/-! ## Sessions by steps -/

theorem turn_steps (t : Turn β) (r : Registry β) : t.walk.Ends (fun _ r' => Steps r r') r := by
  apply turn_ends t (Q := fun _ r' => Steps r r')
  · intro g _
    exact register_steps g r
  · intro a _
    exact (Step.aside (.perform r a)).steps
  · intro d c _
    have hopen : Steps r (r.record (.dispatched d c)) := (Step.opening (.dispatched r d c)).steps
    exact (dispatch_steps d c r).mono fun _ _ h => hopen.trans h
  · intro _
    apply next_ends (Q := fun _ r' => Steps r r')
    · intro _
      exact .refl r
    · intro mailbox hm
      exact (Step.opening (.woken r hm)).steps
    · intro d c mailbox hm
      have hopen := (Step.opening (.received r hm)).steps
      exact (dispatch_steps d c _).mono fun _ _ h => hopen.trans h
  · intro _
    exact sweep_steps r

/-- A session takes its course by steps. -/
theorem afterAll_steps (r : Registry β) (os : List (Operation β)) : Steps r (r.afterAll os) := by
  refine afterAll_keeps (P := fun _ s => Steps r s) (b := true) os ?_ (Steps.refl r)
  intro o _ t _ b s hs
  exact (turn_steps t s).mono fun _ _ h => hs.trans h

/-- What is reached is reached by steps. -/
theorem Reachable.steps (h : r.Reachable) : ∃ b : β, Steps { bus := b } r := by
  induction h with
  | fresh b => exact ⟨b, .refl _⟩
  | @after r o _ ih =>
    obtain ⟨b, hsteps⟩ := ih
    exact ⟨b, hsteps.trans (afterAll_steps r [o])⟩

end Registry

end PlugWatch
