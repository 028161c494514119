import PlugWatch.Proofs.Move

/-! # Delivery as moves

  Every walk of delivery is a series of moves. A script makes and calls only registrations that
  are not there yet when it starts, so whatever a callback does, the registrations made before are
  spared. The induction over scripts is done here once; what is known of callbacks elsewhere is
  that they are **tame**.
-/

namespace PlugWatch

namespace Registry

open Walk

variable {β : Type} [Bus β] {α γ : Type} {n : Nat} {p : Nat → Prop} {r : Registry β}

/-- A callback that does nothing but moves and calls no registration that is there already. -/
def Tame (f : Nat → Device → Walk β Verdict) : Prop :=
  ∀ k d r, (f k d).Ends (fun _ r' => Moves (r.entries.size ≤ ·) r r') r

/-- A tame callback does nothing but moves that are allowed if new registrations are. -/
theorem Tame.moves {f : Nat → Device → Walk β Verdict} (hf : Tame f) (hp : ∀ j, n ≤ j → p j)
    (k : Nat) (d : Device) (hn : n ≤ r.entries.size) :
    (f k d).Ends (fun _ r' => Moves p r r') r :=
  (hf k d r).mono fun _ _ h => h.mono fun j hj => hp j (Nat.le_trans hn hj)

/-- What calls only registrations made after one state calls only those made after an earlier. -/
theorem Moves.since {s s' : Registry β} (h : Moves (s.entries.size ≤ ·) s s')
    (hle : r.entries.size ≤ s.entries.size) : Moves (r.entries.size ≤ ·) s s' :=
  h.mono fun _ hj => Nat.le_trans hle hj

/-- Two parts of a walk that do nothing but moves. -/
theorem bind_moves {w : Walk β α} {f : α → Walk β γ} (hw : w.Ends (fun _ r' => Moves p r r') r)
    (hf : ∀ a r', Moves p r r' → (f a).Ends (fun _ r'' => Moves p r' r'') r') :
    Ends (w >>= f) (fun _ r' => Moves p r r') r :=
  hw.bind (fun _ h => h) fun a r' h => (hf a r' h).mono fun _ _ h' => h.trans h'

/-! ## Offering -/

theorem offerArrival_moves {i : Nat} {f : Nat → Device → Walk β Verdict} (hf : Tame f)
    (hp : ∀ j, n ≤ j → p j) (hn : n ≤ r.entries.size) (hi : p i) (d : Device) :
    (offerArrival i f d).Ends (fun _ r' => Moves p r r') r := by
  apply offerArrival_ends
  · intro _
    exact .refl r
  · intro _ _ _
    exact .refl r
  · intro e he _ _ _
    exact (Move.adopt r d hi (lt_size_of_getElem? he)).moves
  · intro e he _ _ _
    have hlt := lt_size_of_getElem? he
    have henter : Moves p r (r.enter i .arrived d) := (Move.enter r .arrived d hi hlt).moves
    apply (hf.moves hp e.arrivals d (Nat.le_trans hn henter.spares.size_le)).mono
    intro o r' h
    have hm := henter.trans h
    have hlt' : i < r'.entries.size := Nat.lt_of_lt_of_le hlt hm.spares.size_le
    match o with
    | none => exact hm
    | some .keep => exact hm.trans (Move.keep r' d hi hlt').moves
    | some .deregister => exact hm.trans (Move.drop r' d hi hlt').moves

theorem offerLeft_moves {i : Nat} {f : Nat → Device → Walk β Verdict} (hf : Tame f)
    (hp : ∀ j, n ≤ j → p j) (hn : n ≤ r.entries.size) (hi : p i) (id : DeviceId) :
    (offerLeft i f id).Ends (fun _ r' => Moves p r r') r := by
  have hdetach (hlt : i < r.entries.size) : Moves p r (r.update i (·.detach id)) :=
    (Move.detach r id hi hlt).moves
  apply offerLeft_ends
  · intro _
    exact .refl r
  · intro _ _ _
    exact .refl r
  · intro e d he _ _ _
    exact hdetach (lt_size_of_getElem? he)
  · intro e d he _ _ _
    have hlt := lt_size_of_getElem? he
    have henter := (hdetach hlt).trans (Move.enter _ .left d hi (by simpa using hlt)).moves
    apply (hf.moves hp e.removals d (Nat.le_trans hn henter.spares.size_le)).mono
    intro o r' h
    have hm := henter.trans h
    match o with
    | none => exact hm
    | some v =>
      exact hm.trans (Move.finish r' d v hi (Nat.lt_of_lt_of_le hlt hm.spares.size_le)).moves

/-! ## Registering -/

theorem replay_moves {i : Nat} {f : Nat → Device → Walk β Verdict} (hf : Tame f)
    (hp : ∀ j, n ≤ j → p j) (hn : n ≤ r.entries.size) (hi : p i) (ds : List Device) :
    (replay i f ds).Ends (fun _ r' => Moves p r r') r := by
  induction ds generalizing r with
  | nil => exact replay_nil_ends.mpr (.refl r)
  | cons d ds ih =>
    refine replay_cons_ends.mpr ((offerArrival_moves hf hp hn hi d).mono fun o r' h => ?_)
    have hr : (replay i f ds).Ends (fun _ r'' => Moves p r r'') r' :=
      (ih (Nat.le_trans hn h.spares.size_le)).mono fun _ _ h' => h.trans h'
    match o with
    | none => exact h
    | some .dropped => exact h
    | some .ignored => exact hr
    | some .attached => exact hr

/-- The entry of a registration just made. -/
def newEntry (r : Registry β) (g : Registration β) : Entry β :=
  { toRegistration := g, handle := r.nextHandle }

theorem entries_enlist (r : Registry β) (g : Registration β) :
    (r.enlist g).entries = r.entries.push (r.newEntry g) := rfl

theorem history_enlist (r : Registry β) (g : Registration β) : ∃ l,
    (r.enlist g).history.toList = r.history.toList ++ [.enlisted r.entries.size, .logged l] := by
  unfold enlist
  simp only [history_log, history_record, List.append_assoc]
  exact ⟨_, rfl⟩

theorem history_beginReplay (r : Registry β) (i : Nat) (h : Handle) (ds : List Device) : ∃ l,
    (r.beginReplay i h ds).history.toList = r.history.toList ++ [.replayed i ds, .logged l] := by
  unfold beginReplay
  simp only [history_log, history_record, List.append_assoc]
  exact ⟨_, rfl⟩

theorem getElem?_enlist (r : Registry β) (g : Registration β) :
    (r.enlist g).entries[r.entries.size]? = some (r.newEntry g) := by
  simp [entries_enlist]

theorem size_enlist (r : Registry β) (g : Registration β) :
    (r.enlist g).entries.size = r.entries.size + 1 := by
  simp [entries_enlist]

theorem size_enlist_enumerate (r : Registry β) (g : Registration β) :
    (r.enlist g).enumerate.2.entries.size = r.entries.size + 1 := by
  rw [entries_enumerate]
  exact size_enlist r g

/-- Listing the devices leaves the entry of a new registration as it is. -/
theorem getElem?_enlist_enumerate (r : Registry β) (g : Registration β) :
    (r.enlist g).enumerate.2.entries[r.entries.size]? = some (r.newEntry g) := by
  rw [entries_enumerate]
  exact getElem?_enlist r g

/-- The entries of others are as they were while a registration is made. -/
theorem getElem?_enlist_flag {g : Registration β} {i : Nat} (hi : i < r.entries.size) :
    ((r.enlist g).enumerate.2.flag r.entries.size).entries[i]? = r.entries[i]? := by
  have hflag : ((r.enlist g).enumerate.2.flag r.entries.size).entries[i]? =
      (r.enlist g).enumerate.2.entries[i]? := getElem?_update_of_ne _ _ _ (Nat.ne_of_gt hi)
  rw [hflag, entries_enumerate, entries_enlist, Array.getElem?_push, if_neg (Nat.ne_of_lt hi)]

theorem lt_size_replaying (r : Registry β) (g : Registration β) (h : Handle) (ds : List Device) :
    r.entries.size <
      ((r.enlist g).enumerate.2.beginReplay r.entries.size h ds).entries.size :=
  lt_size_of_getElem? (getElem?_enlist_enumerate r g)

/-- What a registration does up to the start of its replay is moves. -/
theorem opening_moves {g : Registration β} (hg : g.check = .ok ()) (hi : p r.entries.size)
    (h : Handle) (ds : List Device) :
    Moves p r ((r.enlist g).enumerate.2.beginReplay r.entries.size h ds) := by
  have hlt : r.entries.size < (r.enlist g).enumerate.2.entries.size := by
    rw [size_enlist_enumerate]
    omega
  have hlisted : Moves p r (r.enlist g) := (Move.enlist r g hg hi).moves
  have hknown : Moves p r (r.enlist g).enumerate.2 := hlisted.trans (Move.enumerate _).moves
  exact hknown.trans (Move.beginReplay _ h ds hi hlt).moves

/-- A registration is made by moves; those of the callback are moves by assumption. -/
theorem registerWith_moves {g : Registration β} {f : Nat → Device → Walk β Verdict}
    (hf : Tame f) (hp : ∀ j, n ≤ j → p j) (hn : n ≤ r.entries.size) :
    (registerWith g f).Ends (fun _ r' => Moves p r r') r := by
  have hi : p r.entries.size := hp _ hn
  have he (hg : g.check = .ok ()) : Moves p r (r.enlist g) := (Move.enlist r g hg hi).moves
  apply registerWith_ends
  · intro _
    exact .refl r
  · intro hg _
    exact he hg
  · intro hg why _
    -- The bus could not tell its devices.
    have hm : Moves p r (r.enlist g).enumerate.2 := (he hg).trans (Move.enumerate _).moves
    exact hm.trans (Move.rollBack _ why hi (getElem?_enlist_enumerate r g)).moves
  · intro hg _ ds _
    have hb := opening_moves hg hi r.nextHandle ds
    apply (replay_moves hf hp (Nat.le_trans hn hb.spares.size_le) hi ds).mono
    intro _ _ h
    exact hb.trans h

/-! ## Running scripts -/

/-- A script does nothing but moves, and calls no registration that was there before. -/
theorem run_moves (s : Script β) (r : Registry β) :
    (run s).Ends (fun _ r' => Moves (r.entries.size ≤ ·) r r') r := by
  induction s generalizing r with
  | finish v => exact Moves.refl r
  | panic => exact Moves.refl r
  | act a next ih =>
    have hm : Moves (r.entries.size ≤ ·) r (r.perform a).2 := (Move.perform r a).moves
    rw [run, ends_bind, ends_modifyGet, before_some]
    apply (ih (r.perform a).1 (r.perform a).2).mono
    intro _ _ h
    exact hm.trans (h.since hm.spares.size_le)
  | register filter provided onArrived onLeft next order ihA _ ihN =>
    -- The arrival callback is a smaller script, and only the replay calls it here.
    have hf : Tame fun k d => run (onArrived k d) := ihA
    rw [run]
    apply bind_moves (registerWith_moves hf (fun _ hj => hj) (Nat.le_refl _))
    intro reply r' h
    apply (ihN reply r').mono
    intro _ _ h'
    exact h'.since h.spares.size_le

/-- Callbacks are tame. -/
theorem tame_run (f : Nat → Device → Script β) : Tame fun k d => run (f k d) :=
  fun k d r => run_moves (f k d) r

theorem register_moves (hp : ∀ j, n ≤ j → p j) (g : Registration β) (hn : n ≤ r.entries.size) :
    (register g).Ends (fun _ r' => Moves p r r') r :=
  registerWith_moves (tame_run g.onArrived) hp hn

/-! ## Dispatching -/

theorem offer_ends {d : Device} {c : Change} {i : Nat} {Q : Option Bool → Registry β → Prop}
    (absent : r.entries[i]? = none → Q (some false) r)
    (arrived : ∀ e, r.entries[i]? = some e → c = .arrived →
      (offerArrival i (fun k d => run (e.onArrived k d)) d).Ends
        (fun o => Q (o.map (· != .ignored))) r)
    (left : ∀ e, r.entries[i]? = some e → c = .left →
      (offerLeft i (fun k d => run (e.onLeft k d)) d.id).Ends Q r) :
    (offer d c i).Ends Q r := by
  unfold offer
  simp only [ends_bind, ends_get, before_some]
  cases he : r.entries[i]? with
  | none => exact absent he
  | some e =>
    cases c with
    | arrived =>
      simp only [ends_bind]
      apply (arrived e he rfl).mono
      intro o r' hq
      cases o <;> exact hq
    | left => exact left e he rfl

theorem offer_moves (hp : ∀ j, n ≤ j → p j) (hn : n ≤ r.entries.size) {i : Nat} (hi : p i)
    (d : Device) (c : Change) : (offer d c i).Ends (fun _ r' => Moves p r r') r :=
  offer_ends (fun _ => .refl r)
    (fun e _ _ => offerArrival_moves (tame_run e.onArrived) hp hn hi d)
    (fun e _ _ => offerLeft_moves (tame_run e.onLeft) hp hn hi d.id)

theorem offerAll_cons_ends {d : Device} {c : Change} {i : Nat} {is : List Nat}
    {Q : Option Nat → Registry β → Prop} :
    (offerAll d c (i :: is)).Ends Q r ↔
      (offer d c i).Ends (Before (fun taken => do
        let m ← offerAll d c is
        return taken.toNat + m) Q) r := by
  rw [offerAll, ends_bind]

/-- The rule for offers in turn when the count does not matter. -/
theorem offerAll_cons_ends_of {d : Device} {c : Change} {i : Nat} {is : List Nat}
    {Q : Bool → Registry β → Prop}
    (h : (offer d c i).Ends (fun o r' => match o with
      | some _ => (offerAll d c is).Ends (fun o => Q o.isSome) r'
      | none => Q false r') r) :
    (offerAll d c (i :: is)).Ends (fun o => Q o.isSome) r := by
  rw [offerAll_cons_ends]
  apply h.mono
  intro o r' hq
  cases o with
  | none => exact hq
  | some taken =>
    -- What is left is the sum, which the property does not look at.
    simp only [before_some, ends_bind]
    apply Ends.mono hq
    intro o r'' hq'
    cases o <;> exact hq'

theorem offerAll_moves (hp : ∀ j, n ≤ j → p j) (d : Device) (c : Change) {is : List Nat}
    (his : ∀ i ∈ is, p i) (hn : n ≤ r.entries.size) :
    (offerAll d c is).Ends (fun _ r' => Moves p r r') r := by
  induction is generalizing r with
  | nil => exact Moves.refl r
  | cons i is ih =>
    apply offerAll_cons_ends_of (Q := fun _ r' => Moves p r r')
    apply (offer_moves hp hn (his i (by simp)) d c).mono
    intro o r' h
    cases o with
    | none => exact h
    | some taken =>
      have hn' := Nat.le_trans hn h.spares.size_le
      apply (ih (fun j hj => his j (by simp [hj])) hn').mono
      intro _ _ h'
      exact h.trans h'

/-- The rule for a change offered to every active registration. -/
theorem dispatch_counts {d : Device} {c : Change} {Q : Option Nat → Registry β → Prop}
    (h : (offerAll d c (r.places (·.active))).Ends
      (fun o r' => ∀ message, Q o (if o.isSome then r'.log .debug message else r'))
      (r.record (.dispatched d c))) :
    (dispatch d c).Ends Q r := by
  unfold dispatch
  simp only [ends_bind, ends_modify, ends_get, before_some]
  apply Ends.mono h
  intro o r' hq
  cases o with
  | none => exact hq ""
  | some m => exact hq _

/-- The same, when the count does not matter. -/
theorem dispatch_ends {d : Device} {c : Change} {Q : Bool → Registry β → Prop}
    (h : (offerAll d c (r.places (·.active))).Ends
      (fun o r' => ∀ message, Q o.isSome (if o.isSome then r'.log .debug message else r'))
      (r.record (.dispatched d c))) :
    (dispatch d c).Ends (fun o => Q o.isSome) r :=
  dispatch_counts h

/-- A change is dispatched by moves, apart from the note of it. -/
theorem dispatch_moves (hp : ∀ j, n ≤ j → p j) (hi : ∀ i ∈ r.places (·.active), p i)
    (hn : n ≤ r.entries.size) (d : Device) (c : Change) :
    (dispatch d c).Ends (fun _ r' => Moves p (r.record (.dispatched d c)) r') r := by
  apply dispatch_ends (Q := fun _ r' => Moves p (r.record (.dispatched d c)) r')
  apply Ends.mono (offerAll_moves (r := r.record (.dispatched d c)) hp d c hi hn)
  intro o r' h message
  cases o with
  | none => exact h
  | some m => exact h.trans (Move.log r' _ message).moves

/-- The same, whoever is called. -/
theorem dispatch_moves_any (r : Registry β) (d : Device) (c : Change) :
    (dispatch d c).Ends (fun _ r' => Moves (fun _ => True) (r.record (.dispatched d c)) r') r :=
  dispatch_moves (fun _ _ => trivial) (fun _ _ => trivial) (Nat.le_refl _) d c

/-! ## Sweeping -/

/-- The flagged registrations are off the list, and nobody was told yet. -/
def startSweep (r : Registry β) : Registry β :=
  (r.places (·.flagged)).foldl (fun r i => r.record (.reclaimed i)) (r.unlist (·.flagged))

/-- What the start of a sweep changes is the list and the history. -/
theorem startSweep_eq (r : Registry β) : r.startSweep = { r.unlist (·.flagged) with
    history := r.history ++ (r.places (·.flagged)).map Happening.reclaimed } := by
  -- The notes are added one by one; the induction is on the places that are left.
  have h : ∀ (is : List Nat) (s : Registry β),
      is.foldl (fun s i => s.record (.reclaimed i)) s =
        { s with history := s.history ++ is.map Happening.reclaimed } := by
    intro is
    induction is with
    | nil => simp
    | cons i is ih =>
      intro s
      rw [List.foldl_cons, ih]
      simp [record]
  exact h _ _

@[simp] theorem entries_startSweep (r : Registry β) : r.startSweep.entries = r.entries := by
  rw [startSweep_eq]
  rfl

@[simp] theorem mailbox_startSweep (r : Registry β) : r.startSweep.mailbox = r.mailbox := by
  rw [startSweep_eq]
  rfl

@[simp] theorem bus_startSweep (r : Registry β) : r.startSweep.bus = r.bus := by
  rw [startSweep_eq]
  rfl

@[simp] theorem listed_startSweep (r : Registry β) :
    r.startSweep.listed = r.listed.filter fun i => !r.satisfies (·.flagged) i := by
  rw [startSweep_eq]
  rfl

@[simp] theorem history_startSweep (r : Registry β) : r.startSweep.history.toList =
    r.history.toList ++ (r.places (·.flagged)).map Happening.reclaimed := by
  rw [startSweep_eq]
  simp

theorem release_cons_ends {i : Nat} {e : Entry β} {d : Device} {ds : List Device}
    {Q : Option Unit → Registry β → Prop} (k : Nat)
    (hk : k = (r.entries[i]?.map (·.removals)).getD 0)
    (h : (run (e.onLeft k d)).Ends (Return i .left d fun o r' => match o with
      | some _ => (release i e ds).Ends Q r'
      | none => Q none r') (r.enter i .left d)) :
    (release i e (d :: ds)).Ends Q r := by
  subst hk
  unfold release
  simp only [ends_bind, ends_get, before_some, ends_discard, call_ends]
  apply h.mono
  intro o r' hq
  cases o <;> exact hq

theorem release_moves (hp : ∀ j, n ≤ j → p j) {i : Nat} (hi : p i) (e : Entry β)
    (ds : List Device) (hn : n ≤ r.entries.size) (hlt : i < r.entries.size) :
    (release i e ds).Ends (fun _ r' => Moves p r r') r := by
  induction ds generalizing r with
  | nil => exact Moves.refl r
  | cons d ds ih =>
    have he : Moves p r (r.enter i .left d) := (Move.enter r .left d hi hlt).moves
    apply release_cons_ends _ rfl
    apply ((tame_run e.onLeft).moves hp _ d (Nat.le_trans hn he.spares.size_le)).mono
    intro o r' h
    match o with
    | none => exact he.trans h
    | some v =>
      have hlt' : i < r'.entries.size := Nat.lt_of_lt_of_le hlt (he.trans h).spares.size_le
      have hm := (he.trans h).trans (Move.finish r' d v hi hlt').moves
      show (release i e ds).Ends (fun _ s => Moves p r s) _
      apply (ih (Nat.le_trans hn hm.spares.size_le) hlt').mono
      intro _ _ h'
      exact hm.trans h'

/-- The rule for a registration that is reclaimed. -/
theorem reclaim_ends {i : Nat} {Q : Bool → Registry β → Prop}
    (absent : r.entries[i]? = none → Q true r)
    (silent : ∀ e, r.entries[i]? = some e → e.calls .left = false →
      ∀ message, Q true ((r.update i ({ · with attached := [] })).log .debug message))
    (told : ∀ e, r.entries[i]? = some e → e.calls .left = true →
      (release i e e.parting).Ends
        (fun o r' => ∀ message, Q o.isSome (if o.isSome then r'.log .debug message else r'))
        (r.update i ({ · with attached := [] }))) :
    (reclaim i).Ends (fun o => Q o.isSome) r := by
  unfold reclaim
  simp only [ends_bind, ends_get, before_some]
  cases he : r.entries[i]? with
  | none => exact absent he
  | some e =>
    simp only [ends_bind, ends_modify, before_some]
    split
    · next hc =>
      rw [ends_bind]
      apply (told e he hc).mono
      intro o r' hq
      cases o with
      | none => exact hq ""
      | some u => exact hq _
    · next hc => exact silent e he (by simpa using hc) _

theorem reclaim_moves (hp : ∀ j, n ≤ j → p j) {i : Nat} (hi : p i) (hn : n ≤ r.entries.size) :
    (reclaim i).Ends (fun _ r' => Moves p r r') r := by
  have hclear (hlt : i < r.entries.size) : Moves p r (r.update i ({ · with attached := [] })) :=
    (Move.clear r hi hlt).moves
  apply reclaim_ends (Q := fun _ r' => Moves p r r')
  · intro _
    exact .refl r
  · intro e he _ message
    exact (hclear (lt_size_of_getElem? he)).trans (Move.log _ _ message).moves
  · intro e he _
    have hc := hclear (lt_size_of_getElem? he)
    apply (release_moves hp hi e e.parting (Nat.le_trans hn hc.spares.size_le)
      (by simpa using lt_size_of_getElem? he)).mono
    intro o r' h message
    cases o with
    | none => exact hc.trans h
    | some u => exact (hc.trans h).trans (Move.log _ _ message).moves

theorem reclaimAll_moves (hp : ∀ j, n ≤ j → p j) {is : List Nat} (his : ∀ i ∈ is, p i)
    (hn : n ≤ r.entries.size) : (reclaimAll is).Ends (fun _ r' => Moves p r r') r := by
  induction is generalizing r with
  | nil => exact Moves.refl r
  | cons i is ih =>
    rw [reclaimAll]
    apply bind_moves (reclaim_moves hp (his i (by simp)) hn)
    intro _ r' h
    exact ih (fun j hj => his j (by simp [hj])) (Nat.le_trans hn h.spares.size_le)

/-- The rule for a sweep: whatever happens in it, it counts those that it reclaims. -/
theorem sweep_counts {Q : Option Nat → Registry β → Prop}
    (h : (reclaimAll (r.places (·.flagged))).Ends
      (fun o => Q (o.map fun _ => (r.places (·.flagged)).length)) r.startSweep) :
    sweep.Ends Q r := by
  unfold sweep
  simp only [ends_bind, ends_modify, ends_get, before_some]
  apply Ends.mono h
  intro o r' hq
  cases o <;> exact hq

/-- The same, when the count does not matter. -/
theorem sweep_ends {Q : Bool → Registry β → Prop}
    (h : (reclaimAll (r.places (·.flagged))).Ends (fun o => Q o.isSome) r.startSweep) :
    sweep.Ends (fun o => Q o.isSome) r :=
  sweep_counts (h.mono fun o _ hq => by cases o <;> exact hq)

/-- A sweep goes on by moves once the flagged registrations are off the list. -/
theorem sweep_moves (hp : ∀ j, n ≤ j → p j) (hi : ∀ i ∈ r.places (·.flagged), p i)
    (hn : n ≤ r.entries.size) : sweep.Ends (fun _ r' => Moves p r.startSweep r') r := by
  apply sweep_ends (Q := fun _ r' => Moves p r.startSweep r')
  exact reclaimAll_moves hp hi (by simpa using hn)

/-- The same, whoever is called. -/
theorem sweep_moves_any (r : Registry β) :
    sweep.Ends (fun _ r' => Moves (fun _ => True) r.startSweep r') r :=
  sweep_moves (fun _ _ => trivial) (fun _ _ => trivial) (Nat.le_refl _)

end Registry

end PlugWatch
