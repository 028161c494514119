import PlugWatch.Proofs.Traffic

/-! # Who prints

  A line belongs to the callback that is being called when it is printed, the innermost one if there
  are several. The callbacks of a watch print one line each time they are called.

  A registry is **voiced** if every registration is that of a watch, nobody is speaking, and the
  lines of every watch are those of its calls. Delivery, registering watches and the event loop lead
  from a voiced registry to a voiced one, however they end; so the lines are known as soon as the
  calls are.
-/

namespace PlugWatch

/-! ## Who prints -/

/-- Who is speaking, and what was said. -/
structure Speech where
  /-- The places of the registrations whose callbacks are being called, innermost first. -/
  speakers : List Nat := []
  /-- The lines printed by callbacks, each with the place of the registration. -/
  lines : List (Nat × String) := []

/-- One more thing happens. -/
def Speech.note (s : Speech) : Happening → Speech
  | .called i _ _ => { s with speakers := i :: s.speakers }
  | .answered _ _ _ _ => { s with speakers := s.speakers.tail }
  | .printed line => { s with lines := s.lines ++ (s.speakers.head?.map (·, line)).toList }
  | _ => s

/-- Who is speaking after all this, and what was said. -/
def speech (hs : List Happening) : Speech :=
  hs.foldl Speech.note {}

/-- The lines printed by the callbacks of the registration at a place. -/
def linesOf (i : Nat) (hs : List Happening) : List String :=
  ((speech hs).lines.filter (·.1 == i)).map (·.2)

theorem speech_append (hs hs' : List Happening) :
    speech (hs ++ hs') = hs'.foldl Speech.note (speech hs) :=
  List.foldl_append

theorem speech_of_mute {hs hs' : List Happening} (h : ∀ x ∈ hs', x.Mute) :
    speech (hs ++ hs') = speech hs := by
  rw [speech_append]
  generalize speech hs = s
  induction hs' with
  | nil => rfl
  | cons x hs' ih =>
    have hx : s.note x = s := by
      have hmute := h x (by simp)
      cases x <;> first | rfl | exact False.elim hmute
    rw [List.foldl_cons, hx]
    exact ih fun y hy => h y (by simp [hy])

namespace Watch

/-- The sign of a change in the lines of a watch. -/
def sign : Change → String
  | .arrived => "+"
  | .left => "-"

/-- The line of a watch that is told of a change. -/
def line (w : Watch) (x : Change × Device) : String :=
  s!"[{w.name}] {sign x.1} {x.2.line}"

end Watch

namespace Registry

open Walk

variable {β : Type} [Bus β] {W : Nat → Watch} {r r' : Registry β} {i : Nat}

/-- Nobody is speaking, and the lines of every watch are those of its calls. -/
structure Voiced (W : Nat → Watch) (r : Registry β) : Prop where
  silent : (speech r.history.toList).speakers = []
  watches : ∀ i e, r.entries[i]? = some e → ∃ f, e.toRegistration = (W i).registration f
  lines : ∀ i, linesOf i r.history.toList =
    (r.calls i).map fun c => (W i).line (c.change, c.device)

namespace Voiced

/-- What is neither a call nor a return nor a line does not count. -/
theorem of_mute {hs : List Happening} (h : Voiced W r)
    (hh : r'.history.toList = r.history.toList ++ hs) (hm : ∀ x ∈ hs, x.Mute)
    (he : ∀ i e, r'.entries[i]? = some e → ∃ f, e.toRegistration = (W i).registration f) :
    Voiced W r' where
  silent := by rw [hh, speech_of_mute hm, h.silent]
  watches := he
  lines i := by
    have hcalls : r'.calls i = r.calls i := calls_of_unspoken hh fun x hx => (hm x hx).unspoken
    rw [hcalls, ← h.lines i, linesOf, linesOf, hh, speech_of_mute hm]

theorem aside {hs : List Happening} (h : Voiced W r) (he : r'.entries = r.entries)
    (hh : r'.history.toList = r.history.toList ++ hs) (hm : ∀ x ∈ hs, x.Mute) : Voiced W r' :=
  h.of_mute hh hm fun i e hi => h.watches i e (by rwa [← he])

theorem record (h : Voiced W r) {x : Happening} (hx : x.Mute) : Voiced W (r.record x) :=
  h.aside rfl (history_record r x) (by simpa using hx)

theorem update (h : Voiced W r) (j : Nat) {f : Entry β → Entry β}
    (hf : ∀ e, (f e).toRegistration = e.toRegistration) : Voiced W (r.update j f) := by
  refine h.of_mute (List.append_nil _).symm (by simp) fun i e he => ?_
  by_cases hij : i = j
  · subst hij
    cases hi : r.entries[i]? with
    | none => simp [Registry.update, Array.getElem?_modify, hi] at he
    | some e' =>
      rw [getElem?_update_self r i f hi, Option.some.injEq] at he
      rw [← he, hf]
      exact h.watches i e' hi
  · rw [getElem?_update_of_ne r j f (Ne.symm hij)] at he
    exact h.watches i e he

/-- The callback of a watch is called, prints its line and returns. -/
theorem told (h : Voiced W r) (i : Nat) (c : Change) (d : Device) (entry : LogEntry) (v : Verdict) :
    Voiced W ((((r.enter i c d).record (.logged entry)).record
      (.printed ((W i).line (c, d)))).record (.answered i c d v)) := by
  let s := ((r.enter i c d).record (.logged entry)).record (.printed ((W i).line (c, d)))
  have hnoted : Noted (r.enter i c d) s :=
    (Noted.record _ (by simp [Happening.Unspoken])).trans
      (Noted.record _ (by simp [Happening.Unspoken]))
  have hcalls := calls_returned hnoted v
  have hspeech : speech (s.record (.answered i c d v)).history.toList =
      { lines := (speech r.history.toList).lines ++ [(i, (W i).line (c, d))] } := by
    rw [history_record, history_record, history_record, enter, history_record, history_update]
    simp [speech_append, Speech.note, h.silent]
  refine ⟨by rw [hspeech], ?_, ?_⟩
  · exact (h.update i (f := (·.countCall c)) fun e => by cases c <;> rfl).watches
  · intro j
    rw [hcalls, linesOf, hspeech, List.filter_append, List.map_append]
    have hbefore : (((speech r.history.toList).lines.filter (·.1 == j)).map (·.2)) =
        (r.calls j).map fun c => (W j).line (c.change, c.device) := h.lines j
    rw [hbefore]
    by_cases hij : i = j
    · subst hij
      simp
    · simp [hij]

end Voiced

theorem run_tell (w : Watch) (word sign : String) (d : Device) (r : Registry β) :
    (run (w.tell word sign d)).Ends (fun o r' => o = some .keep ∧
      ∃ entry, r' = (r.record (.logged entry)).record
        (.printed s!"[{w.name}] {sign} {d.line}")) r :=
  ⟨rfl, _, rfl⟩

/-! ## Delivery -/

/-- The callback of the watch at a place. -/
def callback (W : Nat → Watch) (i : Nat) : Change → Device → Walk β Verdict
  | .arrived, d => run ((W i).tell "arrived" "+" d)
  | .left, d => run ((W i).tell "left" "-" d)

/-- A callback that was entered ends, and when it has returned the registry is voiced. -/
theorem callback_voiced (h : Voiced W r) (i : Nat) (c : Change) (d : Device) :
    (callback W i c d).Ends (fun o r' => o = some .keep ∧
      Voiced W (r'.record (.answered i c d .keep))) (r.enter i c d) := by
  cases c with
  | arrived =>
    apply (run_tell (W i) "arrived" "+" d _).mono
    rintro _ r' ⟨rfl, entry, rfl⟩
    exact ⟨rfl, h.told i .arrived d entry .keep⟩
  | left =>
    apply (run_tell (W i) "left" "-" d _).mono
    rintro _ r' ⟨rfl, entry, rfl⟩
    exact ⟨rfl, h.told i .left d entry .keep⟩

theorem call_voiced (h : Voiced W r) (i : Nat) (c : Change) (d : Device) :
    (call i c d (callback W i c d)).Ends (fun _ r' => Voiced W r') r := by
  rw [call_ends]
  apply (callback_voiced h i c d).mono
  rintro _ r' ⟨rfl, h'⟩
  exact h'

theorem offerArrival_voiced (h : Voiced W r) (i : Nat) (d : Device) :
    (offerArrival i (fun _ => callback W i .arrived) d).Ends (fun _ r' => Voiced W r') r := by
  apply offerArrival_ends
  · intro _
    exact h
  · intro _ _ _
    exact h
  · intro _ _ _ _ _
    exact h.update i fun _ => rfl
  · intro _ _ _ _ _
    apply (callback_voiced h i .arrived d).mono
    rintro _ r' ⟨rfl, h'⟩
    exact h'.update i fun _ => rfl

theorem offerLeft_voiced (h : Voiced W r) (i : Nat) (id : DeviceId) :
    (offerLeft i (fun _ => callback W i .left) id).Ends (fun _ r' => Voiced W r') r := by
  have hgiven : Voiced W (r.update i (·.detach id)) := h.update i fun _ => rfl
  apply offerLeft_ends
  · intro _
    exact h
  · intro _ _ _
    exact h
  · intro _ _ _ _ _ _
    exact hgiven
  · intro _ d _ _ _ _
    apply (callback_voiced hgiven i .left d).mono
    rintro _ r' ⟨rfl, h'⟩
    exact h'

theorem replay_voiced (h : Voiced W r) (i : Nat) (ds : List Device) :
    (replay i (fun _ => callback W i .arrived) ds).Ends (fun _ r' => Voiced W r') r := by
  induction ds generalizing r with
  | nil => exact h
  | cons d ds ih =>
    refine replay_cons_ends.mpr ((offerArrival_voiced h i d).mono ?_)
    rintro o r' h'
    match o with
    | none => exact h'
    | some .dropped => exact h'
    | some .ignored => exact ih h'
    | some .attached => exact ih h'

theorem offer_voiced (h : Voiced W r) (d : Device) (c : Change) (i : Nat) :
    (offer d c i).Ends (fun _ r' => Voiced W r') r := by
  unfold offer
  simp only [ends_bind, ends_get, before_some]
  cases he : r.entries[i]? with
  | none => exact h
  | some e =>
    obtain ⟨f, hreg⟩ := h.watches i e he
    cases c with
    | arrived =>
      simp only [hreg, ends_bind]
      apply (offerArrival_voiced h i d).mono
      intro o r' h'
      cases o <;> exact h'
    | left =>
      simp only [hreg]
      exact offerLeft_voiced h i d.id

theorem offerAll_voiced (h : Voiced W r) (d : Device) (c : Change) (is : List Nat) :
    (offerAll d c is).Ends (fun _ r' => Voiced W r') r := by
  induction is generalizing r with
  | nil => exact h
  | cons i is ih =>
    refine Ends.bind (offer_voiced h d c i) (fun _ h' => h') fun _ r' h' => ?_
    exact Ends.bind (ih h') (fun _ h'' => h'') fun _ _ h'' => h''

theorem dispatch_voiced (h : Voiced W r) (d : Device) (c : Change) :
    (dispatch d c).Ends (fun _ r' => Voiced W r') r := by
  have hnoted : Voiced W (r.record (.dispatched d c)) := h.record trivial
  unfold dispatch
  simp only [ends_bind, ends_modify, ends_get, before_some]
  apply (offerAll_voiced hnoted d c _).mono
  intro o r' h'
  cases o with
  | none => exact h'
  | some n => exact h'.record trivial

theorem release_voiced (h : Voiced W r) {i : Nat} {e : Entry β} {f : Filter}
    (hreg : e.toRegistration = (W i).registration f) (ds : List Device) :
    (release i e ds).Ends (fun _ r' => Voiced W r') r := by
  induction ds generalizing r with
  | nil => exact h
  | cons d ds ih =>
    unfold release
    simp only [hreg, ends_bind, ends_get, before_some, ends_discard]
    apply (call_voiced h i .left d).mono
    intro o r' h'
    cases o with
    | none => exact h'
    | some v => exact ih h'

theorem reclaim_voiced (h : Voiced W r) (i : Nat) :
    (reclaim i).Ends (fun _ r' => Voiced W r') r := by
  unfold reclaim
  simp only [ends_bind, ends_get, before_some]
  cases he : r.entries[i]? with
  | none => exact h
  | some e =>
    obtain ⟨f, hreg⟩ := h.watches i e he
    have hcleared : Voiced W (r.update i ({ · with attached := [] })) := h.update i fun _ => rfl
    simp only [ends_bind, ends_modify, before_some]
    split
    · rw [ends_bind]
      apply (release_voiced hcleared hreg e.parting).mono
      intro o r' h'
      cases o with
      | none => exact h'
      | some v => exact h'.record trivial
    · exact hcleared.record trivial

theorem reclaimAll_voiced (h : Voiced W r) (is : List Nat) :
    (reclaimAll is).Ends (fun _ r' => Voiced W r') r := by
  induction is generalizing r with
  | nil => exact h
  | cons i is ih => exact Ends.bind (reclaim_voiced h i) (fun _ h' => h') fun _ _ h' => ih h'

theorem sweep_voiced (h : Voiced W r) : sweep.Ends (fun _ r' => Voiced W r') r := by
  have hstart : Voiced W r.startSweep := by
    refine h.aside (entries_startSweep r) (history_startSweep r) fun x hx => ?_
    obtain ⟨i, -, rfl⟩ := List.mem_map.mp hx
    trivial
  exact sweep_ends (Q := fun _ r' => Voiced W r') (reclaimAll_voiced hstart _)

theorem next_voiced (h : Voiced W r) : next.Ends (fun _ r' => Voiced W r') r := by
  have htaken (m : Message) (mailbox : Mailbox) :
      Voiced W ({ r with mailbox }.record (.taken m)) :=
    h.aside rfl (history_record _ _) (by simp [Happening.Mute])
  apply next_ends (Q := fun _ r' => Voiced W r')
  · intro _
    exact h
  · intro mailbox _
    exact htaken _ mailbox
  · intro d c mailbox _
    exact dispatch_voiced (htaken _ mailbox) d c

theorem handlePending_voiced (h : Voiced W r) :
    handlePending.Ends (fun _ r' => Voiced W r') r :=
  handlePending_ends (P := fun _ r' => Voiced W r') (Q := fun _ r' => Voiced W r')
    next_voiced id sweep_voiced h

/-! ## Registering -/

theorem enlist_voiced (h : Voiced W r) (f : Filter) :
    Voiced W (r.enlist ((W r.entries.size).registration f)) := by
  obtain ⟨l, hh⟩ := r.history_enlist ((W r.entries.size).registration f)
  refine h.of_mute hh (by simp [Happening.Mute]) fun i e he => ?_
  rw [entries_enlist, Array.getElem?_push] at he
  split at he
  · next hi =>
    cases he
    exact ⟨f, by rw [hi]; rfl⟩
  · exact h.watches i e he

theorem rollBack_voiced (h : Voiced W r) (i : Nat) (n : Handle) (why : Failure) :
    Voiced W (r.rollBack i n why) := by
  obtain ⟨l, hh⟩ := r.history_rollBack i n why
  have hflagged : Voiced W (r.update i ({ · with flagged := true })) := h.update i fun _ => rfl
  exact hflagged.aside rfl hh (by simp [Happening.Mute])

theorem register_voiced (h : Voiced W r) (f : Filter) :
    (register ((W r.entries.size).registration f)).Ends (fun _ r' => Voiced W r') r := by
  have hlisted := enlist_voiced h f
  have henumerated : Voiced W (r.enlist ((W r.entries.size).registration f)).enumerate.2 := by
    refine hlisted.aside (entries_enumerate _) (history_enumerate _) fun x hx => ?_
    obtain ⟨l, -, rfl⟩ := List.mem_map.mp hx
    trivial
  apply registerWith_ends
  · intro _
    exact h
  · intro _ _
    exact hlisted
  · intro _ why _
    exact rollBack_voiced henumerated r.entries.size r.nextHandle why
  · intro _ _ ds _
    have hbegun : Voiced W ((r.enlist ((W r.entries.size).registration f)).enumerate.2.beginReplay
        r.entries.size r.nextHandle ds) :=
      (henumerated.record (x := .replayed _ _) trivial).record (x := .logged _) trivial
    exact replay_voiced hbegun r.entries.size ds

theorem registerAll_voiced {ws : List Watch} (hr : r.Regular) (hs : r.Sane)
    (hclear : Watch.Clear r.bus ws) (hW : ∀ k w, ws[k]? = some w → W (r.entries.size + k) = w)
    (h : Voiced W r) : (Watch.registerAll ws).Ends (fun _ r' => Voiced W r') r := by
  induction ws generalizing r with
  | nil => exact h
  | cons w ws ih =>
    obtain ⟨hw, hws⟩ := hclear
    obtain ⟨f, hf, hregister⟩ := Watch.register_clear hw
    have hown : W r.entries.size = w := hW 0 w rfl
    have hvoiced : w.register.Ends (fun _ r' => Voiced W r') r := by
      have hone := register_voiced h f
      rw [hown] at hone
      unfold Watch.register
      rw [hf]
      refine Ends.bind hone (fun _ h' => h') fun o r' h' => ?_
      cases o with
      | error why => exact h'
      | ok n => exact h'.record (x := .logged _) trivial
    rw [Watch.registerAll_cons]
    refine Ends.bind (hregister.and hvoiced) (fun _ h' => h'.2) ?_
    rintro o s ⟨⟨ho, hj, hsteps⟩, hv⟩
    cases ho
    have hrest : Watch.Clear s.bus ws := by
      rw [hj.bus]
      show Watch.Clear (asked f.enumerate r.bus) ws
      rwa [(Watch.toFilter_spec hf).2.2]
    have hplaces : ∀ k v, ws[k]? = some v → W (s.entries.size + k) = v := by
      intro k v hk
      rw [hj.size, Nat.add_right_comm]
      exact hW (k + 1) v hk
    exact Ends.bind (ih (hsteps.regular hr) (hsteps.sane hs) hrest hplaces hv) (fun _ h' => h')
      fun _ _ h' => h'

end Registry

/-! ## The event loop -/

namespace EventLoop

open Walk Registry UsbBus

variable {W : Nat → Watch} {r : Registry UsbBus}

theorem log_voiced (h : Voiced W r) (source : LogSource) (level : LogLevel) (message : String) :
    (log source level message).Ends (fun _ r' => Voiced W r') r :=
  h.record (x := .logged _) trivial

/-- What happens to the bus alone is not heard. -/
theorem bus_voiced (h : Voiced W r) (b : UsbBus) : Voiced W { r with bus := b } :=
  h.aside rfl (List.append_nil _).symm (by simp)

theorem notify_voiced (h : Voiced W r) (d : Device) (c : Change) : Voiced W (r.notify d c).2 := by
  rcases r.notify_cases d c with ⟨-, hn⟩ | ⟨-, hn⟩
  · rw [hn]
    exact h.aside rfl (history_record _ _) (by simp [Happening.Mute])
  · rwa [hn]

theorem forward_voiced (h : Voiced W r) (slot : Nat) (c : Change) :
    (forward slot c).Ends (fun _ r' => Voiced W r') r := by
  have hread : Voiced W (r.sighted slot c) := bus_voiced (h.record (x := .logged _) trivial) _
  apply forward_ends
  · intro _ _ e
    exact hread.record (x := .logged e) trivial
  · intro d _
    have hqueued := notify_voiced hread d c
    exact ⟨hqueued, fun e => hqueued.record (x := .logged e) trivial⟩

theorem tell_voiced (h : Voiced W r) (slot : Nat) (c : Change) (n : Nat) :
    (tell slot c n).Ends (fun _ r' => Voiced W r') r := by
  induction n generalizing r with
  | zero => exact h
  | succ n ih => exact Ends.bind (forward_voiced h slot c) (fun _ h' => h') fun _ _ h' => ih h'

theorem events_voiced (h : Voiced W r) (es : List Event) :
    (es.forM Event.walk).Ends (fun _ r' => Voiced W r') r := by
  induction es generalizing r with
  | nil => exact h
  | cons e es ih =>
    refine Ends.bind (w := e.walk) (Q := fun _ r' => Voiced W r') ?_ (fun _ h' => h')
      fun _ _ h' => ih h'
    cases e with
    | command c => exact bus_voiced h _
    | report slot c => exact tell_voiced h slot c r.bus.listeners

theorem settle_voiced (h : Voiced W r) (error : Option UsbError) :
    (settle error).Ends (fun _ r' => Voiced W r') r :=
  settle_ends (P := Voiced W) (Q := fun _ r' => Voiced W r') h
    (fun _ _ hs => hs.record (x := .logged _) trivial) (fun _ hs => handlePending_voiced hs)
    fun _ _ hs => hs.record (x := .logged _) trivial

theorem passes_voiced (h : Voiced W r) (ts : List Traffic) :
    (passes (ts.map Traffic.pass)).Ends (fun _ r' => Voiced W r') r := by
  induction ts generalizing r with
  | nil => exact h
  | cons t ts ih =>
    rw [List.map_cons, passes]
    unfold Traffic.pass
    rw [bind_assoc]
    refine Ends.bind (events_voiced h t.events) (fun _ h' => h') fun _ s hs => ?_
    show Ends (settle t.error >>= fun _ => do
      return () :: (← passes (ts.map Traffic.pass))) _ s
    refine Ends.bind (settle_voiced hs t.error) (fun _ h' => h') fun _ s' hs' => ?_
    exact Ends.bind (ih hs') (fun _ h' => h') fun _ _ h' => h'

end EventLoop

end PlugWatch
