import PlugWatch.Proofs.Reclaiming
import PlugWatch.Proofs.Tracking

/-! # Who changes a record

  Under each id a registration has a device or none: its **record** there. A change that is
  dispatched concerns the records under its own id. Whatever callbacks do on the way, the records of
  registrations that were there before stay as they were:

  * all of them, while a registration is made and replayed to;
  * those under other ids, while a change is dispatched;
  * those of the registrations that remain held, while the flagged ones are swept.

  So what an operation does to the records of a registration that is held before and after it, it
  does by dispatching a change of the same id, by itself or because a message says so.
-/

namespace PlugWatch

namespace Entry

variable {β : Type} [Bus β] {id : DeviceId} {d : Device}

/-- A device that is attached under another id changes nothing. -/
theorem recorded?_attach_of_ne (h : d.id ≠ id) (e : Entry β) :
    (e.attach d).recorded? id = e.recorded? id := by
  show (insertDevice d e.attached).find? (·.id == id) = e.attached.find? (·.id == id)
  induction e.attached with
  | nil => simp [insertDevice, h]
  | cons x xs ih =>
    unfold insertDevice
    split
    · simp [List.find?_cons, h]
    · rw [List.find?_cons, List.find?_cons, ih]

theorem recorded?_detach_of_ne (h : d.id ≠ id) (e : Entry β) :
    (e.detach d.id).recorded? id = e.recorded? id := by
  rw [recorded?_detach, Filter.hear_of_ne _ h]

end Entry

/-- Whether an operation in which `hs` happened dispatched a change: it is this dispatch, or it took
    the change from the mailbox. -/
def Operation.Dispatched {β : Type} [Bus β] (o : Operation β) (hs : List Happening) (d : Device)
    (c : Change) : Prop :=
  o = .dispatch d c ∨ .taken (.change d c) ∈ hs

namespace Registry

open Walk

variable {β : Type} [Bus β] {p : Nat → Prop} {r r' r'' : Registry β} {i : Nat} {id : DeviceId}
  {d : Device} {c : Change}

/-! ## Records kept by everybody -/

/-- The registrations that were there have the records under an id that they had. -/
def KeepsUnder (id : DeviceId) (r r' : Registry β) : Prop :=
  ∀ (i : Nat) (e : Entry β), r.entries[i]? = some e →
    ∃ e', r'.entries[i]? = some e' ∧ e'.recorded? id = e.recorded? id

namespace KeepsUnder

theorem refl (id : DeviceId) (r : Registry β) : KeepsUnder id r r :=
  fun _ e he => ⟨e, he, rfl⟩

theorem trans (h : KeepsUnder id r r') (h' : KeepsUnder id r' r'') : KeepsUnder id r r'' := by
  intro i e he
  obtain ⟨e', he', hsame⟩ := h i e he
  obtain ⟨e'', he'', hsame'⟩ := h' i e' he'
  exact ⟨e'', he'', hsame'.trans hsame⟩

/-- A change of one registration that leaves the record alone. -/
theorem update (r : Registry β) (i : Nat) {f : Entry β → Entry β}
    (hf : ∀ e, (f e).recorded? id = e.recorded? id) : KeepsUnder id r (r.update i f) := by
  intro j e he
  by_cases hij : i = j
  · subst hij
    exact ⟨f e, getElem?_update_self r i f he, hf e⟩
  · exact ⟨e, (getElem?_update_of_ne r i f hij).trans he, rfl⟩

/-- What callbacks do they do to new registrations. -/
theorem of_moves (h : Moves (r.entries.size ≤ ·) r r') : KeepsUnder id r r' := by
  intro i e he
  have hlt := lt_size_of_getElem? he
  obtain ⟨b, he', -⟩ := h.spares.spared i e (by omega) he
  exact ⟨_, he', rfl⟩

theorem enter (r : Registry β) (i : Nat) (c : Change) (d : Device) :
    KeepsUnder id r (r.enter i c d) :=
  update r i fun _ => by cases c <;> rfl

theorem keep (h : d.id ≠ id) (r : Registry β) (i : Nat) : KeepsUnder id r (r.keep i d) :=
  update (r.record _) i (Entry.recorded?_attach_of_ne h)

theorem drop (r : Registry β) (i : Nat) (d : Device) : KeepsUnder id r (r.drop i d) := by
  intro j e he
  have hnote : Spares (fun k => k = i) r (r.record (.answered i .arrived d .deregister)) :=
    .record r _ rfl
  have hspares : Spares (fun k => k = i) r (r.drop i d) :=
    hnote.trans (Spares.dismiss (p := fun k => k = i) _ (show i = i from rfl) d.id)
  by_cases hji : j = i
  · subst hji
    exact ⟨_, getElem?_drop r he d, rfl⟩
  · obtain ⟨b, he', -⟩ := hspares.spared j e hji he
    exact ⟨_, he', rfl⟩

end KeepsUnder

/-! ## Dispatching -/

theorem offerArrival_keepsUnder (h : d.id ≠ id) {f : Nat → Device → Walk β Verdict} (hf : Tame f)
    (i : Nat) (r : Registry β) : (offerArrival i f d).Ends (fun _ r' => KeepsUnder id r r') r := by
  apply offerArrival_ends
  · exact fun _ => .refl id r
  · exact fun _ _ _ => .refl id r
  · exact fun _ _ _ _ _ => .update r i (Entry.recorded?_attach_of_ne h)
  · intro e _ _ _ _
    apply Ends.mono (hf e.arrivals d _)
    intro o s hm
    have hcalled : KeepsUnder id r s := (KeepsUnder.enter r i .arrived d).trans (.of_moves hm)
    match o with
    | none => exact hcalled
    | some .keep => exact hcalled.trans (.keep h s i)
    | some .deregister => exact hcalled.trans (.drop s i d)

theorem offerLeft_keepsUnder (h : d.id ≠ id) {f : Nat → Device → Walk β Verdict} (hf : Tame f)
    (i : Nat) (r : Registry β) :
    (offerLeft i f d.id).Ends (fun _ r' => KeepsUnder id r r') r := by
  have hdetach : KeepsUnder id r (r.update i (·.detach d.id)) :=
    .update r i (Entry.recorded?_detach_of_ne h)
  apply offerLeft_ends
  · exact fun _ => .refl id r
  · exact fun _ _ _ => .refl id r
  · exact fun _ _ _ _ _ _ => hdetach
  · intro e x _ _ _ _
    apply Ends.mono (hf e.removals x _)
    intro o s hm
    have hcalled := (hdetach.trans (.enter _ i .left x)).trans (.of_moves hm)
    cases o <;> exact hcalled

theorem offer_keepsUnder (h : d.id ≠ id) (i : Nat) (r : Registry β) :
    (offer d c i).Ends (fun _ r' => KeepsUnder id r r') r :=
  offer_ends (fun _ => .refl id r)
    (fun e _ _ => offerArrival_keepsUnder h (tame_run e.onArrived) i r)
    (fun e _ _ => offerLeft_keepsUnder h (tame_run e.onLeft) i r)

theorem offerAll_keepsUnder (h : d.id ≠ id) (is : List Nat) (r : Registry β) :
    (offerAll d c is).Ends (fun _ r' => KeepsUnder id r r') r := by
  induction is generalizing r with
  | nil => exact KeepsUnder.refl id r
  | cons i is ih =>
    apply offerAll_cons_ends_of (Q := fun _ r' => KeepsUnder id r r')
    apply (offer_keepsUnder h i r).mono
    intro o s hs
    cases o with
    | none => exact hs
    | some taken => exact (ih s).mono fun _ _ hrest => hs.trans hrest

/-- Dispatching a change keeps all records under other ids. -/
theorem dispatch_keepsUnder (h : d.id ≠ id) (r : Registry β) :
    (dispatch d c).Ends (fun _ r' => KeepsUnder id r r') r := by
  apply dispatch_ends (Q := fun _ r' => KeepsUnder id r r')
  apply Ends.mono (offerAll_keepsUnder (r := r.record (.dispatched d c)) h _)
  intro o s hs message
  cases o <;> exact hs

/-! ## Operations -/

/-- The registrations that remain held have the records under an id that they had, unless a change
    of that id was taken from the mailbox. -/
def Undisturbed (id : DeviceId) (r r' : Registry β) : Prop :=
  ∃ hs, r'.history.toList = r.history.toList ++ hs ∧ r.entries.size ≤ r'.entries.size ∧
    (∀ i ∈ r'.listed, i < r.entries.size → i ∈ r.listed) ∧
    ((∀ d c, .taken (.change d c) ∈ hs → d.id ≠ id) →
      ∀ (i : Nat) (e : Entry β), i ∈ r'.listed → r.entries[i]? = some e →
        ∃ e', r'.entries[i]? = some e' ∧ e'.recorded? id = e.recorded? id)

namespace Undisturbed

theorem refl (id : DeviceId) (r : Registry β) : Undisturbed id r r :=
  ⟨[], by simp, Nat.le_refl _, fun _ hi _ => hi, fun _ _ e _ he => ⟨e, he, rfl⟩⟩

theorem trans (h : Undisturbed id r r') (h' : Undisturbed id r' r'') : Undisturbed id r r'' := by
  obtain ⟨hs, hh, hle, hlisted, hkept⟩ := h
  obtain ⟨hs', hh', hle', hlisted', hkept'⟩ := h'
  refine ⟨hs ++ hs', by rw [hh', hh, List.append_assoc], Nat.le_trans hle hle', ?_, ?_⟩
  · intro i hi hlt
    exact hlisted i (hlisted' i hi (Nat.lt_of_lt_of_le hlt hle)) hlt
  · intro hnone i e hi he
    -- Who is held at the end is held in between.
    have hlt := Nat.lt_of_lt_of_le (lt_size_of_getElem? he) hle
    obtain ⟨e', he', hsame⟩ := hkept (fun d c hm => hnone d c (by simp [hm])) i e
      (hlisted' i hi hlt) he
    obtain ⟨e'', he'', hsame'⟩ := hkept' (fun d c hm => hnone d c (by simp [hm])) i e' hi he'
    exact ⟨e'', he'', hsame'.trans hsame⟩

/-- Moves that do nothing to the record of a registration that remains held. -/
theorem of_moves (hm : Moves p r r') (hkept : ∀ (i : Nat) (e : Entry β), i ∈ r'.listed →
    r.entries[i]? = some e → ∃ e', r'.entries[i]? = some e' ∧ e'.recorded? id = e.recorded? id) :
    Undisturbed id r r' := by
  obtain ⟨hs, hh⟩ := hm.news
  exact ⟨hs, hh.symm, hm.spares.size_le, hm.spares.listed, fun _ => hkept⟩

/-- What the history tells at first. -/
theorem after (h : Undisturbed id r' r'') {xs : List Happening}
    (hh : r'.history.toList = r.history.toList ++ xs) (he : r'.entries = r.entries)
    (hl : ∀ i ∈ r'.listed, i ∈ r.listed) : Undisturbed id r r'' := by
  refine trans ⟨xs, hh, Nat.le_of_eq (by rw [he]), fun i hi _ => hl i hi, ?_⟩ h
  intro _ i e _ hei
  exact ⟨e, by rw [he, hei], rfl⟩

end Undisturbed

theorem dispatch_undisturbed (h : d.id ≠ id) (r : Registry β) :
    (dispatch d c).Ends (fun _ r' => Undisturbed id r r') r := by
  apply ((dispatch_moves_any r d c).and (dispatch_keepsUnder h r)).mono
  intro o r' hend
  obtain ⟨hm, hkept⟩ := hend
  exact (Undisturbed.of_moves hm fun i e _ he => hkept i e he).after (history_record _ _) rfl
    fun _ hi => hi

theorem next_undisturbed (id : DeviceId) (r : Registry β) :
    next.Ends (fun _ r' => Undisturbed id r r') r := by
  apply next_ends (Q := fun _ r' => Undisturbed id r r')
  · exact fun _ => .refl id r
  · intro mailbox _
    exact (Undisturbed.refl id _).after (history_record _ _) rfl fun _ hi => hi
  · intro d c mailbox _
    let s : Registry β := { r with mailbox }.record (.taken (.change d c))
    by_cases hid : d.id = id
    · -- The message is what was excluded.
      apply (dispatch_moves_any s d c).mono
      intro o r' hm
      obtain ⟨xs, hxs⟩ := hm.news
      refine ⟨[.taken (.change d c), .dispatched d c] ++ xs, ?_, hm.spares.size_le,
        hm.spares.listed, ?_⟩
      · rw [← hxs, history_record, history_record]
        simp
      · exact fun hnone => absurd hid (hnone d c (by simp))
    · apply (dispatch_undisturbed hid s).mono
      intro o r' h
      exact h.after (history_record _ _) rfl fun _ hi => hi

theorem sweep_undisturbed (id : DeviceId) (r : Registry β) :
    sweep.Ends (fun _ r' => Undisturbed id r r') r := by
  apply (sweep_moves (p := fun i => i ∈ r.places (·.flagged) ∨ r.entries.size ≤ i)
    (fun _ => .inr) (fun _ => .inl) (Nat.le_refl _)).mono
  intro o r' hm
  have hkept : Undisturbed id r.startSweep r' := by
    apply Undisturbed.of_moves hm
    intro i e hi he
    have hlt := lt_size_of_getElem? he
    -- Only those that were taken off the list are called, and what callbacks make.
    have hcalled : ¬ (i ∈ r.places (·.flagged) ∨ r.entries.size ≤ i) := by
      intro hp
      obtain hp | hp := hp
      · exact not_listed_startSweep hp (hm.spares.listed i hi hlt)
      · rw [entries_startSweep] at hlt
        omega
    obtain ⟨b, he', -⟩ := hm.spares.spared i e hcalled he
    exact ⟨_, he', rfl⟩
  -- Starting the sweep takes the flagged ones off the list and changes no registration.
  refine hkept.after (history_startSweep r) (entries_startSweep r) ?_
  intro i hi
  rw [listed_startSweep, Array.mem_filter] at hi
  exact hi.1

/-- A turn disturbs nothing but records under the id of a change that it dispatches. -/
theorem turn_undisturbed (t : Turn β) (ht : ∀ d c, t = .dispatch d c → d.id ≠ id) (r : Registry β) :
    t.walk.Ends (fun _ r' => Undisturbed id r r') r := by
  apply turn_ends t (Q := fun _ r' => Undisturbed id r r')
  · intro g _
    apply (register_moves (p := (r.entries.size ≤ ·)) (fun _ hj => hj) g (Nat.le_refl _)).mono
    intro o r' hm
    exact .of_moves hm fun i e _ he => KeepsUnder.of_moves hm i e he
  · intro a _
    have hm : Moves (r.entries.size ≤ ·) r (r.perform a).2 := (Move.perform r a).moves
    exact .of_moves hm fun i e _ he => KeepsUnder.of_moves hm i e he
  · exact fun d c hd => dispatch_undisturbed (ht d c hd) r
  · exact fun _ => next_undisturbed id r
  · exact fun _ => sweep_undisturbed id r

theorem operation_undisturbed (o : Operation β) (ho : ∀ d c, o = .dispatch d c → d.id ≠ id)
    (r : Registry β) : Undisturbed id r (r.after o) := by
  have hkeeps : o.walk.Ends (fun _ r' => Undisturbed id r r') r := by
    apply operation_keeps (P := fun _ r' => Undisturbed id r r') o
    · intro t ht s hs
      apply (turn_undisturbed t ?_ s).mono
      · exact fun _ _ hnext => hs.trans hnext
      · intro d c hd
        subst hd
        exact ho d c (Operation.eq_of_takes_dispatch ht)
    · exact .refl id r
  exact hkeeps.of_left

/-- An operation changes the records of a registration that is held before and after it only under
    ids of changes that it dispatches. Registering changes no record of a registration that was
    there before, and dispatching changes none under another id. -/
theorem records_framed (r : Registry β) :
    (∀ o : Operation β, ∃ hs, (r.after o).history.toList = r.history.toList ++ hs ∧
      ∀ id, (∀ d c, o.Dispatched hs d c → d.id ≠ id) →
        ∀ (i : Nat) (e : Entry β), i ∈ r.listed → i ∈ (r.after o).listed →
          r.entries[i]? = some e →
          ∃ e', (r.after o).entries[i]? = some e' ∧ e'.recorded? id = e.recorded? id) ∧
    (∀ g : Registration β, (register g).Ends (fun _ r' => ∀ (i : Nat) (e : Entry β),
      r.entries[i]? = some e → ∃ e', r'.entries[i]? = some e' ∧ e'.attached = e.attached) r) ∧
    ∀ d c, (dispatch d c).Ends (fun _ r' => ∀ id, d.id ≠ id → KeepsUnder id r r') r := by
  refine ⟨?_, ?_, ?_⟩
  · intro o
    obtain ⟨hs, hh⟩ := (afterAll_steps r [o]).news
    refine ⟨hs, hh.symm, ?_⟩
    intro id hid i e _ hi he
    have hsame : Undisturbed id r (r.after o) :=
      operation_undisturbed o (fun d c ho => hid d c (.inl ho)) r
    obtain ⟨hs', hh', -, -, hkept⟩ := hsame
    obtain rfl : hs = hs' := List.append_cancel_left (hh.trans hh')
    exact hkept (fun d c hm => hid d c (.inr hm)) i e hi he
  · intro g
    apply (register_moves (p := (r.entries.size ≤ ·)) (fun _ hj => hj) g (Nat.le_refl _)).mono
    intro _ r' hm i e he
    have hlt := lt_size_of_getElem? he
    obtain ⟨b, he', -⟩ := hm.spares.spared i e (by omega) he
    exact ⟨_, he', rfl⟩
  · intro d c
    apply (ends_left (dispatch d c) r).mono
    intro _ r' hr' id hid
    rw [hr']
    exact (dispatch_keepsUnder hid r).of_left

end Registry

end PlugWatch
