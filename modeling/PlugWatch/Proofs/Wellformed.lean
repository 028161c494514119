import PlugWatch.Proofs.Attached
import PlugWatch.Proofs.Lifecycle

/-! # Registrations are well formed

  A registration is **well formed** if its filter is valid, it has a callback for every change that
  it asks for, and the devices that it has are of different ids and are accepted by its filter. The
  first two are checked when it is made. The others are checked when an arrival is offered, but the
  device is recorded only after the callback has returned: in between the callback may do whatever
  callbacks can. What carries the check over that time is that a registration still **expects** the
  device of which its engaged callback was told.
-/

namespace PlugWatch

/-! ## Well-formed entries -/

/-- A registration that passed validation and has only devices that it was meant to have. -/
structure Entry.WellFormed {β : Type} [Bus β] (e : Entry β) : Prop where
  valid : e.filter.validate = .ok ()
  provided : ∀ c, e.filter.changes.has c = true → e.provided.has c = true
  /-- At most one device is recorded under an id. -/
  distinct : DistinctIds e.attached
  accepted : ∀ d ∈ e.attached, e.filter.accepts d.descriptor = true

/-- The filter of a valid registration is valid. -/
theorem Registration.validate_of_check {β : Type} [Bus β] {g : Registration β}
    (h : g.check = .ok ()) : g.filter.validate = .ok () := by
  unfold check at h
  cases hv : g.filter.validate with
  | error fault =>
    rw [hv] at h
    cases h
  | ok u => rfl

namespace Entry

variable {β : Type} [Bus β] {e e' : Entry β} {d : Device}

namespace WellFormed

/-- A registration that was just made. -/
theorem of_check (h : e.check = .ok ()) (hnone : e.attached = []) : e.WellFormed where
  valid := Registration.validate_of_check h
  provided := by
    intro c hc
    rw [← ChangeMask.covers_only] at hc
    exact Registration.provided_of_check h hc
  distinct := by
    rw [hnone]
    exact .nil
  accepted := by simp [hnone]

/-- Nothing but devices was given up. -/
theorem of_sublist (h : e.WellFormed) (hreg : e'.toRegistration = e.toRegistration)
    (hsub : e'.attached.Sublist e.attached) : e'.WellFormed where
  valid := by
    rw [hreg]
    exact h.valid
  provided := by
    rw [hreg]
    exact h.provided
  distinct := List.Nodup.sublist (hsub.map _) h.distinct
  accepted := by
    intro d hd
    rw [hreg]
    exact h.accepted d (hsub.subset hd)

/-- A device that was expected may be recorded. -/
theorem attach (h : e.WellFormed) (hx : e.expects d = true) : (e.attach d).WellFormed := by
  obtain ⟨hnew, haccepts⟩ : e.has d.id = false ∧ e.filter.accepts d.descriptor = true := by
    simpa [expects] using hx
  refine ⟨h.valid, h.provided, h.distinct.insertDevice (not_has_iff.mp hnew), ?_⟩
  intro x hxs
  rcases mem_insertDevice.mp hxs with rfl | hxs
  · exact haccepts
  · exact h.accepted x hxs

/-- No change that is asked for lacks its callback. -/
theorem calls_eq (h : e.WellFormed) (c : Change) : e.calls c = e.filter.wants c := by
  unfold calls
  cases hc : e.filter.wants c with
  | false => rfl
  | true =>
    rw [Filter.wants, ChangeMask.covers_only] at hc
    rw [h.provided c hc]
    rfl

end WellFormed

/-- Who has fewer devices expects all that it expected. -/
theorem expects_of_sublist (hreg : e'.toRegistration = e.toRegistration)
    (hsub : e'.attached.Sublist e.attached) (hx : e.expects d = true) : e'.expects d = true := by
  obtain ⟨hnew, haccepts⟩ : e.has d.id = false ∧ e.filter.accepts d.descriptor = true := by
    simpa [expects] using hx
  have hnew' : e'.has d.id = false :=
    not_has_iff.mpr fun x hxs => not_has_iff.mp hnew x (hsub.subset hxs)
  simp [expects, hnew', hreg, haccepts]

end Entry

namespace Registry

open Walk

variable {β : Type} [Bus β] {p : Nat → Prop} {r r' : Registry β} {i : Nat}

/-! ## Places -/

/-- The registration at a place is well formed, and expects the device of which its engaged arrival
    callback was told. -/
structure Tidy (r : Registry β) (i : Nat) : Prop where
  wellFormed : ∀ e : Entry β, r.entries[i]? = some e → e.WellFormed
  awaits : ∀ (e : Entry β) (d : Device), r.entries[i]? = some e → r.Engaged i .arrived d →
    e.calls .arrived = true ∧ e.expects d = true

namespace Tidy

/-- The same registration, with no other devices and no other engaged callback. -/
theorem of_sublist (h : r.Tidy i) {e e' : Entry β} (he : r.entries[i]? = some e)
    (he' : r'.entries[i]? = some e') (hreg : e'.toRegistration = e.toRegistration)
    (hsub : e'.attached.Sublist e.attached)
    (hen : ∀ d, r'.Engaged i .arrived d → r.Engaged i .arrived d) : r'.Tidy i where
  wellFormed a ha := by
    rw [he'] at ha
    cases ha
    exact (h.wellFormed e he).of_sublist hreg hsub
  awaits a d ha hd := by
    rw [he'] at ha
    cases ha
    obtain ⟨hcalls, hx⟩ := h.awaits e d he (hen d hd)
    refine ⟨?_, Entry.expects_of_sublist hreg hsub hx⟩
    rw [Entry.calls, hreg]
    exact hcalls

/-- The same calls. -/
theorem of_calls (h : r.Tidy i) {e e' : Entry β} (he : r.entries[i]? = some e)
    (he' : r'.entries[i]? = some e') (hreg : e'.toRegistration = e.toRegistration)
    (hsub : e'.attached.Sublist e.attached) (hc : r'.calls i = r.calls i) : r'.Tidy i := by
  refine h.of_sublist he he' hreg hsub ?_
  intro d hd
  unfold Engaged at hd ⊢
  rwa [← hc]

/-- A well-formed registration none of whose arrival callbacks is engaged. -/
theorem of_idle {e : Entry β} (he : r.entries[i]? = some e) (hw : e.WellFormed)
    (hen : ∀ d, ¬ r.Engaged i .arrived d) : r.Tidy i where
  wellFormed a ha := by
    rw [he] at ha
    cases ha
    exact hw
  awaits a d _ hd := absurd hd (hen d)

theorem of_absent (hnone : r.entries.size ≤ i) : r.Tidy i := by
  have hget : r.entries[i]? = none := Array.getElem?_eq_none hnone
  constructor
  · intro e he
    rw [hget] at he
    cases he
  · intro e d he
    rw [hget] at he
    cases he

/-- Whoever is spared stays tidy. -/
theorem of_spares (h : r.Tidy i) (hs : Spares p r r') (hi : ¬ p i) (hlt : i < r.entries.size) :
    r'.Tidy i := by
  have he := Array.getElem?_eq_getElem hlt
  obtain ⟨b, he', -⟩ := hs.spared i _ hi he
  exact h.of_calls he he' rfl (List.Sublist.refl _) (hs.calls_eq hi)

end Tidy

/-! ## Steps -/

/-- Every registration is tidy, and nobody was called who is not there. -/
structure Sane (r : Registry β) : Prop where
  tidy : ∀ i, r.Tidy i
  silent : ∀ i, r.entries.size ≤ i → r.calls i = []

/-- Places at which moves make nobody stay empty. -/
theorem Moves.absent (h : Moves p r r') (hi : ¬ p i) (hle : r.entries.size ≤ i) :
    r'.entries.size ≤ i := by
  refine h.keeps (P := fun s => s.entries.size ≤ i) ?_ hle
  intro s s' hm hs
  rcases hm.lists with ⟨hsize, -⟩ | ⟨g, -, hp, rfl⟩
  · omega
  · have hne : s.entries.size ≠ i := fun heq => hi (heq ▸ hp)
    rw [size_enlist]
    omega

theorem Moves.silent (h : Moves p r r') (hr : ∀ i, r.entries.size ≤ i → r.calls i = []) :
    ∀ i, r'.entries.size ≤ i → r'.calls i = [] := by
  refine h.keeps (P := fun s => ∀ i, s.entries.size ≤ i → s.calls i = []) ?_ hr
  intro s s' hm hs i hi
  have hspares := hm.bounded.spares
  have hnot : ¬ (p i ∧ i < s'.entries.size) := by omega
  rw [hspares.calls_eq hnot]
  exact hs i (Nat.le_trans hspares.size_le hi)

/-- A registration stays tidy in its own steps. -/
theorem StepOf.tidy (h : StepOf i r r') (hr : r.Sane) : r'.Tidy i := by
  have ht := hr.tidy i
  have hsame {e : Entry β} : e.attached.Sublist e.attached := List.Sublist.refl _
  cases h with
  | @enlist g hg hi =>
    subst hi
    refine .of_idle (getElem?_enlist r g) (.of_check hg rfl) ?_
    intro d hen
    obtain ⟨cs, hcs⟩ := hen.calls_eq
    rw [calls_enlist, hr.silent _ (Nat.le_refl _)] at hcs
    simp at hcs
  | @tell e d he hf hx hc =>
    have he' := r.getElem?_enter i he .arrived d
    refine ⟨?_, ?_⟩
    · intro a ha
      rw [he'] at ha
      cases ha
      exact (ht.wellFormed e he).of_sublist rfl hsame
    · intro a d' ha hen
      rw [he'] at ha
      cases ha
      -- The callback that is engaged is the one just entered.
      unfold Engaged at hen
      rw [calls_enter, List.getLast?_concat] at hen
      cases hen
      exact ⟨hc, Entry.expects_of_sublist rfl hsame hx⟩
  | @adopt e d he hf hx hc =>
    refine .of_idle (getElem?_update_self r i _ he) ((ht.wellFormed e he).attach hx) ?_
    intro d' hen
    -- Whoever takes devices without a call is never called with one.
    obtain ⟨hcalls, -⟩ := ht.awaits e d' he hen
    rw [hc] at hcalls
    cases hcalls
  | @keep d hlt hen =>
    have he := Array.getElem?_eq_getElem hlt
    obtain ⟨cs, hcs⟩ := hen.calls_eq
    obtain ⟨-, hx⟩ := ht.awaits _ d he hen
    exact .of_idle (r.getElem?_keep i he d) ((ht.wellFormed _ he).attach hx)
      (not_engaged (calls_keep hcs d) (by simp))
  | @drop d hlt hen =>
    have he := Array.getElem?_eq_getElem hlt
    obtain ⟨cs, hcs⟩ := hen.calls_eq
    exact .of_idle (r.getElem?_drop he d) ((ht.wellFormed _ he).of_sublist rfl hsame)
      (not_engaged (calls_drop hcs d) (by simp))
  | @lose e id d he hf hd hc =>
    exact ht.of_calls he (getElem?_update_self r i _ he) rfl List.filter_sublist (calls_update ..)
  | @part e id d he hf hd hc =>
    have hdetached := getElem?_update_self r i (·.detach id) he
    have hw : (e.detach id).WellFormed := (ht.wellFormed e he).of_sublist rfl List.filter_sublist
    exact .of_idle (getElem?_enter _ i hdetached .left d) (hw.of_sublist rfl hsame)
      (not_engaged (calls_enter _ i .left d) (by simp))
  | clear hc =>
    have he := Array.getElem?_eq_getElem hc.1
    exact ht.of_calls he (getElem?_update_self r i _ he) rfl (List.nil_sublist _)
      (calls_update ..)
  | release d hc =>
    have he := Array.getElem?_eq_getElem hc.1
    exact .of_idle (r.getElem?_enter i he .left d) ((ht.wellFormed _ he).of_sublist rfl hsame)
      (not_engaged (calls_enter r i .left d) (by simp))
  | finish v hlt hen =>
    have he := Array.getElem?_eq_getElem hlt
    obtain ⟨cs, hcs⟩ := hen.calls_eq
    exact .of_idle he (ht.wellFormed _ he) (not_engaged (calls_answered hcs .left _ v) (by simp))
  | @rollBack e why he =>
    obtain ⟨l, hh⟩ := r.history_rollBack i e.handle why
    have he' : (r.rollBack i e.handle why).entries[i]? = some { e with flagged := true } :=
      (r.log _ _).getElem?_flag i he
    exact ht.of_calls he he' rfl hsame (calls_of_unspoken hh (by simp [Happening.Unspoken]))
  | beginReplay h ds hlt =>
    have he := Array.getElem?_eq_getElem hlt
    obtain ⟨l, hh⟩ := r.history_beginReplay i h ds
    exact ht.of_calls he he rfl hsame (calls_of_unspoken hh (by simp [Happening.Unspoken]))

/-- Whoever is not called in a series of moves stays tidy. -/
theorem Moves.tidy (h : Moves p r r') (hi : ¬ p i) (hr : r.Tidy i) : r'.Tidy i := by
  by_cases hlt : i < r.entries.size
  · exact hr.of_spares h.spares hi hlt
  · exact .of_absent (h.absent hi (Nat.not_lt.mp hlt))

theorem Step.sane (h : Step r r') (hr : r.Sane) : r'.Sane := by
  cases h with
  | opening ho =>
    obtain ⟨hs, hh, hu⟩ := ho.notes
    have hcalls (i : Nat) : r'.calls i = r.calls i := calls_of_unspoken hh hu
    constructor
    · intro i
      by_cases hlt : i < r.entries.size
      · have he := Array.getElem?_eq_getElem hlt
        exact (hr.tidy i).of_calls he (by rw [ho.entries, he]) rfl (List.Sublist.refl _) (hcalls i)
      · exact .of_absent (by rw [ho.entries]; exact Nat.not_lt.mp hlt)
    · intro i hi
      rw [ho.entries] at hi
      rw [hcalls i, hr.silent i hi]
  | aside hm => exact ⟨fun i => hm.moves.tidy id (hr.tidy i), hm.moves.silent hr.silent⟩
  | @of j _ _ hs =>
    refine ⟨?_, hs.moves.silent hr.silent⟩
    intro i
    by_cases hji : i = j
    · subst hji
      exact hs.tidy hr
    · exact hs.moves.tidy hji (hr.tidy i)

theorem Steps.sane (h : Steps r r') (hr : r.Sane) : r'.Sane :=
  h.keeps Step.sane hr

theorem sane_fresh (b : β) : Sane { bus := b } where
  tidy i := .of_absent (Nat.zero_le i)
  silent _ _ := rfl

/-! ## Sessions -/

/-- At every point of a session, every registration is well formed, held or not, whatever devices
    were dispatched or listed and wherever a callback panicked; so no change that it asks for goes
    untold because there is no callback. -/
theorem entries_wellFormed (b : β) (os : List (Operation β)) :
    Steps { bus := b } (afterAll { bus := b } os) ∧
    ∀ s : Registry β, Steps { bus := b } s → ∀ e : Entry β, e ∈ s.held ∨ e ∈ s.entries →
      e.WellFormed ∧ ∀ c, e.calls c = e.filter.wants c := by
  refine ⟨afterAll_steps _ os, ?_⟩
  intro s hs e he
  have hplace : ∃ i : Nat, s.entries[i]? = some e := by
    rcases he with he | he
    · obtain ⟨i, -, hi⟩ := mem_held.mp he
      exact ⟨i, hi⟩
    · exact Array.mem_iff_getElem?.mp he
  obtain ⟨i, hi⟩ := hplace
  have hw := ((hs.sane (sane_fresh b)).tidy i).wellFormed e hi
  exact ⟨hw, hw.calls_eq⟩

end Registry

end PlugWatch
