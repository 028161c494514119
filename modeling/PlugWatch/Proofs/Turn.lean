import PlugWatch.Proofs.Delivery

/-! # Turns

  A **turn** is a part of an operation that starts and ends with no call under way: a registration
  is made, an action is carried out, a change is dispatched, a message is taken and acted on, or
  the flagged registrations are swept. Every operation is a series of turns, and a panic ends both
  the turn and the operation. What sessions keep is therefore proved for single turns.

  A session is **calm** if no callback panics in it. Statements about calm sessions are made of
  two properties, one for the time before the first panic and a weaker one for the time after.
-/

namespace PlugWatch

open Registry Walk

variable {β : Type} [Bus β]

/-- A registration whose callbacks do nothing. -/
def Registration.listener (filter : Filter) : Registration β where
  filter
  provided := .both
  onArrived _ _ := .finish .keep
  onLeft _ _ := .finish .keep

/-- A part of an operation that starts and ends with no call under way. -/
inductive Turn (β : Type) [Bus β] where
  | register (registration : Registration β)
  | act (action : Action β)
  | dispatch (device : Device) (change : Change)
  /-- Takes a message, if there is one, and acts on it. -/
  | next
  | sweep

/-- Takes the oldest message and acts on it. -/
def Registry.next : Walk β Unit := do
  match ← take? with
  | none => return ()
  | some m => process m

/-- What a turn does; its answer is dropped. -/
def Turn.walk : Turn β → Walk β Unit
  | .register g => discard (Registry.register g)
  | .act a => discard (modifyGet (·.perform a))
  | .dispatch d c => discard (Registry.dispatch d c)
  | .next => Registry.next
  | .sweep => discard Registry.sweep

/-- Whether a turn may occur in an operation. -/
def Operation.Takes : Operation β → Turn β → Prop
  | .register g, t => t = .register g
  | .act a, t => t = .act a
  | .dispatch d c, t => t = .dispatch d c
  | .handlePending, t => t = .next ∨ t = .sweep
  | .handleEvents, t => t = .next ∨ t = .sweep
  | .sweep, t => t = .sweep

/-- A dispatch occurs only in itself. -/
theorem Operation.eq_of_takes_dispatch {o : Operation β} {d : Device} {c : Change}
    (h : o.Takes (.dispatch d c)) : o = .dispatch d c := by
  cases o with
  | dispatch d' c' =>
    cases h
    rfl
  | register g => cases h
  | act a => cases h
  | sweep => cases h
  | handlePending => rcases h with h | h <;> cases h
  | handleEvents => rcases h with h | h <;> cases h

namespace Registry

/-! ## Operations -/

section Keeps

variable {P Q : Bool → Registry β → Prop} {r : Registry β}

/-- Dropping the answer does not change whether there is one. -/
theorem ends_discard_isSome {α : Type} {w : Walk β α} :
    Ends (discard w) (fun o => P o.isSome) r ↔ w.Ends (fun o => P o.isSome) r := by
  rw [ends_discard]
  constructor <;> intro h <;> refine h.mono fun o r' hq => ?_ <;> cases o <;> exact hq

section Pass

/- A pass acts on messages, which keeps one property, and then sweeps, which leads to another. -/
variable (hnext : ∀ {r : Registry β}, P true r → next.Ends (fun o => P o.isSome) r)
  (hhalt : ∀ {r : Registry β}, P false r → Q false r)
  (hsweep : ∀ {r : Registry β}, P true r → sweep.Ends (fun o => Q o.isSome) r)

include hnext

theorem processUpTo_keeps (n : Nat) (hr : P true r) :
    (processUpTo n).Ends (fun o => P o.isSome) r := by
  induction n generalizing r with
  | zero => exact hr
  | succ n ih =>
    have hn := hnext hr
    -- A message is taken and acted on as in a turn, but the count goes on.
    unfold next at hn
    rw [ends_bind] at hn
    rw [processUpTo, ends_bind]
    apply hn.mono
    intro o r' hq
    match o with
    | none => exact hq
    | some none => exact hq
    | some (some m) =>
      have hm : (process m).Ends (fun o => P o.isSome) r' := hq
      rw [before_some, ends_bind]
      apply hm.mono
      intro o s hs
      cases o with
      | none => exact hs
      | some _ =>
        rw [before_some, ends_bind]
        apply (ih hs).mono
        intro o s' hs'
        cases o <;> exact hs'

include hhalt hsweep

theorem handlePending_ends (hr : P true r) : handlePending.Ends (fun o => Q o.isSome) r := by
  unfold handlePending
  rw [ends_bind, ends_get, before_some, ends_bind]
  apply (processUpTo_keeps hnext _ hr).mono
  intro o r' hq
  cases o with
  | none => exact hhalt hq
  | some _ =>
    rw [before_some, ends_bind, ends_discard]
    apply (hsweep hq).mono
    intro o s hs
    cases o <;> exact hs

theorem handleEvents_ends (hidle : r.mailbox.take? = none → Q true r) (hr : P true r) :
    handleEvents.Ends (fun o => Q o.isSome) r := by
  have h := hnext hr
  unfold next take? at h
  rw [ends_bind, ends_modifyGet] at h
  unfold handleEvents take?
  rw [ends_bind, ends_modifyGet]
  cases hm : r.mailbox.take? with
  | none => exact hidle hm
  | some x =>
    rw [hm] at h
    have hx : (process x.1).Ends (fun o => P o.isSome)
        ({ r with mailbox := x.2 }.record (.taken x.1)) := h
    rw [before_some, ends_bind]
    apply hx.mono
    intro o r' hq
    cases o with
    | none => exact hhalt hq
    | some _ =>
      rw [before_some, ends_bind]
      apply (handlePending_ends hnext hhalt hsweep hq).mono
      intro o s hs
      cases o <;> exact hs

end Pass

/-- The rule for an operation. -/
theorem operation_ends (o : Operation β)
    (register : ∀ g, o = .register g → (register g).Ends (fun x => P x.isSome) r)
    (act : ∀ a, o = .act a → P true (r.perform a).2)
    (dispatched : ∀ d c, o = .dispatch d c → (dispatch d c).Ends (fun x => P x.isSome) r)
    (pending : o = .handlePending → handlePending.Ends (fun x => P x.isSome) r)
    (events : o = .handleEvents → handleEvents.Ends (fun x => P x.isSome) r)
    (sweep : o = .sweep → sweep.Ends (fun x => P x.isSome) r) :
    o.walk.Ends (fun x => P x.isSome) r := by
  cases o with
  | register g => exact ends_discard_isSome.mpr (register g rfl)
  | act a => exact act a rfl
  | dispatch d c => exact ends_discard_isSome.mpr (dispatched d c rfl)
  | handlePending => exact ends_discard_isSome.mpr (pending rfl)
  | handleEvents => exact ends_discard_isSome.mpr (events rfl)
  | sweep => exact ends_discard_isSome.mpr (sweep rfl)

/-- What every turn of an operation keeps, the operation keeps. -/
theorem operation_keeps (o : Operation β)
    (h : ∀ t, o.Takes t → ∀ {r : Registry β}, P true r → t.walk.Ends (fun o => P o.isSome) r)
    (hr : P true r) : o.walk.Ends (fun o => P o.isSome) r := by
  cases o with
  | register g => exact h (.register g) rfl hr
  | act a => exact h (.act a) rfl hr
  | dispatch d c => exact h (.dispatch d c) rfl hr
  | sweep => exact h .sweep rfl hr
  | handlePending =>
    -- All messages are acted on before the sweep, so both turns keep the same property.
    have hs {r : Registry β} (hp : P true r) := ends_discard_isSome.mp (h .sweep (.inr rfl) hp)
    exact ends_discard_isSome.mpr (handlePending_ends (h .next (.inl rfl)) id hs hr)
  | handleEvents =>
    have hs {r : Registry β} (hp : P true r) := ends_discard_isSome.mp (h .sweep (.inr rfl) hp)
    exact ends_discard_isSome.mpr
      (handleEvents_ends (h .next (.inl rfl)) id hs (fun _ => hr) hr)

end Keeps

/-! ## Sessions -/

/-- Whether a walk ends with an answer. -/
def completes {α : Type} (walk : Walk β α) (r : Registry β) : Bool :=
  match walk.run r with
  | .ok _ _ => true
  | .error _ _ => false

/-- Whether no callback panics in a session. -/
def calm (r : Registry β) : List (Operation β) → Bool
  | [] => true
  | o :: os => completes o.walk r && (r.after o).calm os

/-- What is true of every end is true of the end. -/
theorem ends_iff_left {α : Type} {w : Walk β α} {P : Bool → Registry β → Prop} {r : Registry β} :
    w.Ends (fun o => P o.isSome) r ↔ P (completes w r) (left w r) := by
  unfold Ends completes left
  cases w.run r <;> rfl

/-- What every operation of a session keeps, the session keeps. The flag tells whether no callback
    has panicked so far. -/
theorem session_keeps {P : Bool → Registry β → Prop} (os : List (Operation β))
    (h : ∀ o ∈ os, ∀ {b r}, P b r → o.walk.Ends (fun x => P (b && x.isSome)) r)
    {b : Bool} {r : Registry β} (hr : P b r) : P (b && r.calm os) (r.afterAll os) := by
  induction os generalizing b r with
  | nil =>
    rw [calm, Bool.and_true]
    exact hr
  | cons o os ih =>
    -- The flag tells of the operations so far, so it grows by one operation at a time.
    have hnext := ends_iff_left (P := fun c => P (b && c)).mp (h o (by simp) hr)
    have hrest := ih (fun o' ho' => h o' (by simp [ho'])) hnext
    rw [Bool.and_assoc] at hrest
    exact hrest

/-- What every turn of a session keeps, the session keeps. -/
theorem afterAll_keeps {P : Bool → Registry β → Prop} (os : List (Operation β))
    (h : ∀ o ∈ os, ∀ t, o.Takes t → ∀ {b r}, P b r → t.walk.Ends (fun o => P (b && o.isSome)) r)
    {b : Bool} {r : Registry β} (hr : P b r) : P (b && r.calm os) (r.afterAll os) := by
  apply session_keeps os _ hr
  intro o ho b r hr
  apply operation_keeps (P := fun c => P (b && c)) o
  · intro t ht s hs
    rw [Bool.and_true] at hs
    exact h o ho t ht hs
  · simpa using hr

/-! ## Answers -/

section Answers

variable {α γ : Type} {w : Walk β α} {f : α → Walk β γ} {r : Registry β} {x : α}

/-- The answer of a walk, if no callback panics. -/
def answer? (w : Walk β α) (r : Registry β) : Option α :=
  match w.run r with
  | .ok x _ => some x
  | .error _ _ => none

theorem completes_eq (w : Walk β α) (r : Registry β) : completes w r = (answer? w r).isSome := by
  unfold completes answer?
  cases w.run r <;> rfl

/-- What is true of every end is true of the answer and of the registry left. -/
theorem ends_iff_answer? {Q : Option α → Registry β → Prop} :
    w.Ends Q r ↔ Q (answer? w r) (left w r) := by
  unfold Walk.Ends answer? left
  cases w.run r <;> rfl

theorem run_of_answer? (h : answer? w r = some x) : w.run r = .ok x (left w r) := by
  unfold answer? at h
  unfold left
  cases hw : w.run r with
  | ok y s =>
    rw [hw] at h
    cases h
    rfl
  | error p s =>
    rw [hw] at h
    cases h

theorem answer?_discard (w : Walk β α) (r : Registry β) :
    answer? (discard w) r = (answer? w r).map fun _ => PUnit.unit := by
  have hends : Ends (discard w) (fun o _ => o = (answer? w r).map fun _ => PUnit.unit) r := by
    rw [ends_discard, ends_iff_answer?]
  exact ends_iff_answer?.mp hends

theorem run_of_answer?_none (h : answer? w r = none) :
    w.run r = .error .unwound (left w r) := by
  unfold answer? at h
  unfold left
  cases hw : w.run r with
  | ok x s =>
    rw [hw] at h
    cases h
  | error p s => rfl

theorem answer?_of_error {panic : Panic} {s : Registry β} (h : w.run r = .error panic s) :
    answer? w r = none ∧ left w r = s := by
  unfold answer? left
  rw [h]
  exact ⟨rfl, rfl⟩

theorem left_bind_of_some (h : answer? w r = some x) :
    left (w >>= f) r = left (f x) (left w r) := by
  rw [left, EStateM.run_bind, run_of_answer? h]
  rfl

theorem answer?_bind_of_some (h : answer? w r = some x) :
    answer? (w >>= f) r = answer? (f x) (left w r) := by
  rw [answer?, EStateM.run_bind, run_of_answer? h]
  rfl

/-- What follows a panic is not done. -/
theorem bind_of_none (h : answer? w r = none) :
    left (w >>= f) r = left w r ∧ answer? (w >>= f) r = none := by
  unfold answer? at h ⊢
  unfold left
  rw [EStateM.run_bind]
  cases hw : w.run r with
  | ok y s =>
    rw [hw] at h
    cases h
  | error p s => exact ⟨rfl, rfl⟩

end Answers

/-! ## Messages -/

/-- The rule for a message taken and acted on. -/
theorem next_ends {Q : Bool → Registry β → Prop} {r : Registry β}
    (idle : r.mailbox.take? = none → Q true r)
    (woken : ∀ mailbox, r.mailbox.take? = some (.wakeup, mailbox) →
      Q true ({ r with mailbox }.record (.taken .wakeup)))
    (change : ∀ d c mailbox, r.mailbox.take? = some (.change d c, mailbox) →
      (dispatch d c).Ends (fun o => Q o.isSome)
        ({ r with mailbox }.record (.taken (.change d c)))) :
    next.Ends (fun o => Q o.isSome) r := by
  unfold next take?
  simp only [ends_bind, ends_modifyGet]
  cases hm : r.mailbox.take? with
  | none => exact idle hm
  | some x =>
    obtain ⟨m, mailbox⟩ := x
    cases m with
    | wakeup => exact woken mailbox hm
    | change d c =>
      simp only [before_some, process, ends_discard]
      apply (change d c mailbox hm).mono
      intro o r' hq
      cases o <;> exact hq

/-- The rule for a turn. -/
theorem turn_ends {Q : Bool → Registry β → Prop} {r : Registry β} (t : Turn β)
    (register : ∀ g, t = .register g → (register g).Ends (fun o => Q o.isSome) r)
    (act : ∀ a, t = .act a → Q true (r.perform a).2)
    (dispatched : ∀ d c, t = .dispatch d c → (dispatch d c).Ends (fun o => Q o.isSome) r)
    (next : t = .next → next.Ends (fun o => Q o.isSome) r)
    (sweep : t = .sweep → sweep.Ends (fun o => Q o.isSome) r) :
    t.walk.Ends (fun o => Q o.isSome) r := by
  cases t with
  | register g => exact ends_discard_isSome.mpr (register g rfl)
  | act a => exact ends_discard_isSome.mpr (act a rfl)
  | dispatch d c => exact ends_discard_isSome.mpr (dispatched d c rfl)
  | next => exact next rfl
  | sweep => exact ends_discard_isSome.mpr (sweep rfl)

end Registry

end PlugWatch
