import PlugWatch.Bus.Memory
import PlugWatch.Proofs.Places

/-! # No flagged registration is stranded

  A registration that is flagged stays on the list until a sweep. The sweep is asked for by a
  wakeup in the mailbox, and a mark in the mailbox sees to it that one wakeup waits at a time. The
  mark is cleared when the wakeup is taken, before the sweep that it asked for.

  * The mailbox is **kept**: its mark is set exactly while its one wakeup waits. Everything keeps
    it.
  * The registry is **roused**: if a registration that is held is flagged, a wakeup waits. Every
    move keeps this, since whoever flags a registration asks for the sweep, takes the registration
    off the list, or knows that it was flagged before. Taking the wakeup breaks it, and the sweep
    at the end of the pass restores it, whatever was flagged meanwhile.
-/

namespace PlugWatch

/-! ## The mark -/

namespace Mailbox

/-- The mark is set exactly while the one wakeup waits, and the mailbox is open. -/
structure Kept (m : Mailbox) : Prop where
  count : m.messages.count .wakeup = m.awaited.toNat
  opened : m.closed = false

variable {m m' : Mailbox}

/-- Whether a wakeup waits need not be looked for. -/
theorem Kept.awaited_iff (h : m.Kept) : m.awaited = true ↔ .wakeup ∈ m.messages := by
  rw [← List.count_pos_iff, h.count]
  cases m.awaited <;> simp

/-- A wakeup is written unless one waits, and not refused. -/
theorem Kept.wake_eq (h : m.Kept) : m.wake = (.ok (), { m with
    messages := if .wakeup ∈ m.messages then m.messages else m.messages ++ [.wakeup]
    awaited := true }) := by
  unfold Mailbox.wake
  by_cases ha : m.awaited = true
  · have hwaits := h.awaited_iff.mp ha
    rw [if_pos ha, if_pos hwaits, ← ha]
  · have hnone : .wakeup ∉ m.messages := fun hwaits => ha (h.awaited_iff.mpr hwaits)
    rw [if_neg ha, if_neg (by simp [h.opened]), if_neg hnone]

theorem Kept.wake (h : m.Kept) : m.wake.2.Kept ∧ m.wake.2.awaited = true := by
  obtain ⟨hcount, hopen⟩ := h
  unfold Mailbox.wake
  by_cases ha : m.awaited = true
  · -- The wakeup that waits will do.
    rw [if_pos ha]
    exact ⟨⟨hcount, hopen⟩, ha⟩
  · have ha' : m.awaited = false := by simpa using ha
    have hzero : m.messages.count .wakeup = 0 := by
      rw [hcount, ha']
      rfl
    have hopen' : ¬ m.closed = true := by simp [hopen]
    rw [if_neg ha, if_neg hopen']
    refine ⟨⟨?_, hopen⟩, rfl⟩
    show (m.messages ++ [Message.wakeup]).count Message.wakeup = 1
    rw [List.count_append, hzero]
    rfl

theorem Kept.post (h : m.Kept) (d : Device) (c : Change) :
    Kept { m with messages := m.messages ++ [.change d c] } := by
  obtain ⟨hcount, hopen⟩ := h
  constructor
  · show (m.messages ++ [Message.change d c]).count Message.wakeup = m.awaited.toNat
    rw [List.count_append, hcount]
    rfl
  · exact hopen

/-- Draining takes the wakeup, if there is one, and then the mark. -/
theorem Kept.drain (h : m.Kept) : m.drain.Kept := by
  obtain ⟨hcount, hopen⟩ := h
  constructor
  · show 0 = (m.awaited && !m.messages.contains .wakeup).toNat
    by_cases ha : m.awaited = true
    · have hmem : .wakeup ∈ m.messages := by
        apply List.count_pos_iff.mp
        rw [hcount, ha]
        decide
      simp [hmem]
    · simp [ha]
  · exact hopen

theorem Kept.take (h : m.Kept) {x : Message} (ht : m.take? = some (x, m')) : m'.Kept := by
  obtain ⟨hcount, hopen⟩ := h
  unfold take? at ht
  cases hm : m.messages with
  | nil =>
    rw [hm] at ht
    cases ht
  | cons y ms =>
    rw [hm] at ht hcount
    cases y with
    | wakeup =>
      cases ht
      -- The wakeup was the only one.
      have hone : ms.count .wakeup + 1 = m.awaited.toNat := by simpa using hcount
      have hle : m.awaited.toNat ≤ 1 := Bool.toNat_le _
      refine ⟨?_, hopen⟩
      show ms.count .wakeup = 0
      omega
    | change d c =>
      cases ht
      refine ⟨?_, hopen⟩
      show ms.count .wakeup = m.awaited.toNat
      simpa using hcount

/-- While the mark is set, there is something to take. -/
theorem Kept.take?_ne_none (h : m.Kept) (ha : m.awaited = true) : m.take? ≠ none := by
  intro hnone
  have hnil : m.messages = [] := by
    unfold take? at hnone
    split at hnone
    · next hm => exact hm
    · cases hnone
    · cases hnone
  have hcount := h.count
  rw [hnil, ha] at hcount
  cases hcount

end Mailbox

namespace Registry

open Walk

variable {β : Type} [Bus β] {p : Nat → Prop} {r r' : Registry β} {i : Nat}

/-! ## Flags -/

/-- A change that leaves the flag alone. -/
theorem isFlagged_update {j : Nat} {f : Entry β → Entry β}
    (hf : ∀ e, (f e).flagged = e.flagged) (hi : (r.update j f).IsFlagged i) : r.IsFlagged i := by
  obtain ⟨e', he', hfl⟩ := hi
  by_cases hji : j = i
  · subst hji
    cases he : r.entries[j]? with
    | none => simp [update, Array.getElem?_modify, he] at he'
    | some e =>
      rw [getElem?_update_self r j f he] at he'
      cases he'
      rw [hf] at hfl
      exact ⟨e, he, hfl⟩
  · rw [getElem?_update_of_ne r j f hji] at he'
    exact ⟨e', he', hfl⟩

/-- Flagging a registration flags no other. -/
theorem isFlagged_flag {j : Nat} (hji : j ≠ i) (hi : (r.flag j).IsFlagged i) : r.IsFlagged i := by
  obtain ⟨e, he, hf⟩ := hi
  have he' : (r.update j ({ · with flagged := true })).entries[i]? = some e := he
  rw [getElem?_update_of_ne r j _ hji] at he'
  exact ⟨e, he', hf⟩

/-! ## Moves -/

/-- While a flagged registration is held, a wakeup waits. -/
def Roused (r : Registry β) : Prop :=
  ∀ i ∈ r.listed, r.IsFlagged i → r.mailbox.awaited = true

/-- What flags nobody who stays on the list, and takes no wakeup, leaves the registry roused. -/
theorem Roused.of_le (h : r.Roused)
    (hf : ∀ i ∈ r'.listed, r'.IsFlagged i → i ∈ r.listed ∧ r.IsFlagged i)
    (hm : r'.mailbox.awaited = r.mailbox.awaited) : r'.Roused := by
  intro i hi hfl
  obtain ⟨hi', hfl'⟩ := hf i hi hfl
  rw [hm]
  exact h i hi' hfl'

/-- A wakeup that waits is enough. -/
theorem Roused.of_awaited (h : r.mailbox.awaited = true) : r.Roused :=
  fun _ _ _ => h

/-- The mailbox is kept, and the registry is roused if `b`. -/
structure Wakeful (b : Bool) (r : Registry β) : Prop where
  kept : r.mailbox.Kept
  roused : b = true → r.Roused

variable {b : Bool}

namespace Wakeful

/-- The same list, flags and mailbox. -/
theorem of_eq (h : r.Wakeful b) (he : r'.entries = r.entries) (hl : r'.listed = r.listed)
    (hm : r'.mailbox = r.mailbox) : r'.Wakeful b := by
  constructor
  · rw [hm]
    exact h.kept
  · intro hb
    apply (h.roused hb).of_le
    · intro i hi hfl
      obtain ⟨e, hei, hf⟩ := hfl
      rw [hl] at hi
      rw [he] at hei
      exact ⟨hi, e, hei, hf⟩
    · rw [hm]

theorem update (h : r.Wakeful b) (j : Nat) {f : Entry β → Entry β}
    (hf : ∀ e, (f e).flagged = e.flagged) : (r.update j f).Wakeful b where
  kept := h.kept
  roused hb := (h.roused hb).of_le (fun _ hi hfl => ⟨hi, isFlagged_update hf hfl⟩) rfl

theorem wake (h : r.mailbox.Kept) : r.wake.Wakeful b := by
  obtain ⟨hkept, hawaited⟩ := h.wake
  constructor
  · rw [mailbox_wake]
    exact hkept
  · intro _
    apply Roused.of_awaited
    rw [mailbox_wake]
    exact hawaited

theorem deregister (h : r.Wakeful b) (n : Handle) : (r.deregister n).Wakeful b := by
  rcases r.deregister_cases n with hr | ⟨_, _, hr⟩ | ⟨i, _, _, _, hr⟩
  · rw [hr]
    exact h
  · rw [hr]
    exact h.of_eq rfl rfl rfl
  · -- The flag makes a wakeup necessary, and there it is.
    rw [hr]
    exact wake h.kept

theorem dismiss (h : r.Wakeful b) (j : Nat) (id : DeviceId) : (r.dismiss j id).Wakeful b := by
  rcases r.dismiss_cases j id with ⟨hr, -⟩ | ⟨_, _, _, _, _, hr⟩
  · rw [hr]
    exact h
  · rw [hr]
    exact wake h.kept

theorem deregisterAll (h : r.Wakeful b) : r.deregisterAll.2.Wakeful b := by
  constructor
  · rw [mailbox_deregisterAll]
    exact h.kept
  · intro _ i hi
    simp at hi

theorem teardown (h : r.Wakeful b) : r.teardown.Wakeful b := by
  constructor
  · rw [mailbox_teardown]
    exact h.kept.drain
  · intro _ i hi
    simp at hi

theorem notify (h : r.Wakeful b) (d : Device) (c : Change) : (r.notify d c).2.Wakeful b := by
  rcases r.notify_cases d c with ⟨-, hr⟩ | ⟨-, hr⟩
  · rw [hr]
    exact ⟨h.kept.post d c, fun hb => (h.roused hb).of_le (fun _ hi hfl => ⟨hi, hfl⟩) rfl⟩
  · rw [hr]
    exact h

theorem perform (h : r.Wakeful b) (a : Action β) : (r.perform a).2.Wakeful b := by
  cases a with
  | deregister n => exact h.deregister n
  | isRegistered n => exact h
  | attached n => exact h
  | count => exact h
  | deregisterAll => exact h.deregisterAll
  | teardown => exact h.teardown
  | notify d c => exact h.notify d c
  | enumerate =>
    exact h.of_eq (entries_enumerate r) (listed_enumerate r) (mailbox_enumerate r)
  | bus c =>
    exact h.of_eq (entries_busCommand r c) (listed_busCommand r c) (mailbox_busCommand r c)
  | log e => exact h.of_eq rfl rfl rfl
  | print line => exact h.of_eq rfl rfl rfl

/-- A new registration is not flagged. -/
theorem enlist (h : r.Wakeful b) (g : Registration β) : (r.enlist g).Wakeful b where
  kept := h.kept
  roused := by
    intro hb
    apply (h.roused hb).of_le
    · intro i hi hfl
      obtain ⟨e, he, hf⟩ := hfl
      rw [entries_enlist, Array.getElem?_push] at he
      split at he
      · cases he
        cases hf
      · next hne =>
        have hmem : i ∈ r.listed ∨ i = r.entries.size := by simpa [Registry.enlist] using hi
        exact ⟨hmem.resolve_right hne, e, he, hf⟩
    · rfl

/-- The one registration that is flagged without a wakeup goes off the list by its own handle. -/
theorem rollBack (h : r.Wakeful b) {j : Nat} {e : Entry β} (he : r.entries[j]? = some e)
    (why : Failure) : (r.rollBack j e.handle why).Wakeful b where
  kept := h.kept
  roused := by
    intro hb
    apply (h.roused hb).of_le
    · intro i hi hfl
      obtain ⟨hl, hnot⟩ := (mem_listed_rollBack r j e.handle why).mp hi
      have hji : j ≠ i := by
        intro hji
        rw [← hji, satisfies, getElem?_flag r j he] at hnot
        simp [Entry.isNamed] at hnot
      have hfl' : (r.flag j).IsFlagged i := hfl
      exact ⟨hl, isFlagged_flag hji hfl'⟩
    · rfl

end Wakeful

theorem Move.wakeful (h : Move p r r') (hr : r.Wakeful b) : r'.Wakeful b := by
  cases h with
  | @enter i c d hi hlt =>
    have hcount : ∀ e : Entry β, (e.countCall c).flagged = e.flagged := by
      intro e
      cases c <;> rfl
    exact (hr.update i hcount).of_eq rfl rfl rfl
  | finish d v hi hlt => exact hr.of_eq rfl rfl rfl
  | @keep i d hi hlt =>
    have hr' : Wakeful b (r.record (.answered i .arrived d .keep)) := hr.of_eq rfl rfl rfl
    exact hr'.update i fun _ => rfl
  | @drop i d hi hlt =>
    have hr' : Wakeful b (r.record (.answered i .arrived d .deregister)) := hr.of_eq rfl rfl rfl
    exact hr'.dismiss i d.id
  | adopt d hi hlt => exact hr.update _ fun _ => rfl
  | detach id hi hlt => exact hr.update _ fun _ => rfl
  | clear hi hlt => exact hr.update _ fun _ => rfl
  | enlist g hg hi => exact hr.enlist g
  | enumerate => exact hr.perform .enumerate
  | rollBack why hi he => exact hr.rollBack he why
  | beginReplay h ds hi hlt => exact hr.of_eq rfl rfl rfl
  | log level message => exact hr.of_eq rfl rfl rfl
  | perform a => exact hr.perform a

theorem Moves.wakeful (h : Moves p r r') (hr : r.Wakeful b) : r'.Wakeful b :=
  h.keeps Move.wakeful hr

/-! ## Turns -/

theorem Wakeful.weaken (h : r.Wakeful b) (c : Bool) : r.Wakeful (b && c) where
  kept := h.kept
  roused hb := h.roused (Bool.and_eq_true .. ▸ hb).1

theorem Wakeful.of_true (h : r.Wakeful true) : r.Wakeful b where
  kept := h.kept
  roused _ := h.roused rfl

theorem dispatch_wakeful (h : r.Wakeful b) (d : Device) (c : Change) :
    (dispatch d c).Ends (fun _ => Wakeful b) r := by
  apply (dispatch_moves_any r d c).mono
  intro o r' hm
  have hr : (r.record (.dispatched d c)).Wakeful b := h.of_eq rfl rfl rfl
  exact hm.wakeful hr

/-- Right after the flagged registrations are taken off, none is held. -/
theorem startSweep_wakeful (h : r.mailbox.Kept) : r.startSweep.Wakeful b := by
  constructor
  · rw [mailbox_startSweep]
    exact h
  · intro _ i hi hfl
    rw [listed_startSweep] at hi
    obtain ⟨-, hnot⟩ := Array.mem_filter.mp hi
    obtain ⟨e, he, hf⟩ := hfl
    rw [entries_startSweep] at he
    simp [satisfies, he, hf] at hnot

/-- A sweep leaves the registry roused, whatever was before. -/
theorem sweep_wakeful (h : r.mailbox.Kept) : sweep.Ends (fun _ => Wakeful true) r := by
  apply (sweep_moves_any r).mono
  intro o r' hm
  exact hm.wakeful (startSweep_wakeful h)

/-- A message that is taken may be the wakeup. -/
theorem next_kept (h : r.mailbox.Kept) : next.Ends (fun _ r' => r'.mailbox.Kept) r := by
  apply next_ends (Q := fun _ r' => r'.mailbox.Kept)
  · intro _
    exact h
  · intro mailbox ht
    exact h.take ht
  · intro d c mailbox ht
    have hr : Wakeful false ({ r with mailbox }.record (.taken (.change d c))) :=
      ⟨h.take ht, by simp⟩
    exact (dispatch_wakeful hr d c).mono fun _ _ hw => hw.kept

/-- A flag stays while messages are acted on. -/
theorem next_isFlagged (h : r.IsFlagged i) : next.Ends (fun _ r' => r'.IsFlagged i) r := by
  apply next_ends (Q := fun _ r' => r'.IsFlagged i)
  · intro _
    exact h
  · intro _ _
    exact h
  · intro d c mailbox _
    apply (dispatch_moves_any _ d c).mono
    intro o r' hm
    exact hm.spares.isFlagged h

/-- A pass that comes to its end leaves the registry roused. -/
theorem handlePending_wakeful (h : r.mailbox.Kept) :
    handlePending.Ends (fun o => Wakeful o.isSome) r := by
  -- While messages are acted on, the wakeup may be gone and the flagged still held.
  have hr : Wakeful false r := ⟨h, by simp⟩
  apply handlePending_ends (P := fun _ => Wakeful false) _ id _ hr
  · intro s hw
    exact (next_kept hw.kept).mono fun _ _ hk => ⟨hk, by simp⟩
  · intro s hw
    exact (sweep_wakeful hw.kept).mono fun _ _ hs => hs.of_true

/-- So does a pass that starts with waiting, unless there was nothing to wait for. -/
theorem handleEvents_wakeful (h : r.Wakeful b) :
    handleEvents.Ends (fun o => Wakeful (b && o.isSome)) r := by
  have hr : Wakeful false r := ⟨h.kept, by simp⟩
  apply handleEvents_ends (P := fun _ => Wakeful false) (Q := fun c => Wakeful (b && c))
    _ _ _ (fun _ => h.weaken true) hr
  · intro s hw
    exact (next_kept hw.kept).mono fun _ _ hk => ⟨hk, by simp⟩
  · intro s hw
    rw [Bool.and_false]
    exact hw
  · intro s hw
    exact (sweep_wakeful hw.kept).mono fun _ _ hs => hs.of_true

theorem operation_wakeful (h : r.Wakeful b) (o : Operation β) :
    o.walk.Ends (fun x => Wakeful (b && x.isSome)) r := by
  apply operation_ends (P := fun x => Wakeful (b && x)) o
  · intro g _
    apply (register_moves (p := fun _ => True) (fun _ _ => trivial) g (Nat.le_refl _)).mono
    intro x r' hm
    exact (hm.wakeful h).weaken x.isSome
  · intro a _
    exact (h.perform a).weaken true
  · intro d c _
    apply (dispatch_wakeful h d c).mono
    intro x r' hw
    exact hw.weaken x.isSome
  · intro _
    apply (handlePending_wakeful h.kept).mono
    intro x r' hw
    rw [Bool.and_comm]
    exact hw.weaken b
  · intro _
    exact handleEvents_wakeful h
  · intro _
    exact (sweep_wakeful h.kept).mono fun x r' hw => hw.of_true

/-! ## Sessions -/

/-- If no callback panics, the registry is roused between the operations of a session. -/
theorem afterAll_wakeful (bus : β) (os : List (Operation β)) :
    Wakeful (calm { bus } os) (afterAll { bus } os) := by
  have hfresh : Wakeful (β := β) true { bus } := by
    refine ⟨⟨rfl, rfl⟩, ?_⟩
    intro _ i hi
    simp at hi
  have hkeeps := session_keeps (P := Wakeful) os
    (fun o _ _ _ hr => operation_wakeful hr o) hfresh
  rwa [Bool.true_and] at hkeeps

/-- A sweep takes a flagged registration off the list. -/
theorem sweep_not_listed (h : r.IsFlagged i) :
    sweep.Ends (fun o r' => o.isSome = true → i ∉ r'.listed) r := by
  obtain ⟨e, he, hf⟩ := h
  have hlt := lt_size_of_getElem? he
  apply (sweep_moves_any r).mono
  intro o r' hm _ hi
  -- It is off the list when the sweep starts, and nothing is listed again.
  have hstart : i ∈ r.startSweep.listed := hm.spares.listed i hi (by simpa using hlt)
  rw [listed_startSweep] at hstart
  obtain ⟨-, hnot⟩ := Array.mem_filter.mp hstart
  simp [satisfies, he, hf] at hnot

/-- Waiting comes to an end if there is a message. -/
theorem handleEvents_answers (h : r.mailbox.take? ≠ none) :
    handleEvents.Ends (fun o _ => ∀ n, o = some n → n.isSome = true) r := by
  unfold handleEvents take?
  rw [ends_bind, ends_modifyGet]
  cases hm : r.mailbox.take? with
  | none => exact absurd hm h
  | some x =>
    -- Once a message is there, no part of the pass answers that there was none.
    have hany {α : Type} {w : Walk β α} {r : Registry β} : w.Ends (fun _ _ => True) r :=
      ends_of_forall fun _ _ => trivial
    rw [before_some]
    apply hany.bind (fun _ _ n hn => by cases hn)
    intro _ r' _
    apply hany.bind (fun _ _ n hn => by cases hn)
    intro k r'' _ n hn
    cases hn
    rfl

/-- If no callback panicked and a registration that is held is flagged, exactly one wakeup waits,
    so that a pass does not block; and the next pass that comes to its end takes the registration
    off the list. -/
theorem flagged_not_stranded (bus : β) (os : List (Operation β))
    (hcalm : calm { bus } os = true) {i : Nat} {e : Entry β}
    (hi : i ∈ (afterAll { bus } os).listed) (he : (afterAll { bus } os).entries[i]? = some e)
    (hf : e.flagged = true) :
    let r := afterAll { bus } os
    r.mailbox.messages.count .wakeup = 1 ∧
      (∀ n r', handlePending.run r = .ok n r' → i ∉ r'.listed) ∧
      ∀ n r', handleEvents.run r = .ok n r' → n.isSome = true ∧ i ∉ r'.listed := by
  intro r
  have hw : Wakeful true r := by
    have h := afterAll_wakeful bus os
    rwa [hcalm] at h
  have hfl : r.IsFlagged i := ⟨e, he, hf⟩
  have hawaited : r.mailbox.awaited = true := hw.roused rfl i hi hfl
  have hmessage : r.mailbox.take? ≠ none := hw.kept.take?_ne_none hawaited
  refine ⟨?_, ?_, ?_⟩
  · rw [hw.kept.count, hawaited]
    rfl
  · intro n r' hrun
    have hpass : handlePending.Ends (fun o r' => o.isSome = true → i ∉ r'.listed) r :=
      handlePending_ends (P := fun _ r => r.IsFlagged i)
        (Q := fun c r' => c = true → i ∉ r'.listed) next_isFlagged (by simp) sweep_not_listed hfl
    exact hpass.of_ok hrun rfl
  · intro n r' hrun
    refine ⟨(handleEvents_answers hmessage).of_ok hrun n rfl, ?_⟩
    have hpass : handleEvents.Ends (fun o r' => o.isSome = true → i ∉ r'.listed) r :=
      handleEvents_ends (P := fun _ r => r.IsFlagged i)
        (Q := fun c r' => c = true → i ∉ r'.listed) next_isFlagged (by simp) sweep_not_listed
        (fun hnone => absurd hnone hmessage) hfl
    exact hpass.of_ok hrun rfl

/-- Two listeners of which the first, when it is reclaimed by a pass, deregisters the second. -/
def farewell : List (Operation MemoryBus) :=
  let d := MemoryBus.sample 1
  let first : Registration MemoryBus :=
    { Registration.listener {} with
      onLeft _ _ := .act (.deregister ⟨2⟩) fun _ => .finish .keep }
  [.register first, .register (.listener {}), .dispatch d .arrived, .act (.deregister ⟨1⟩),
    .handlePending]

theorem flagged_not_stranded_farewell :
    ∃ e : Entry MemoryBus, calm { bus := ({} : MemoryBus) } farewell = true ∧
      1 ∈ (afterAll { bus := {} } farewell).listed ∧
      (afterAll { bus := {} } farewell).entries[1]? = some e ∧ e.flagged = true ∧
      let r := afterAll { bus := ({} : MemoryBus) } farewell
      r.mailbox.messages.count .wakeup = 1 ∧
        (∀ n r', handlePending.run r = .ok n r' → 1 ∉ r'.listed) ∧
        ∀ n r', handleEvents.run r = .ok n r' → n.isSome = true ∧ 1 ∉ r'.listed := by
  have hcalm : calm { bus := ({} : MemoryBus) } farewell = true := by decide +kernel
  have hlisted : 1 ∈ (afterAll { bus := ({} : MemoryBus) } farewell).listed := by decide +kernel
  have hentry : (afterAll { bus := ({} : MemoryBus) } farewell).entries[1]?.any
      (·.flagged) = true := by decide +kernel
  obtain ⟨e, he, hf⟩ := (Option.any_eq_true ..).mp hentry
  exact ⟨e, hcalm, hlisted, he, hf,
    flagged_not_stranded ({} : MemoryBus) farewell hcalm hlisted he hf⟩

end Registry

end PlugWatch
