import PlugWatch.Proofs.Deregistration
import PlugWatch.Proofs.Messages

/-! # Wakeups coalesce

  A wakeup asks for a sweep and says nothing else, so one that waits stands for all that are
  written until it is read. The mailbox does not look for it among its messages, but sets a mark
  when the wakeup is written and takes the mark back when the wakeup is read.

  * The mark and the messages never drift apart, in whatever order an open mailbox is **used**: its
    wakeups **coalesce**. To the changes, wakeups make no difference: those read and those that wait
    are those written, in order.
  * What happens to a registry happens to its mailbox by such uses. A teardown is no exception,
    since it reads until nothing is left. The reads are the **withdrawals** that the history notes,
    and the changes written are those announced.
  * Hence wakeups coalesce at every point of a session: between its operations, also after a panic,
    and wherever a callback is entered or returns.
-/

namespace PlugWatch

/-! ## Uses of a mailbox -/

namespace Mailbox

/-- Something that is done to a mailbox. -/
inductive Use where
  /-- A wakeup is written, unless one waits. -/
  | wake
  /-- A change is written. -/
  | post (device : Device) (change : Change)
  /-- The oldest message is read, if there is one. -/
  | read
  deriving DecidableEq, Repr

/-- The change that is written, if one is. -/
def Use.change? : Use → Option (Device × Change)
  | post d c => some (d, c)
  | _ => none

variable {m : Mailbox}

/-- What a use reads, and the mailbox after it. -/
def use (m : Mailbox) : Use → List Message × Mailbox
  | .wake => ([], m.wake.2)
  | .post d c => ([], (m.post d c).2)
  | .read =>
    match m.take? with
    | none => ([], m)
    | some (x, m') => ([x], m')

/-- What several uses read, in order, and the mailbox after them. -/
def useAll (m : Mailbox) : List Use → List Message × Mailbox
  | [] => ([], m)
  | u :: us => ((m.use u).1 ++ ((m.use u).2.useAll us).1, ((m.use u).2.useAll us).2)

theorem useAll_append (m : Mailbox) (us vs : List Use) : m.useAll (us ++ vs) =
    ((m.useAll us).1 ++ ((m.useAll us).2.useAll vs).1, ((m.useAll us).2.useAll vs).2) := by
  induction us generalizing m with
  | nil => simp [useAll]
  | cons u us ih => simp [useAll, ih, List.append_assoc]

theorem useAll_singleton (m : Mailbox) (u : Use) : m.useAll [u] = m.use u := by
  simp [useAll]

/-- Whoever reads as often as there are messages has read all of them, and drained the mailbox. -/
theorem useAll_reads (m : Mailbox) :
    m.useAll (List.replicate m.size .read) = (m.messages, m.drain) := by
  obtain ⟨messages, awaited, closed⟩ := m
  -- Each read takes the oldest message; a wakeup takes the mark along.
  induction messages generalizing awaited with
  | nil => simp [size, useAll, drain]
  | cons x xs ih =>
    have hsize : ({ messages := x :: xs, awaited, closed } : Mailbox).size = xs.length + 1 := rfl
    rw [hsize, List.replicate_succ, useAll]
    cases x with
    | wakeup =>
      have hrest := ih false
      simp only [size] at hrest
      simp [use, take?, hrest, drain]
    | change d c =>
      have hrest := ih awaited
      simp only [size] at hrest
      simp [use, take?, hrest, drain]

/-! ## Coalescing -/

/-- At most one wakeup waits, exactly while the mark is set. Another one is not refused, and it is
    written behind the other messages if none waits. -/
structure Coalesced (m : Mailbox) : Prop where
  once : m.messages.count .wakeup ≤ 1
  marked : .wakeup ∈ m.messages ↔ m.awaited = true
  another : m.wake = (.ok (), { m with
    messages := if .wakeup ∈ m.messages then m.messages else m.messages ++ [.wakeup]
    awaited := true })

theorem Kept.coalesced (h : m.Kept) : m.Coalesced where
  once := by
    rw [h.count]
    exact Bool.toNat_le _
  marked := h.awaited_iff.symm
  another := h.wake_eq

theorem Kept.use (h : m.Kept) (u : Use) : (m.use u).2.Kept := by
  cases u with
  | wake => exact h.wake.1
  | post d c =>
    have hpost : (m.post d c).2 = { m with messages := m.messages ++ [.change d c] } := by
      simp [Mailbox.post, h.opened]
    show (m.post d c).2.Kept
    rw [hpost]
    exact h.post d c
  | read =>
    unfold Mailbox.use
    cases ht : m.take? with
    | none => exact h
    | some x => exact h.take ht

theorem Kept.useAll (h : m.Kept) (us : List Use) : (m.useAll us).2.Kept := by
  induction us generalizing m with
  | nil => exact h
  | cons u us ih => exact ih (h.use u)

/-- A use reads the oldest change or writes one behind the others. -/
theorem Kept.changes_use (h : m.Kept) (u : Use) :
    ((m.use u).1 ++ (m.use u).2.messages).filterMap Message.change? =
      m.messages.filterMap Message.change? ++ u.change?.toList := by
  cases u with
  | wake =>
    obtain ⟨ws, hmessages, hnone⟩ := m.messages_wake
    show m.wake.2.messages.filterMap Message.change? = _
    rw [hmessages, List.filterMap_append, hnone]
    rfl
  | post d c =>
    show (m.post d c).2.messages.filterMap Message.change? = _
    simp [Mailbox.post, h.opened, Message.change?, Use.change?]
  | read =>
    unfold Mailbox.use
    cases ht : m.take? with
    | none => simp [Use.change?]
    | some x => simp [messages_take? ht, Use.change?]

/-- The changes that are read and those that wait in the end are those that waited and those that
    were written, in order and once each. -/
theorem Kept.changes_useAll (h : m.Kept) (us : List Use) :
    ((m.useAll us).1 ++ (m.useAll us).2.messages).filterMap Message.change? =
      m.messages.filterMap Message.change? ++ us.filterMap Use.change? := by
  induction us generalizing m with
  | nil => simp [Mailbox.useAll]
  | cons u us ih =>
    have hrest := ih (h.use u)
    have hwritten : (u :: us).filterMap Use.change? =
        u.change?.toList ++ us.filterMap Use.change? := by
      cases hu : u.change? <;> simp [hu]
    calc ((m.useAll (u :: us)).1 ++ (m.useAll (u :: us)).2.messages).filterMap Message.change?
        = (m.use u).1.filterMap Message.change? ++ (((m.use u).2.useAll us).1 ++
            ((m.use u).2.useAll us).2.messages).filterMap Message.change? := by
          simp [Mailbox.useAll]
      _ = ((m.use u).1 ++ (m.use u).2.messages).filterMap Message.change? ++
            us.filterMap Use.change? := by
          rw [hrest, List.filterMap_append, List.append_assoc]
      _ = m.messages.filterMap Message.change? ++ (u :: us).filterMap Use.change? := by
          rw [h.changes_use, hwritten, List.append_assoc]

/-- Of three wakeups that are written between changes, the first stays in its place. -/
example (d e : Device) :
    (({} : Mailbox).useAll [.wake, .post d .arrived, .wake, .post e .left, .wake]).2 =
      { messages := [.wakeup, .change d .arrived, .change e .left], awaited := true } :=
  rfl

end Mailbox

namespace Registry

variable {β : Type} [Bus β] {r r' r'' : Registry β} {hs hs' : List Happening}
  {us us' : List Mailbox.Use}

/-! ## The mailbox of a registry -/

/-- How the mailbox was used between two states: what was read is noted as withdrawn, and the
    changes written are noted as announced. -/
structure Usage (us : List Mailbox.Use) (hs : List Happening) (r r' : Registry β) : Prop where
  news : r'.history.toList = r.history.toList ++ hs
  used : r.mailbox.useAll us = (hs.flatMap Happening.withdrawn, r'.mailbox)
  written : us.filterMap Mailbox.Use.change? = hs.filterMap Happening.announced?

namespace Usage

theorem refl (r : Registry β) : Usage [] [] r r where
  news := by simp
  used := rfl
  written := rfl

theorem trans (h : Usage us hs r r') (h' : Usage us' hs' r' r'') :
    Usage (us ++ us') (hs ++ hs') r r'' where
  news := by rw [h'.news, h.news, List.append_assoc]
  used := by rw [Mailbox.useAll_append, h.used, h'.used, List.flatMap_append]
  written := by rw [List.filterMap_append, List.filterMap_append, h.written, h'.written]

/-- Notes that have nothing to do with the messages, though a wakeup may be written. -/
theorem of_unposted (hh : r'.history.toList = r.history.toList ++ hs)
    (hu : ∀ h ∈ hs, h.Unposted) (hm : r.mailbox.useAll us = ([], r'.mailbox))
    (hw : us.filterMap Mailbox.Use.change? = []) : Usage us hs r r' where
  news := hh
  used := by rw [hm, withdrawn_of_unposted hu]
  written := by rw [hw, announced_of_unposted hu]

end Usage

theorem Posting.usage (h : Posting r r') : ∃ us hs, Usage us hs r r' := by
  cases h with
  | @aside _ hs hh hu hm =>
    exact ⟨[], hs, .of_unposted hh hu (by rw [hm]; rfl) rfl⟩
  | wake =>
    obtain ⟨hs, hh, hlogs⟩ := r.history_wake
    have hu : ∀ h ∈ hs, h.Unposted := by
      intro h hmem
      obtain ⟨e, rfl⟩ := hlogs h hmem
      exact ⟨rfl, rfl, by simp⟩
    have hused : r.mailbox.useAll [.wake] = ([], r.wake.mailbox) := by
      rw [Mailbox.useAll_singleton, mailbox_wake]
      rfl
    exact ⟨[.wake], hs, .of_unposted hh hu hused rfl⟩
  | notify d c =>
    rcases r.notify_cases d c with ⟨hopen, hr⟩ | ⟨-, hr⟩
    · rw [hr]
      have hused : r.mailbox.useAll [.post d c] =
          ([], { r.mailbox with messages := r.mailbox.messages ++ [.change d c] }) := by
        simp [Mailbox.useAll_singleton, Mailbox.use, Mailbox.post, hopen]
      exact ⟨[.post d c], [.notified d c], history_record _ _, hused, rfl⟩
    · -- A closed mailbox is not used.
      rw [hr]
      exact ⟨[], [], .refl r⟩
  | @take m mailbox ht =>
    have hused : r.mailbox.useAll [.read] = ([m], mailbox) := by
      simp [Mailbox.useAll_singleton, Mailbox.use, ht]
    exact ⟨[.read], [.taken m], history_record _ _, hused, rfl⟩
  | discard =>
    -- Draining is reading until nothing is left.
    refine ⟨List.replicate r.mailbox.size .read, [.discarded r.mailbox.messages],
      history_record _ _, ?_, ?_⟩
    · rw [Mailbox.useAll_reads]
      simp [Happening.withdrawn]
    · simp [Mailbox.Use.change?, Happening.announced?, List.filterMap_replicate]

theorem Postings.usage (h : Postings r r') : ∃ us hs, Usage us hs r r' := by
  induction h with
  | refl => exact ⟨[], [], .refl r⟩
  | tail _ hp ih =>
    obtain ⟨us, hs, husage⟩ := ih
    obtain ⟨us', hs', husage'⟩ := hp.usage
    exact ⟨us ++ us', hs ++ hs', husage.trans husage'⟩

theorem Usage.kept (h : Usage us hs r r') (hr : r.mailbox.Kept) : r'.mailbox.Kept := by
  have hkept := hr.useAll us
  rwa [h.used] at hkept

/-! ## Where callbacks are entered and return -/

/-- Nothing is noted behind a call in the same step. -/
theorem Notes.behind_call {i : Nat} {c : Change} {d : Device} {ys : List Happening}
    (h : Notes r (.called i c d :: ys)) : ys = [] := by
  cases h with
  | unspoken hu => exact absurd rfl ((hu _ (by simp)).1 i c d)
  | called _ => rfl

/-- A session from `r₀` to `r₁` goes from `s` to `t` when something is noted that comes after other
    happenings. -/
structure Crossing (r₀ r₁ : Registry β) (xs : List Happening) (x : Happening)
    (s t : Registry β) : Prop where
  before : Steps r₀ s
  step : Step s t
  after : Steps t r₁
  /-- If it is the return of a callback, the callback returns in the first state. -/
  past : s.history.toList = xs
  noted : xs ++ [x] <+: t.history.toList
  /-- If it is a call, the callback is entered in the second state. -/
  entered : ∀ i c d, x = .called i c d → t.history.toList = xs ++ [x]

/-- Whatever is said in a session is said in one step. -/
theorem Steps.crossing (h : Steps r r') {xs ys : List Happening} {x : Happening}
    (heq : r'.history.toList = xs ++ x :: ys) (hstart : r.history.toList <+: xs)
    (hx : ¬ x.Unspoken) : ∃ s t, Crossing r r' xs x s t := by
  -- It was said in the last step, or in one before.
  induction h generalizing ys with
  | refl =>
    have hle := hstart.length_le
    rw [heq, List.length_append, List.length_cons] at hle
    omega
  | @tail s t hsteps hstep ih =>
    obtain ⟨hs, hh, hnotes⟩ := hstep.notes
    have hsplit : s.history.toList ++ hs = xs ++ x :: ys := by rw [← hh, heq]
    rcases split_append hsplit with ⟨zs, hzs, -⟩ | ⟨zs, hzs, hxs⟩
    · obtain ⟨u, v, hcrossing⟩ := ih hzs
      exact ⟨u, v, { hcrossing with after := hcrossing.after.trans hstep.steps }⟩
    · obtain rfl : zs = [] := hnotes.spoken hzs hx
      have hpast : s.history.toList = xs := by rw [hxs, List.append_nil]
      refine ⟨s, t, hsteps, hstep, .refl t, hpast, ⟨ys, by rw [heq]; simp⟩, ?_⟩
      intro i c d hcalled
      rw [hzs, List.nil_append, hcalled] at hnotes
      rw [heq, hnotes.behind_call]

/-! ## Sessions -/

/-- In whatever order an open mailbox is used, its wakeups coalesce and make no difference to the
    changes. So it is at every point of a session: from each state to a later one the mailbox is
    used and nothing else is done to it, the wakeups coalesce after each use, and callbacks are
    entered and return in such states. -/
theorem wakeups_coalesce (b : β) (os : List (Operation β)) :
    (∀ us : List Mailbox.Use,
      let (read, m) := ({} : Mailbox).useAll us
      m.Coalesced ∧
        (read ++ m.messages).filterMap Message.change? = us.filterMap Mailbox.Use.change?) ∧
    Steps { bus := b } (afterAll { bus := b } os) ∧
    (∀ s : Registry β, Steps { bus := b } s → s.mailbox.Coalesced ∧
      (∀ us, (s.mailbox.useAll us).2.Coalesced) ∧ ∀ t, Steps s t → ∃ us hs, Usage us hs s t) ∧
    ∀ xs x ys, (afterAll { bus := b } os).history.toList = xs ++ x :: ys → ¬ x.Unspoken →
      ∃ s t, Crossing { bus := b } (afterAll { bus := b } os) xs x s t ∧
        s.mailbox.Coalesced ∧ t.mailbox.Coalesced := by
  have hfresh : Mailbox.Kept {} := ⟨rfl, rfl⟩
  have hkept {s : Registry β} (hs : Steps { bus := b } s) : s.mailbox.Kept := by
    obtain ⟨us, hs, husage⟩ := hs.postings.usage
    exact husage.kept hfresh
  have hsteps : Steps { bus := b } (afterAll { bus := b } os) := afterAll_steps _ os
  refine ⟨?_, hsteps, ?_, ?_⟩
  · intro us
    exact ⟨(hfresh.useAll us).coalesced, hfresh.changes_useAll us⟩
  · intro s hs
    have hevery (us : List Mailbox.Use) : (s.mailbox.useAll us).2.Coalesced :=
      ((hkept hs).useAll us).coalesced
    exact ⟨(hkept hs).coalesced, hevery, fun t hst => hst.postings.usage⟩
  · intro xs x ys heq hx
    obtain ⟨s, t, hcrossing⟩ := hsteps.crossing heq (by simp) hx
    have hentered := hcrossing.before.trans hcrossing.step.steps
    exact ⟨s, t, hcrossing, (hkept hcrossing.before).coalesced, (hkept hentered).coalesced⟩

end Registry

end PlugWatch
