import PlugWatch.Proofs.Books
import PlugWatch.Proofs.Course
import PlugWatch.Proofs.Edit

/-! # Messages are neither lost nor repeated

  A message that waits in the mailbox is **withdrawn** at last: it is taken and acted on, or it is
  discarded when the registry is torn down. Between any two states, what was withdrawn and what
  waits at the end is what waited at the start and what was **written** since, in this order. The
  changes written are those announced.

  All that happens to the messages happens by **postings**: a message is written, the oldest is
  taken, or all are discarded. From the **flow** of messages follow:

  * at every point of a session the changes announced are **reconciled** with those withdrawn and
    those that wait;
  * handling what is pending takes as many messages as waited at the start, or fewer;
  * the messages taken then are those that waited at the start, up to the first time that the
    registry is torn down, and never after that.
-/

namespace PlugWatch

/-- The change that an operation dispatches by itself. -/
def Operation.direct? {β : Type} [Bus β] : Operation β → Option (Device × Change)
  | .dispatch d c => some (d, c)
  | _ => none

/-! ## Withdrawals -/

namespace Happening

/-- The messages that leave the mailbox. -/
def withdrawn : Happening → List Message
  | taken m => [m]
  | discarded ms => ms
  | _ => []

/-- Whether a message is taken to be acted on. -/
def takes : Happening → Bool
  | taken _ => true
  | _ => false

/-- Whether something has nothing to do with the messages. -/
def Unposted (h : Happening) : Prop :=
  h.withdrawn = [] ∧ h.announced? = none ∧ ∀ ms, h ≠ discarded ms

end Happening

theorem withdrawn_of_unposted {hs : List Happening} (h : ∀ x ∈ hs, x.Unposted) :
    hs.flatMap Happening.withdrawn = [] :=
  List.flatMap_eq_nil_iff.mpr fun x hx => (h x hx).1

theorem announced_of_unposted {hs : List Happening} (h : ∀ x ∈ hs, x.Unposted) :
    hs.filterMap Happening.announced? = [] :=
  List.filterMap_eq_nil_iff.mpr fun x hx => (h x hx).2.1

/-- Every change that is taken is offered next. -/
def HandedOn (hs : List Happening) : Prop :=
  ∀ xs d c ys, hs = xs ++ .taken (.change d c) :: ys → ∃ zs, ys = .dispatched d c :: zs

theorem HandedOn.append {hs hs' : List Happening} (h : HandedOn hs) (h' : HandedOn hs') :
    HandedOn (hs ++ hs') := by
  intro xs d c ys heq
  rcases Registry.split_append heq with ⟨zs, hzs, rfl⟩ | ⟨zs, hzs, -⟩
  · obtain ⟨ws, rfl⟩ := h xs d c zs hzs
    exact ⟨ws ++ hs', rfl⟩
  · exact h' zs d c ys hzs

theorem handedOn_of_not_mem {hs : List Happening}
    (h : ∀ d c, .taken (.change d c) ∉ hs) : HandedOn hs := by
  intro xs d c ys heq
  exact absurd (by simp [heq]) (h d c)

/-- As long as nothing is discarded, what is withdrawn is what is taken. -/
theorem length_withdrawn {hs : List Happening} (h : ∀ ms, .discarded ms ∉ hs) :
    (hs.flatMap Happening.withdrawn).length = hs.countP Happening.takes := by
  induction hs with
  | nil => rfl
  | cons x hs ih =>
    have ih := ih fun ms hm => h ms (List.mem_cons_of_mem _ hm)
    rw [List.flatMap_cons, List.length_append, ih, List.countP_cons]
    cases x with
    | discarded ms => exact absurd (by simp) (h ms)
    | _ => simp [Happening.withdrawn, Happening.takes, Nat.add_comm]

namespace Mailbox

variable {m m' : Mailbox}

/-- A wakeup is written, or waits already. -/
theorem messages_wake (m : Mailbox) : ∃ ws, m.wake.2.messages = m.messages ++ ws ∧
    ws.filterMap Message.change? = [] := by
  unfold wake
  split
  · exact ⟨[], by simp, rfl⟩
  · split
    · exact ⟨[], by simp, rfl⟩
    · exact ⟨[.wakeup], rfl, rfl⟩

/-- The message taken is the oldest. -/
theorem messages_take? {x : Message} (h : m.take? = some (x, m')) :
    m.messages = x :: m'.messages := by
  unfold take? at h
  split at h
  · cases h
  · next rest hm =>
    cases h
    exact hm
  · next d c rest hm =>
    cases h
    exact hm

/-- There is nothing to take only from an empty mailbox. -/
theorem messages_of_take?_eq_none (h : m.take? = none) : m.messages = [] := by
  unfold take? at h
  split at h
  · next hm => exact hm
  · cases h
  · cases h

end Mailbox

namespace Registry

open Walk

variable {β : Type} [Bus β] {p : Nat → Prop} {r r' r'' : Registry β} {i : Nat}
  {hs hs' : List Happening} {ws ws' : List Message}

/-! ## Postings -/

/-- One thing that happens to the messages, with the note of it. -/
inductive Posting : Registry β → Registry β → Prop where
  /-- What happens has nothing to do with the messages. -/
  | aside {r r' : Registry β} {hs : List Happening} :
      r'.history.toList = r.history.toList ++ hs → (∀ h ∈ hs, h.Unposted) →
      r'.mailbox = r.mailbox → Posting r r'
  /-- A wakeup is written, or waits already. -/
  | wake (r : Registry β) : Posting r r.wake
  /-- A change is written and announced, unless the mailbox is closed. -/
  | notify (r : Registry β) (d : Device) (c : Change) : Posting r (r.notify d c).2
  /-- The oldest message is taken. -/
  | take (r : Registry β) {m : Message} {mailbox : Mailbox} :
      r.mailbox.take? = some (m, mailbox) → Posting r ({ r with mailbox }.record (.taken m))
  /-- Every message is discarded. -/
  | discard (r : Registry β) :
      Posting r ({ r with mailbox := r.mailbox.drain }.record (.discarded r.mailbox.messages))

/-- A series of postings. -/
def Postings : Registry β → Registry β → Prop :=
  Relation.ReflTransGen Posting

theorem Posting.postings (h : Posting r r') : Postings r r' :=
  Relation.ReflTransGen.single h

namespace Postings

theorem refl (r : Registry β) : Postings r r :=
  Relation.ReflTransGen.refl

theorem trans (h : Postings r r') (h' : Postings r' r'') : Postings r r'' :=
  Relation.ReflTransGen.trans h h'

theorem of_notes (hh : r'.history.toList = r.history.toList ++ hs) (hu : ∀ h ∈ hs, h.Unposted)
    (hm : r'.mailbox = r.mailbox) : Postings r r' :=
  (Posting.aside hh hu hm).postings

theorem record (r : Registry β) {h : Happening} (hu : h.Unposted) : Postings r (r.record h) :=
  of_notes (history_record r h) (by simpa using hu) rfl

theorem log (r : Registry β) (level : LogLevel) (message : String) :
    Postings r (r.log level message) :=
  record r ⟨rfl, rfl, by simp⟩

/-- Changing a registration moves no message. -/
theorem update (r : Registry β) (i : Nat) (f : Entry β → Entry β) : Postings r (r.update i f) :=
  of_notes (List.append_nil _).symm (by simp) rfl

theorem flag (r : Registry β) (i : Nat) : Postings r (r.flag i) :=
  (update r i _).trans (record _ ⟨rfl, rfl, by simp⟩)

theorem deregister (r : Registry β) (h : Handle) : Postings r (r.deregister h) := by
  rcases r.deregister_cases h with hr | ⟨level, message, hr⟩ | ⟨i, -, level, message, hr⟩
  · rw [hr]
    exact refl r
  · rw [hr]
    exact log r level message
  · rw [hr]
    exact ((flag r i).trans (log _ _ _)).trans (Posting.wake _).postings

theorem dismiss (r : Registry β) (i : Nat) (id : DeviceId) : Postings r (r.dismiss i id) := by
  rcases r.dismiss_cases i id with ⟨hr, -⟩ | ⟨e, -, -, level, message, hr⟩
  · rw [hr]
    exact refl r
  · rw [hr]
    exact ((flag r i).trans (log _ _ _)).trans (Posting.wake _).postings

theorem deregisterAll (r : Registry β) : Postings r r.deregisterAll.2 := by
  have hdestroy : Postings r ({ r with listed := #[] }.record (.destroyed r.listed.toList)) :=
    of_notes (history_record _ _)
      (by simp [Happening.Unposted, Happening.withdrawn, Happening.announced?]) rfl
  rcases r.deregisterAll_cases with hr | ⟨level, message, hr⟩
  · rw [hr]
    exact hdestroy
  · rw [hr]
    exact hdestroy.trans (log _ _ _)

theorem teardown (r : Registry β) : Postings r r.teardown :=
  (deregisterAll r).trans (Posting.discard _).postings

theorem enumerate (r : Registry β) : Postings r r.enumerate.2 := by
  apply of_notes (history_enumerate r)
  · intro h hm
    obtain ⟨e, -, rfl⟩ := List.mem_map.mp hm
    exact ⟨rfl, rfl, by simp⟩
  · exact mailbox_enumerate r

theorem busCommand (r : Registry β) (c : Bus.Command β) :
    Postings r (r.perform (.bus c)).2 := by
  refine of_notes (history_recordChanges _ _) ?_ (mailbox_busCommand r c)
  intro h hm
  obtain ⟨x, -, rfl⟩ := List.mem_map.mp hm
  exact ⟨rfl, rfl, by simp⟩

theorem perform (r : Registry β) (a : Action β) : Postings r (r.perform a).2 := by
  cases a with
  | deregister h => exact deregister r h
  | isRegistered h => exact refl r
  | attached h => exact refl r
  | count => exact refl r
  | deregisterAll => exact deregisterAll r
  | teardown => exact teardown r
  | notify d c => exact (Posting.notify r d c).postings
  | enumerate => exact enumerate r
  | bus c => exact busCommand r c
  | log e => exact record r ⟨rfl, rfl, by simp⟩
  | print line => exact record r ⟨rfl, rfl, by simp⟩

theorem startSweep (r : Registry β) : Postings r r.startSweep := by
  apply of_notes (history_startSweep r)
  · intro h hm
    obtain ⟨i, -, rfl⟩ := List.mem_map.mp hm
    exact ⟨rfl, rfl, by simp⟩
  · exact mailbox_startSweep r

end Postings

theorem Move.postings (h : Move p r r') : Postings r r' := by
  cases h with
  | enter c d hi hlt => exact (Postings.update r _ _).trans (.record _ ⟨rfl, rfl, by simp⟩)
  | finish d v hi hlt => exact .record r ⟨rfl, rfl, by simp⟩
  | keep d hi hlt => exact (Postings.record r ⟨rfl, rfl, by simp⟩).trans (.update _ _ _)
  | drop d hi hlt => exact (Postings.record r ⟨rfl, rfl, by simp⟩).trans (.dismiss _ _ _)
  | adopt d hi hlt => exact .update r _ _
  | detach id hi hlt => exact .update r _ _
  | clear hi hlt => exact .update r _ _
  | enlist g hg hi =>
    obtain ⟨l, hh⟩ := r.history_enlist g
    apply Postings.of_notes hh _ rfl
    simp [Happening.Unposted, Happening.withdrawn, Happening.announced?]
  | enumerate => exact .enumerate r
  | rollBack why hi he =>
    obtain ⟨l, hh⟩ := r.history_rollBack _ _ why
    apply Postings.of_notes hh _ rfl
    simp [Happening.Unposted, Happening.withdrawn, Happening.announced?]
  | beginReplay h ds hi hlt =>
    exact (Postings.record r ⟨rfl, rfl, by simp⟩).trans (.log _ _ _)
  | log level message => exact .log r level message
  | perform a => exact .perform r a

theorem Moves.postings (h : Moves p r r') : Postings r r' :=
  h.relates Postings.refl Postings.trans Move.postings

theorem Opening.postings (h : Opening r r') : Postings r r' := by
  cases h with
  | dispatched d c => exact .record r ⟨rfl, rfl, by simp⟩
  | woken hm => exact (Posting.take r hm).postings
  | received hm => exact (Posting.take r hm).postings.trans (.record _ ⟨rfl, rfl, by simp⟩)
  | startSweep => exact .startSweep r

theorem Step.postings (h : Step r r') : Postings r r' := by
  rcases h.moves with ho | hm
  · exact ho.postings
  · exact hm.postings

/-- Whatever happens in a session happens to the messages by postings. -/
theorem Steps.postings (h : Steps r r') : Postings r r' :=
  h.keeps (P := Postings r) (fun hs hr => hr.trans hs.postings) (.refl r)

/-! ## The flow of messages -/

/-- What became of the messages between two states. -/
structure Flow (hs : List Happening) (ws : List Message) (r r' : Registry β) : Prop where
  news : r'.history.toList = r.history.toList ++ hs
  /-- What was withdrawn and what waits is what waited and what was written. -/
  conserved : hs.flatMap Happening.withdrawn ++ r'.mailbox.messages = r.mailbox.messages ++ ws
  /-- The changes written are those announced. -/
  written : ws.filterMap Message.change? = hs.filterMap Happening.announced?
  /-- Once anything was discarded, all that waited at the start is withdrawn. -/
  emptied : ∀ xs ms ys, hs = xs ++ .discarded ms :: ys →
    r.mailbox.size ≤ ((xs ++ [.discarded ms]).flatMap Happening.withdrawn).length

namespace Flow

theorem refl (r : Registry β) : Flow [] [] r r where
  news := by simp
  conserved := by simp
  written := rfl
  emptied := by simp

/-- No message is lost between two parts. -/
theorem length_eq (h : Flow hs ws r r') :
    (hs.flatMap Happening.withdrawn).length + r'.mailbox.size = r.mailbox.size + ws.length := by
  have hlen := congrArg List.length h.conserved
  rw [List.length_append, List.length_append] at hlen
  exact hlen

theorem trans (h : Flow hs ws r r') (h' : Flow hs' ws' r' r'') :
    Flow (hs ++ hs') (ws ++ ws') r r'' where
  news := by rw [h'.news, h.news, List.append_assoc]
  conserved := by
    calc (hs ++ hs').flatMap Happening.withdrawn ++ r''.mailbox.messages
        = hs.flatMap Happening.withdrawn ++
            (hs'.flatMap Happening.withdrawn ++ r''.mailbox.messages) := by
          rw [List.flatMap_append, List.append_assoc]
      _ = (hs.flatMap Happening.withdrawn ++ r'.mailbox.messages) ++ ws' := by
          rw [h'.conserved, List.append_assoc]
      _ = r.mailbox.messages ++ (ws ++ ws') := by
          rw [h.conserved, List.append_assoc]
  written := by rw [List.filterMap_append, List.filterMap_append, h.written, h'.written]
  emptied := by
    intro xs ms ys heq
    rcases split_append heq with ⟨zs, hzs, -⟩ | ⟨zs, hzs, rfl⟩
    · exact h.emptied xs ms zs hzs
    · -- The second part withdraws all that the first part left.
      have hrest := h'.emptied zs ms ys hzs
      have hlen := h.length_eq
      rw [List.append_assoc, List.flatMap_append, List.length_append]
      omega

/-- Something that has nothing to do with the messages, though a wakeup may be written. -/
theorem of_unposted (hh : r'.history.toList = r.history.toList ++ hs)
    (hu : ∀ h ∈ hs, h.Unposted) (hm : r'.mailbox.messages = r.mailbox.messages ++ ws)
    (hw : ws.filterMap Message.change? = []) : Flow hs ws r r' where
  news := hh
  conserved := by rw [withdrawn_of_unposted hu, hm, List.nil_append]
  written := by rw [announced_of_unposted hu, hw]
  emptied := by
    intro xs ms ys heq
    have hmem : .discarded ms ∈ hs := by simp [heq]
    exact absurd rfl ((hu _ hmem).2.2 ms)

end Flow

/-- Messages flow from one state to another. -/
def Flows (r r' : Registry β) : Prop :=
  ∃ hs ws, Flow hs ws r r'

namespace Flows

theorem refl (r : Registry β) : Flows r r :=
  ⟨[], [], .refl r⟩

theorem trans (h : Flows r r') (h' : Flows r' r'') : Flows r r'' := by
  obtain ⟨hs, ws, h⟩ := h
  obtain ⟨hs', ws', h'⟩ := h'
  exact ⟨hs ++ hs', ws ++ ws', h.trans h'⟩

/-- The messages that wait stay as they are. -/
theorem of_messages (hh : r'.history.toList = r.history.toList ++ hs) (hu : ∀ h ∈ hs, h.Unposted)
    (hm : r'.mailbox.messages = r.mailbox.messages) : Flows r r' :=
  ⟨hs, [], .of_unposted hh hu (by rw [hm, List.append_nil]) rfl⟩

theorem wake (r : Registry β) : Flows r r.wake := by
  obtain ⟨hs, hh, hlogs⟩ := r.history_wake
  obtain ⟨ws, hm, hw⟩ := r.mailbox.messages_wake
  refine ⟨hs, ws, .of_unposted hh ?_ (by rw [mailbox_wake, hm]) hw⟩
  intro h hmem
  obtain ⟨e, rfl⟩ := hlogs h hmem
  exact ⟨rfl, rfl, by simp⟩

/-- Whoever empties the mailbox notes what was in it. -/
theorem discard {mailbox : Mailbox} (hm : mailbox.messages = []) (r : Registry β) :
    Flows r ({ r with mailbox }.record (.discarded r.mailbox.messages)) := by
  refine ⟨[.discarded r.mailbox.messages], [], ⟨by simp, ?_, rfl, ?_⟩⟩
  · simp [Happening.withdrawn, hm]
  · intro xs ms ys heq
    -- There is one note only.
    cases xs with
    | nil =>
      obtain ⟨hsame, -⟩ := List.cons.inj heq
      cases hsame
      simp [Happening.withdrawn, Mailbox.size]
    | cons x xs =>
      have hnil := (List.cons.inj heq).2
      simp at hnil

theorem notify (r : Registry β) (d : Device) (c : Change) : Flows r (r.notify d c).2 := by
  rcases r.notify_cases d c with ⟨-, hr⟩ | ⟨-, hr⟩
  · rw [hr]
    refine ⟨[.notified d c], [.change d c], ⟨by simp, ?_, rfl, ?_⟩⟩
    · simp [Happening.withdrawn]
    · intro xs ms ys heq
      have hm : Happening.discarded ms ∈ [Happening.notified d c] := by simp [heq]
      simp at hm
  · rw [hr]
    exact refl r

end Flows

/-- Taking the oldest message withdraws it. -/
theorem Flow.taken {m : Message} {mailbox : Mailbox} (h : r.mailbox.take? = some (m, mailbox)) :
    Flow [.taken m] [] r ({ r with mailbox }.record (.taken m)) where
  news := history_record _ _
  conserved := by simp [Happening.withdrawn, Mailbox.messages_take? h]
  written := rfl
  emptied := by
    intro xs ms ys heq
    have hm : Happening.discarded ms ∈ [Happening.taken m] := by simp [heq]
    simp at hm

theorem Posting.flows (h : Posting r r') : Flows r r' := by
  cases h with
  | aside hh hu hm => exact .of_messages hh hu (by rw [hm])
  | wake => exact .wake r
  | notify d c => exact .notify r d c
  | take hm => exact ⟨_, _, .taken hm⟩
  | discard => exact .discard rfl r

theorem Postings.flows (h : Postings r r') : Flows r r' := by
  induction h with
  | refl => exact .refl r
  | tail _ hp ih => exact ih.trans hp.flows

theorem Steps.flows (h : Steps r r') : Flows r r' :=
  h.postings.flows

/-- The end of a registry is its last teardown. -/
theorem Flows.close (r : Registry β) : Flows r r.close := by
  have hclosed : Flows r.teardown r.close :=
    of_messages (List.append_nil _).symm (by simp) rfl
  exact (Postings.teardown r).flows.trans hclosed

/-! ## Balance -/

/-- The changes announced are those withdrawn and those that wait, in order and once each. -/
def Reconciled (r : Registry β) : Prop :=
  (r.history.toList.flatMap Happening.withdrawn ++ r.mailbox.messages).filterMap Message.change? =
    r.history.toList.filterMap Happening.announced?

theorem Flow.reconciled (h : Flow hs ws r r') (hr : r.Reconciled) : r'.Reconciled := by
  unfold Reconciled at *
  rw [h.news, List.flatMap_append, List.append_assoc, h.conserved, ← List.append_assoc,
    List.filterMap_append, hr, h.written, List.filterMap_append]

theorem Flows.reconciled (h : Flows r r') (hr : r.Reconciled) : r'.Reconciled := by
  obtain ⟨hs, ws, h⟩ := h
  exact h.reconciled hr

/-- No message is taken by a move, and nothing is dispatched. -/
theorem Moves.plain (h : Moves p r r') (hh : r'.history.toList = r.history.toList ++ hs) :
    ∀ h ∈ hs, h.takes = false ∧ ∀ d c, h ≠ .dispatched d c := by
  obtain ⟨hs', hh', hw⟩ := h.spares.news
  have heq : hs = hs' := List.append_cancel_left (hh.symm.trans hh')
  subst heq
  intro h hm
  have hin := hw h hm
  cases h with
  | taken m => exact hin.elim
  | dispatched d c => exact hin.elim
  | _ => exact ⟨rfl, by simp⟩

theorem Moves.not_taken (h : Moves p r r') (hh : r'.history.toList = r.history.toList ++ hs)
    (m : Message) : .taken m ∉ hs := by
  intro hm
  have hnot : (Happening.taken m).takes = false := (h.plain hh _ hm).1
  cases hnot

theorem Opening.handedOn (h : Opening r r') (hr : HandedOn r.history.toList) :
    HandedOn r'.history.toList := by
  cases h with
  | dispatched d c =>
    rw [history_record]
    exact hr.append (handedOn_of_not_mem (by simp))
  | woken hm =>
    rw [history_record]
    exact hr.append (handedOn_of_not_mem (by simp))
  | @received d c mailbox hm =>
    rw [history_received]
    apply hr.append
    intro xs d' c' ys heq
    -- The two notes stand next to each other.
    cases xs with
    | nil =>
      obtain ⟨hsame, rfl⟩ := List.cons.inj heq
      cases hsame
      exact ⟨[], rfl⟩
    | cons x xs =>
      have hmem : Happening.taken (.change d' c') ∈ [Happening.dispatched d c] := by
        have hys : [Happening.dispatched d c] = xs ++ .taken (.change d' c') :: ys :=
          (List.cons.inj heq).2
        simp [hys]
      simp at hmem
  | startSweep =>
    rw [history_startSweep]
    exact hr.append (handedOn_of_not_mem (by simp))

theorem Step.handedOn (h : Step r r') (hr : HandedOn r.history.toList) :
    HandedOn r'.history.toList := by
  rcases h.moves with ho | hm
  · exact ho.handedOn hr
  · obtain ⟨hs, hh⟩ := hm.news
    rw [← hh]
    exact hr.append (handedOn_of_not_mem fun d c => hm.not_taken hh.symm _)

/-! ## Dispatches -/

/-- How many times more often a change was dispatched than taken from the mailbox. -/
def surplus (d : Device) (c : Change) (hs : List Happening) : Int :=
  hs.count (.dispatched d c) - hs.count (.taken (.change d c))

section Surplus

variable {d : Device} {c : Change}

theorem surplus_append (hs hs' : List Happening) :
    surplus d c (hs ++ hs') = surplus d c hs + surplus d c hs' := by
  simp only [surplus, List.count_append]
  omega

theorem surplus_of_not_mem (hd : .dispatched d c ∉ hs) (ht : .taken (.change d c) ∉ hs) :
    surplus d c hs = 0 := by
  simp [surplus, List.count_eq_zero_of_not_mem, hd, ht]

theorem surplus_record (r : Registry β) (h : Happening) : surplus d c (r.record h).history.toList =
    surplus d c r.history.toList + surplus d c [h] := by
  rw [history_record, surplus_append]

/-- Moves dispatch nothing and take nothing. -/
theorem Moves.surplus_eq (h : Moves p r r') :
    surplus d c r'.history.toList = surplus d c r.history.toList := by
  obtain ⟨hs, hh⟩ := h.news
  have hnone : surplus d c hs = 0 := by
    apply surplus_of_not_mem
    · intro hm
      exact (h.plain hh.symm _ hm).2 d c rfl
    · exact h.not_taken hh.symm _
  rw [← hh, surplus_append, hnone, Int.add_zero]

theorem dispatch_surplus (d' : Device) (c' : Change) (r : Registry β) : (dispatch d' c').Ends
    (fun _ s => surplus d c s.history.toList =
      surplus d c r.history.toList + surplus d c [.dispatched d' c']) r := by
  apply (dispatch_moves_any r d' c').mono
  intro o s hm
  rw [hm.surplus_eq, surplus_record]

/-- A message that is taken is dispatched once. -/
theorem next_surplus (r : Registry β) :
    next.Ends (fun _ s => surplus d c s.history.toList = surplus d c r.history.toList) r := by
  apply next_ends (Q := fun _ s => surplus d c s.history.toList = surplus d c r.history.toList)
  · intro _
    rfl
  · intro mailbox _
    have hnone : surplus d c [.taken .wakeup] = 0 := surplus_of_not_mem (by simp) (by simp)
    rw [surplus_record, hnone, Int.add_zero]
  · intro d' c' mailbox _
    apply (dispatch_surplus (d := d) (c := c) d' c' _).mono
    intro o s hs
    -- The note that it is taken and the note that it is dispatched make up for each other.
    have hpair : surplus d c [.taken (.change d' c')] + surplus d c [.dispatched d' c'] = 0 := by
      by_cases heq : d' = d ∧ c' = c
      · obtain ⟨rfl, rfl⟩ := heq
        simp [surplus]
      · simp [surplus, heq]
    rw [hs, surplus_record, Int.add_assoc, hpair, Int.add_zero]

theorem surplus_startSweep (r : Registry β) :
    surplus d c r.startSweep.history.toList = surplus d c r.history.toList := by
  have hnone : surplus d c ((r.places (·.flagged)).map Happening.reclaimed) = 0 :=
    surplus_of_not_mem (by simp) (by simp)
  rw [history_startSweep, surplus_append, hnone, Int.add_zero]

/-- What an operation adds to the surplus is the change that it dispatches by itself. -/
theorem operation_surplus (o : Operation β) (r : Registry β) :
    surplus d c (r.after o).history.toList =
      surplus d c r.history.toList + o.direct?.toList.count (d, c) := by
  -- A dispatch from outside counts by itself; all other operations are turns that balance.
  by_cases ho : ∃ d' c', o = .dispatch d' c'
  · obtain ⟨d', c', rfl⟩ := ho
    have hone : surplus d c [.dispatched d' c'] = [(d', c')].count (d, c) := by
      simp [surplus, List.count_singleton]
    show surplus d c (left (discard (dispatch d' c')) r).history.toList = _
    rw [left_discard]
    apply Ends.of_left (P := fun s => surplus d c s.history.toList =
      surplus d c r.history.toList + [(d', c')].count (d, c))
    rw [← hone]
    exact dispatch_surplus d' c' r
  · have hnone : o.direct? = none := by
      cases o with
      | dispatch d' c' => exact absurd ⟨d', c', rfl⟩ ho
      | _ => rfl
    rw [hnone]
    simp only [Option.toList_none, List.count_nil, Int.natCast_zero, Int.add_zero]
    apply Ends.of_left (P := fun s => surplus d c s.history.toList = surplus d c r.history.toList)
    apply operation_keeps (P := fun _ s => surplus d c s.history.toList =
      surplus d c r.history.toList) o _ rfl
    intro t ht s hs
    rw [← hs]
    apply turn_ends t (Q := fun _ s' => surplus d c s'.history.toList =
      surplus d c s.history.toList)
    · intro g _
      exact (register_moves (p := fun _ => True) (fun _ _ => trivial) g (Nat.le_refl _)).mono
        fun _ _ hm => hm.surplus_eq
    · intro a _
      have hm : Move (fun _ => True) s (s.perform a).2 := .perform s a
      exact hm.moves.surplus_eq
    · intro d' c' htd
      subst htd
      exact absurd ⟨d', c', Operation.eq_of_takes_dispatch ht⟩ ho
    · intro _
      exact next_surplus s
    · intro _
      exact (sweep_moves_any s).mono fun _ _ hm => hm.surplus_eq.trans (surplus_startSweep s)

theorem afterAll_surplus (os : List (Operation β)) (r : Registry β) :
    surplus d c (r.afterAll os).history.toList =
      surplus d c r.history.toList + (os.filterMap Operation.direct?).count (d, c) := by
  induction os generalizing r with
  | nil => simp [afterAll]
  | cons o os ih =>
    have hrest : surplus d c ((r.after o).afterAll os).history.toList = _ := ih (r.after o)
    show surplus d c ((r.after o).afterAll os).history.toList = _
    rw [hrest, operation_surplus]
    cases ho : o.direct? with
    | none => simp [ho]
    | some x =>
      simp [ho, List.count_cons]
      omega

end Surplus

/-! ## What is pending -/

/-- No message is taken in a part of a walk that begins with notes and goes on by moves. -/
theorem Moves.flow_after (h : Moves p r' r'') (hh : r'.history.toList = r.history.toList ++ hs)
    (hu : ∀ h ∈ hs, h.Unposted) (hm : r'.mailbox = r.mailbox) :
    ∃ hs ws, Flow hs ws r r'' ∧ hs.countP Happening.takes = 0 := by
  have hnotes : Flow hs [] r r' := .of_unposted hh hu (by rw [hm, List.append_nil]) rfl
  obtain ⟨hs', ws, hflow⟩ := h.postings.flows
  refine ⟨hs ++ hs', [] ++ ws, hnotes.trans hflow, List.countP_eq_zero.mpr ?_⟩
  intro x hx
  rw [Bool.not_eq_true]
  rcases List.mem_append.mp hx with hx | hx
  · obtain ⟨hnone, -⟩ := hu x hx
    cases x with
    | taken m => cases hnone
    | _ => rfl
  · exact (h.plain hflow.news x hx).1

/-- Acting on a message takes no other. -/
theorem process_flow (m : Message) (r : Registry β) : (process m).Ends
    (fun _ s => ∃ hs ws, Flow hs ws r s ∧ hs.countP Happening.takes = 0) r := by
  cases m with
  | wakeup => exact ⟨[], [], .refl r, rfl⟩
  | change d c =>
    unfold process
    rw [ends_discard]
    apply (dispatch_moves_any r d c).mono
    intro o s hm
    have hu : (Happening.dispatched d c).Unposted := ⟨rfl, rfl, by simp⟩
    exact hm.flow_after (history_record r _) (by simpa using hu) rfl

theorem sweep_flow (r : Registry β) : sweep.Ends
    (fun _ s => ∃ hs ws, Flow hs ws r s ∧ hs.countP Happening.takes = 0) r := by
  apply (sweep_moves_any r).mono
  intro o s hm
  apply hm.flow_after (history_startSweep r) _ (mailbox_startSweep r)
  intro h hh
  obtain ⟨i, -, rfl⟩ := List.mem_map.mp hh
  exact ⟨rfl, rfl, by simp⟩

/-- At most so many messages are taken, and fewer only if none is left. -/
theorem processUpTo_flow (n : Nat) (r : Registry β) : (processUpTo n).Ends
    (fun o s => ∃ hs ws, Flow hs ws r s ∧ hs.countP Happening.takes ≤ n ∧
      ∀ k, o = some k → k = hs.countP Happening.takes ∧ (k = n ∨ s.mailbox.messages = [])) r := by
  -- The induction is on the reads that are left. Each takes one message, and acting on it none.
  induction n generalizing r with
  | zero => exact ⟨[], [], .refl r, Nat.le_refl _, fun k hk => by simp_all⟩
  | succ n ih =>
    rw [processUpTo, take?, ends_bind, ends_modifyGet]
    cases hm : r.mailbox.take? with
    | none =>
      have hnil := Mailbox.messages_of_take?_eq_none hm
      exact ⟨[], [], .refl r, Nat.zero_le _, fun k hk => by simp_all⟩
    | some x =>
      obtain ⟨m, mailbox⟩ := x
      have htaken := Flow.taken hm
      simp only [before_some, ends_bind]
      apply (process_flow m _).mono
      intro o s hs
      obtain ⟨hs, ws, hflow, hnone⟩ := hs
      have hone : ([Happening.taken m] ++ hs).countP Happening.takes = 1 := by
        rw [List.countP_append, hnone]
        rfl
      cases o with
      | none => exact ⟨_, _, htaken.trans hflow, by omega, by simp⟩
      | some u =>
        -- The rest takes at most one message less.
        simp only [before_some, ends_bind]
        apply (ih s).mono
        intro o s' hs'
        obtain ⟨hs', ws', hflow', hle, hcount⟩ := hs'
        have hsum : ([Happening.taken m] ++ hs ++ hs').countP Happening.takes =
            ([Happening.taken m] ++ hs).countP Happening.takes + hs'.countP Happening.takes :=
          List.countP_append
        have hall := (htaken.trans hflow).trans hflow'
        cases o with
        | none => exact ⟨_, _, hall, by omega, by simp⟩
        | some k =>
          refine ⟨_, _, hall, by omega, ?_⟩
          intro k' hk'
          obtain ⟨rfl, hdone⟩ := hcount k rfl
          cases hk'
          refine ⟨by omega, ?_⟩
          rcases hdone with hn | hnil
          · exact .inl (by omega)
          · exact .inr hnil

/-- Handling what is pending takes at most as many messages as waited; if it ends with an answer,
    this is the number taken, and all that waited unless something was discarded meanwhile. -/
theorem handlePending_flow (r : Registry β) : handlePending.Ends
    (fun o s => ∃ hs ws, Flow hs ws r s ∧ hs.countP Happening.takes ≤ r.mailbox.size ∧
      ∀ n, o = some n → n = hs.countP Happening.takes ∧
        ((∀ ms, .discarded ms ∉ hs) → n = r.mailbox.size)) r := by
  unfold handlePending
  rw [ends_bind, ends_get, before_some, ends_bind]
  apply (processUpTo_flow r.mailbox.size r).mono
  intro o s hs
  obtain ⟨hs, ws, hflow, hle, hcount⟩ := hs
  cases o with
  | none => exact ⟨hs, ws, hflow, hle, by simp⟩
  | some k =>
    rw [before_some, ends_bind, ends_discard]
    apply (sweep_flow s).mono
    intro o s' hs'
    obtain ⟨hs', ws', hflow', hnone⟩ := hs'
    have hsum : (hs ++ hs').countP Happening.takes = hs.countP Happening.takes := by
      rw [List.countP_append, hnone, Nat.add_zero]
    have hall := hflow.trans hflow'
    cases o with
    | none => exact ⟨_, _, hall, by omega, by simp⟩
    | some u =>
      refine ⟨_, _, hall, by omega, ?_⟩
      intro n hn
      obtain ⟨rfl, hdone⟩ := hcount k rfl
      cases hn
      refine ⟨hsum.symm, ?_⟩
      intro hkept
      rcases hdone with hn | hnil
      · exact hn
      · -- All that waited was withdrawn, and nothing was discarded, so all of it was taken.
        have hlen := hflow.length_eq
        have hempty : s.mailbox.size = 0 := by rw [Mailbox.size, hnil, List.length_nil]
        have htaken := length_withdrawn fun ms (hm : .discarded ms ∈ hs) => hkept ms (by simp [hm])
        omega

/-- The same, of the registry that is left. -/
theorem handlePending_takes (r : Registry β) : ∃ hs ws, Flow hs ws r (left handlePending r) ∧
    hs.countP Happening.takes ≤ r.mailbox.size ∧
    ∀ n s, handlePending.run r = .ok n s → n = hs.countP Happening.takes ∧
      ((∀ ms, .discarded ms ∉ hs) → n = r.mailbox.size) := by
  have h := handlePending_flow r
  unfold Ends at h
  unfold left
  cases hw : handlePending.run r with
  | ok n s =>
    rw [hw] at h
    obtain ⟨hs, ws, hflow, hle, hcount⟩ := h
    refine ⟨hs, ws, hflow, hle, ?_⟩
    intro n' s' heq
    cases heq
    exact hcount n rfl
  | error e s =>
    rw [hw] at h
    obtain ⟨hs, ws, hflow, hle, -⟩ := h
    exact ⟨hs, ws, hflow, hle, by simp⟩

/-! ## Nothing is lost or repeated -/

/-- At every point of a session and after its end, the changes announced are those withdrawn and
    those that wait. Whatever is taken is dispatched, next and once; and handling what is pending
    takes no more than waited. -/
theorem changes_conserved (b : β) (os : List (Operation β)) :
    Steps { bus := b } (afterAll { bus := b } os) ∧
    (∀ s : Registry β, Steps { bus := b } s →
      s.Reconciled ∧ s.close.Reconciled ∧ HandedOn s.history.toList) ∧
    (∀ d c, (afterAll { bus := b } os).history.toList.count (.dispatched d c) =
      (afterAll { bus := b } os).history.toList.count (.taken (.change d c)) +
        (os.filterMap Operation.direct?).count (d, c)) ∧
    ∀ s : Registry β, Steps { bus := b } s → ∃ hs,
      (left handlePending s).history.toList = s.history.toList ++ hs ∧
      hs.countP Happening.takes ≤ s.mailbox.size ∧
      ∀ n s', handlePending.run s = .ok n s' → n = hs.countP Happening.takes ∧
        ((∀ ms, .discarded ms ∉ hs) → n = s.mailbox.size) := by
  have hfresh : Reconciled ({ bus := b } : Registry β) := rfl
  refine ⟨afterAll_steps _ os, ?_, ?_, ?_⟩
  · intro s hs
    have hreconciled := hs.flows.reconciled hfresh
    refine ⟨hreconciled, (Flows.close s).reconciled hreconciled, ?_⟩
    exact hs.keeps (P := fun s => HandedOn s.history.toList) Step.handedOn
      (handedOn_of_not_mem (by simp))
  · intro d c
    have hsurplus := afterAll_surplus (d := d) (c := c) os ({ bus := b } : Registry β)
    have hnone : surplus d c ({ bus := b } : Registry β).history.toList = 0 := rfl
    rw [hnone, surplus] at hsurplus
    omega
  · intro s _
    obtain ⟨hs, ws, hflow, hle, hcount⟩ := handlePending_takes s
    exact ⟨hs, hflow.news, hle, hcount⟩

/-! ## What was written meanwhile -/

/-- The message taken after some happenings is one of those that waited before them. -/
def Waited (r : Registry β) (hs : List Happening) (m : Message) : Prop :=
  r.mailbox.messages[(hs.flatMap Happening.withdrawn).length]? = some m

/-- A message taken is the next one of those that waited and of those written since. -/
theorem Flow.getElem?_taken (h : Flow hs ws r r') {xs ys : List Happening} {m : Message}
    (heq : hs = xs ++ .taken m :: ys) :
    (r.mailbox.messages ++ ws)[(xs.flatMap Happening.withdrawn).length]? = some m := by
  rw [← h.conserved, heq]
  simp [Happening.withdrawn]

/-- If no more is taken than waited, the messages taken are those that waited, up to the first time
    that the mailbox is emptied. -/
theorem Flow.waited_iff (h : Flow hs ws r r')
    (hle : hs.countP Happening.takes ≤ r.mailbox.size) {xs ys : List Happening} {m : Message}
    (heq : hs = xs ++ .taken m :: ys) : r.Waited xs m ↔ ∀ ms, .discarded ms ∉ xs := by
  have hnext := h.getElem?_taken heq
  have hwaited : r.Waited xs m ↔
      (xs.flatMap Happening.withdrawn).length < r.mailbox.messages.length := by
    constructor
    · intro hw
      exact (List.getElem?_eq_some_iff.mp hw).1
    · intro hlt
      rw [List.getElem?_append_left hlt] at hnext
      exact hnext
  rw [hwaited]
  constructor
  -- Positions are compared and not messages, since the same message may be written twice.
  · intro hlt ms hm
    -- Emptying the mailbox withdraws all that waited, and the message comes later.
    obtain ⟨before, after, rfl⟩ := List.append_of_mem hm
    have hsplit : hs = before ++ .discarded ms :: (after ++ .taken m :: ys) := by simp [heq]
    have hall := h.emptied before ms _ hsplit
    have hcut : before ++ .discarded ms :: after = (before ++ [.discarded ms]) ++ after := by simp
    rw [hcut, List.flatMap_append, List.length_append] at hlt
    have hsize : r.mailbox.size = r.mailbox.messages.length := rfl
    omega
  · intro hnone
    rw [length_withdrawn hnone]
    rw [heq, List.countP_append, List.countP_cons] at hle
    have hone : (Happening.taken m).takes = true := rfl
    rw [if_pos hone] at hle
    have hsize : r.mailbox.size = r.mailbox.messages.length := rfl
    omega

/-- No message is taken once the registry was torn down. -/
def StopsAtTeardown (hs : List Happening) : Prop :=
  ∀ xs ms ys, hs = xs ++ .discarded ms :: ys → ∀ m, .taken m ∉ ys

/-- A message is discarded after so many others were withdrawn. -/
def DiscardedAt (hs : List Happening) (n : Nat) (m : Message) : Prop :=
  ∃ xs ms ys k, hs = xs ++ .discarded ms :: ys ∧
    n = (xs.flatMap Happening.withdrawn).length + k ∧ ms[k]? = some m

/-- What is withdrawn is taken or discarded. -/
theorem withdrawn_cases {n : Nat} {m : Message}
    (h : (hs.flatMap Happening.withdrawn)[n]? = some m) :
    (∃ xs ys, hs = xs ++ .taken m :: ys ∧ (xs.flatMap Happening.withdrawn).length = n) ∨
      DiscardedAt hs n m := by
  -- The last happening withdraws it, or it was withdrawn before.
  induction hs using List.reverseRecOn with
  | nil => cases h
  | append_singleton hs x ih =>
    rw [List.flatMap_append, List.flatMap_singleton] at h
    by_cases hlt : n < (hs.flatMap Happening.withdrawn).length
    · rw [List.getElem?_append_left hlt] at h
      rcases ih h with ⟨xs, ys, rfl, hn⟩ | ⟨xs, ms, ys, k, rfl, hn, hk⟩
      · exact .inl ⟨xs, ys ++ [x], by simp, hn⟩
      · exact .inr ⟨xs, ms, ys ++ [x], k, by simp, hn, hk⟩
    · rw [List.getElem?_append_right (Nat.not_lt.mp hlt)] at h
      cases x with
      | taken m' =>
        obtain ⟨hzero, hm⟩ : n - (hs.flatMap Happening.withdrawn).length = 0 ∧ m' = m := by
          simpa [Happening.withdrawn, List.getElem?_singleton] using h
        exact .inl ⟨hs, [], by rw [hm], by omega⟩
      | discarded ms => exact .inr ⟨hs, ms, [], _, rfl, by omega, h⟩
      | _ => cases h

/-- If all messages taken had waited at the start, what was written since is discarded or waits. -/
theorem Flow.discarded_or_waits (h : Flow hs ws r r')
    (hwaited : ∀ xs m ys, hs = xs ++ .taken m :: ys → r.Waited xs m) {k : Nat} {m : Message}
    (hk : ws[k]? = some m) : DiscardedAt hs (r.mailbox.size + k) m ∨
      ∃ j, r.mailbox.size + k = (hs.flatMap Happening.withdrawn).length + j ∧
        r'.mailbox.messages[j]? = some m := by
  have hsize : r.mailbox.size = r.mailbox.messages.length := rfl
  have hstream : (hs.flatMap Happening.withdrawn ++ r'.mailbox.messages)[r.mailbox.size + k]? =
      some m := by
    rw [h.conserved, List.getElem?_append_right (by omega), hsize, Nat.add_sub_cancel_left]
    exact hk
  by_cases hlt : r.mailbox.size + k < (hs.flatMap Happening.withdrawn).length
  · rw [List.getElem?_append_left hlt] at hstream
    rcases withdrawn_cases hstream with ⟨xs, ys, heq, hlen⟩ | hdiscarded
    · -- Had it been taken, it would have waited at the start.
      have hw := hwaited xs m ys heq
      rw [Waited, hlen] at hw
      have hbefore := (List.getElem?_eq_some_iff.mp hw).1
      omega
    · exact .inl hdiscarded
  · rw [List.getElem?_append_right (Nat.not_lt.mp hlt)] at hstream
    exact .inr ⟨_, by omega, hstream⟩

/-- Each message that handling what is pending takes is the next of those that waited and of those
    written by callbacks since. All that it takes had waited exactly if it takes none after the
    registry was torn down, and then what was written meanwhile is discarded or waits. -/
theorem handlePending_waited_iff (r : Registry β) :
    ∃ hs ws, Flow hs ws r (left handlePending r) ∧
      (∀ xs m ys, hs = xs ++ .taken m :: ys →
        (r.mailbox.messages ++ ws)[(xs.flatMap Happening.withdrawn).length]? = some m ∧
          (r.Waited xs m ↔ ∀ ms, .discarded ms ∉ xs)) ∧
      ((∀ xs m ys, hs = xs ++ .taken m :: ys → r.Waited xs m) ↔ StopsAtTeardown hs) ∧
      (StopsAtTeardown hs → ∀ k m, ws[k]? = some m → DiscardedAt hs (r.mailbox.size + k) m ∨
        ∃ j, r.mailbox.size + k = (hs.flatMap Happening.withdrawn).length + j ∧
          (left handlePending r).mailbox.messages[j]? = some m) := by
  obtain ⟨hs, ws, hflow, hle, -⟩ := handlePending_takes r
  have hiff : (∀ xs m ys, hs = xs ++ .taken m :: ys → r.Waited xs m) ↔ StopsAtTeardown hs := by
    constructor
    · intro hall xs ms ys heq m hm
      obtain ⟨before, after, rfl⟩ := List.append_of_mem hm
      have hsplit : hs = (xs ++ .discarded ms :: before) ++ .taken m :: after := by simp [heq]
      have hnone := (hflow.waited_iff hle hsplit).mp (hall _ m after hsplit)
      exact hnone ms (by simp)
    · intro hstops xs m ys heq
      apply (hflow.waited_iff hle heq).mpr
      intro ms hm
      obtain ⟨before, after, rfl⟩ := List.append_of_mem hm
      have hsplit : hs = before ++ .discarded ms :: (after ++ .taken m :: ys) := by simp [heq]
      exact hstops before ms _ hsplit m (by simp)
  refine ⟨hs, ws, hflow, ?_, hiff, ?_⟩
  · intro xs m ys heq
    exact ⟨hflow.getElem?_taken heq, hflow.waited_iff hle heq⟩
  · intro hstops k m hk
    exact hflow.discarded_or_waits (hiff.mpr hstops) hk

/-- Two changes wait for a registration that, when it is told of the first, tears the registry down
    and announces a third. -/
def renewal : List (Operation MemoryBus) :=
  let g : Registration MemoryBus :=
    { Registration.listener {} with
      onArrived _ _ := .act .teardown fun _ =>
        .act (.notify (MemoryBus.sample 3) .arrived) fun _ => .finish .keep }
  [.register g, .act (.notify (MemoryBus.sample 1) .arrived),
    .act (.notify (MemoryBus.sample 2) .arrived)]

/-- Handling what is pending does not always leave to the next time what its callbacks wrote. -/
theorem handlePending_not_always_waited :
    ¬ ∀ (os : List (Operation MemoryBus)) (hs : List Happening),
      (left handlePending (afterAll { bus := {} } os)).history.toList =
        (afterAll { bus := {} } os).history.toList ++ hs →
      ∀ m, .taken m ∈ hs → m ∈ (afterAll { bus := ({} : MemoryBus) } os).mailbox.messages := by
  intro hall
  let m : Message := .change (MemoryBus.sample 3) .arrived
  obtain ⟨hs, ws, hflow, -, -⟩ := handlePending_takes (afterAll { bus := {} } renewal)
  have htaken : .taken m ∈ hs := by
    have hbefore : .taken m ∉ (afterAll { bus := {} } renewal).history.toList := by
      decide +kernel
    have hafter : .taken m ∈
        (left handlePending (afterAll { bus := {} } renewal)).history.toList := by
      decide +kernel
    rw [hflow.news, List.mem_append] at hafter
    exact hafter.resolve_left hbefore
  have hwaits : m ∉ (afterAll { bus := {} } renewal).mailbox.messages := by decide +kernel
  exact hwaits (hall renewal hs hflow.news m htaken)

end Registry

end PlugWatch
