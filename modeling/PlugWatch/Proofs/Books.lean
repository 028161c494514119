import PlugWatch.Proofs.Places
import PlugWatch.Proofs.Tracking

/-! # The books of a registry

  Three logs tell what became of the changes of a bus: those that were **made**, those that were
  **announced** to the registry, and those that were **received** by it and acted on. What was
  announced and not received is **waiting** in the mailbox.

  If changes are announced in order, what was received is a beginning of what was made; the rest is
  **outstanding**. A registration **tracks** the bus if it will have the right devices once it hears
  of what is outstanding. No matter what happens in which order, it goes on to track the bus as long
  as it hears of everything that is received.
-/

namespace PlugWatch

open MemoryBus

/-! ## Logs -/

namespace Happening

/-- The change of the bus that is noted, if there is one. -/
def made? : Happening → Option (Device × Change)
  | changed d c => some (d, c)
  | _ => none

/-- The change that is queued, if there is one. -/
def announced? : Happening → Option (Device × Change)
  | notified d c => some (d, c)
  | _ => none

/-- The change that is taken from the mailbox, if there is one. -/
def received? : Happening → Option (Device × Change)
  | taken (.change d c) => some (d, c)
  | _ => none

/-- Whether registrations are destroyed. -/
def destroys : Happening → Bool
  | destroyed _ => true
  | _ => false

/-- Whether something is in none of the three logs. -/
def Unlogged (h : Happening) : Prop :=
  h.made? = none ∧ h.announced? = none ∧ h.received? = none

end Happening

/-- The change that a message carries, if it does. -/
def Message.change? : Message → Option (Device × Change)
  | .wakeup => none
  | .change d c => some (d, c)

/-- The devices of a bus, and what became of its changes. -/
structure Books where
  devices : List Device
  made : List (Device × Change)
  announced : List (Device × Change)
  received : List (Device × Change)
  waiting : List (Device × Change)

namespace Registry

/-- The books as they stand. -/
def books (r : Registry MemoryBus) : Books where
  devices := r.bus.devices
  made := r.history.toList.filterMap Happening.made?
  announced := r.history.toList.filterMap Happening.announced?
  received := r.history.toList.filterMap Happening.received?
  waiting := r.mailbox.messages.filterMap Message.change?

end Registry

namespace Books

variable {b b' : Books} {ds : List Device} {f : Filter} {x : DeviceId → Option Device}

/-- The changes that were made and not received. -/
def outstanding (b : Books) : List (Device × Change) :=
  b.made.drop b.received.length

/-- Changes are made, or one is announced. -/
inductive Step : Books → Books → Prop where
  | make (b : Books) (cs : List (Device × Change)) :
      Step b { b with devices := alterAll b.devices cs, made := b.made ++ cs }
  | announce (b : Books) (c : Device × Change) :
      Step b { b with announced := b.announced ++ [c], waiting := b.waiting ++ [c] }

/-- The books agree with each other, and with the devices at the beginning. -/
structure Agree (ds : List Device) (b : Books) : Prop where
  devices : b.devices = alterAll ds b.made
  queue : b.received ++ b.waiting = b.announced

theorem Step.agree (h : Step b b') (hb : b.Agree ds) : b'.Agree ds := by
  cases h with
  | make cs =>
    constructor
    · show alterAll b.devices cs = alterAll ds (b.made ++ cs)
      rw [alterAll_append, hb.devices]
    · exact hb.queue
  | announce c =>
    constructor
    · exact hb.devices
    · show b.received ++ (b.waiting ++ [c]) = b.announced ++ [c]
      rw [← List.append_assoc, hb.queue]

/-- With a filter, who has `x` has the right devices after hearing of what is outstanding. -/
def Tracks (b : Books) (f : Filter) (x : DeviceId → Option Device) : Prop :=
  ∀ id, f.hearAll id (x id) b.outstanding = f.wanted? b.devices id

/-- What was received is a beginning of what was made. -/
theorem Agree.received_le (hb : b.Agree ds) (h : b.announced <+: b.made) :
    b.received.length ≤ b.made.length := by
  have hlen := h.length_le
  rw [← hb.queue, List.length_append] at hlen
  omega

/-- Who tracks the bus goes on to track it. -/
theorem Step.tracks (h : Step b b') (hb : b.Agree ds) (hle : b.announced <+: b.made)
    (hd : Distinctly ds b'.made) (ht : b.Tracks f x) : b'.Tracks f x := by
  cases h with
  | make cs =>
    intro id
    have hout : (b.made ++ cs).drop b.received.length = b.outstanding ++ cs :=
      List.drop_append_of_le_length (hb.received_le hle)
    have hdistinct : Distinctly b.devices cs := by
      rw [hb.devices]
      exact Distinctly.of_append hd
    show f.hearAll id (x id) ((b.made ++ cs).drop b.received.length) =
      f.wanted? (alterAll b.devices cs) id
    rw [hout, Filter.hearAll_append, ht id, Filter.wanted?_alterAll hdistinct]
  | announce c => exact ht

theorem Agree.distinctIds (hb : b.Agree ds) (hd : Distinctly ds b.made) :
    DistinctIds b.devices := by
  rw [hb.devices]
  exact hd.done

/-- Nothing is outstanding if everything was announced and nothing waits. -/
theorem Agree.outstanding_eq_nil (hb : b.Agree ds) (hall : b.announced = b.made)
    (hw : b.waiting = []) : b.outstanding = [] := by
  have hreceived : b.received = b.made := by
    rw [← hall, ← hb.queue, hw, List.append_nil]
  unfold outstanding
  rw [hreceived, List.drop_length]

/-- Who has the right devices tracks the bus, whatever is outstanding. -/
theorem tracks_wanted? (hb : b.Agree ds) (hd : Distinctly ds b.made) :
    b.Tracks f (f.wanted? b.devices) := by
  intro id
  have hsplit : b.made.take b.received.length ++ b.outstanding = b.made :=
    List.take_append_drop _ _
  have hdevices :
      b.devices = alterAll (alterAll ds (b.made.take b.received.length)) b.outstanding := by
    rw [hb.devices, ← alterAll_append, hsplit]
  have hdistinct : Distinctly (alterAll ds (b.made.take b.received.length)) b.outstanding := by
    apply Distinctly.of_append
    rw [hsplit]
    exact hd
  -- To hear once more of a change that was made is no harm.
  rw [hdevices]
  exact Filter.hearAll_wanted? hdistinct

/-- A change is received by who hears of it. -/
theorem Tracks.receive {c : Device × Change} (ht : b.Tracks f x)
    (hout : b.outstanding = c :: b'.outstanding) (hd : b'.devices = b.devices) :
    b'.Tracks f fun id => f.hear id (x id) c := by
  intro id
  have h := ht id
  rw [hout] at h
  rw [hd]
  exact h

end Books

/-! ## Moves in the books -/

theorem Mailbox.waiting_wake (m : Mailbox) :
    m.wake.2.messages.filterMap Message.change? = m.messages.filterMap Message.change? := by
  unfold Mailbox.wake
  split
  · rfl
  · split
    · rfl
    · simp [Message.change?]

namespace Registry

variable {p : Nat → Prop} {r r' : Registry MemoryBus}

/-- What is in none of the logs leaves the books as they are. -/
theorem books_eq (hs : List Happening) (hh : r'.history.toList = r.history.toList ++ hs)
    (hu : ∀ h ∈ hs, h.Unlogged) (hd : r'.bus.devices = r.bus.devices)
    (hw : r'.mailbox.messages.filterMap Message.change? =
      r.mailbox.messages.filterMap Message.change?) : r'.books = r.books := by
  have hmade : hs.filterMap Happening.made? = [] := by
    rw [List.filterMap_eq_nil_iff]
    exact fun h hm => (hu h hm).1
  have hannounced : hs.filterMap Happening.announced? = [] := by
    rw [List.filterMap_eq_nil_iff]
    exact fun h hm => (hu h hm).2.1
  have hreceived : hs.filterMap Happening.received? = [] := by
    rw [List.filterMap_eq_nil_iff]
    exact fun h hm => (hu h hm).2.2
  simp [books, hh, hd, hw, hmade, hannounced, hreceived]

section Books

variable (r)

theorem books_record {h : Happening} (hu : h.Unlogged) : (r.record h).books = r.books :=
  books_eq [h] (history_record r h) (by simpa using hu) rfl rfl

@[simp] theorem books_log (level : LogLevel) (message : String) :
    (r.log level message).books = r.books :=
  books_record r ⟨rfl, rfl, rfl⟩

@[simp] theorem books_flag (i : Nat) : (r.flag i).books = r.books :=
  books_record (r.update i _) ⟨rfl, rfl, rfl⟩

@[simp] theorem books_wake : r.wake.books = r.books := by
  obtain ⟨hs, hh, hlogs⟩ := r.history_wake
  apply books_eq hs hh
  · intro h hm
    obtain ⟨e, rfl⟩ := hlogs h hm
    exact ⟨rfl, rfl, rfl⟩
  · rw [bus_wake]
  · rw [mailbox_wake]
    exact r.mailbox.waiting_wake

@[simp] theorem books_deregister (h : Handle) : (r.deregister h).books = r.books := by
  rcases r.deregister_cases h with hr | ⟨level, message, hr⟩ | ⟨i, -, level, message, hr⟩
  · rw [hr]
  · rw [hr, books_log]
  · rw [hr, books_wake, books_log, books_flag]

@[simp] theorem books_dismiss (i : Nat) (id : DeviceId) : (r.dismiss i id).books = r.books := by
  rcases r.dismiss_cases i id with ⟨hr, -⟩ | ⟨e, -, -, level, message, hr⟩
  · rw [hr]
  · rw [hr, books_wake, books_log, books_flag]

@[simp] theorem books_enlist (g : Registration MemoryBus) : (r.enlist g).books = r.books := by
  apply books_eq [.enlisted r.entries.size, .logged _]
  · simp [enlist, log, record]
    rfl
  · simp [Happening.Unlogged, Happening.made?, Happening.announced?, Happening.received?]
  · rfl
  · rfl

@[simp] theorem books_enumerate : r.enumerate.2.books = r.books := by
  have hnone : (Bus.enumerate r.bus).log = [] := rfl
  apply books_eq []
  · rw [enumerate_eq, hnone]
    simp
  · simp
  · rw [bus_enumerate]
    rfl
  · rw [mailbox_enumerate]

@[simp] theorem books_rollBack (i : Nat) (h : Handle) (why : Failure) :
    (r.rollBack i h why).books = r.books := by
  show ((r.log _ _).flag i).books = r.books
  rw [books_flag, books_log]

@[simp] theorem books_beginReplay (i : Nat) (h : Handle) (ds : List Device) :
    (r.beginReplay i h ds).books = r.books := by
  show ((r.record (.replayed i ds)).log _ _).books = r.books
  rw [books_log]
  exact books_record r ⟨rfl, rfl, rfl⟩

@[simp] theorem books_enter (i : Nat) (c : Change) (d : Device) : (r.enter i c d).books = r.books :=
  books_record (r.update i _) ⟨rfl, rfl, rfl⟩

@[simp] theorem books_answered (i : Nat) (c : Change) (d : Device) (v : Verdict) :
    (r.record (.answered i c d v)).books = r.books :=
  books_record r ⟨rfl, rfl, rfl⟩

@[simp] theorem books_keep (i : Nat) (d : Device) : (r.keep i d).books = r.books :=
  books_answered r i .arrived d .keep

@[simp] theorem books_drop (i : Nat) (d : Device) : (r.drop i d).books = r.books := by
  show ((r.record _).dismiss i d.id).books = r.books
  rw [books_dismiss, books_answered]

end Books

/-- Destroying is noted. -/
theorem destroyed_deregisterAll (r : Registry MemoryBus) :
    .destroyed r.listed.toList ∈ r.deregisterAll.2.history.toList := by
  rcases r.deregisterAll_cases with hr | ⟨level, message, hr⟩
  · rw [hr, history_record]
    simp
  · rw [hr, history_log, history_record]
    simp

theorem destroyed_teardown (r : Registry MemoryBus) :
    .destroyed r.listed.toList ∈ r.teardown.history.toList := by
  show _ ∈ ({ r.deregisterAll.2 with mailbox := _ }.record _ : Registry MemoryBus).history.toList
  rw [history_record]
  exact List.mem_append_left _ (destroyed_deregisterAll r)

/-- What a move does to the books, if it does not destroy the registrations. -/
theorem Move.books (h : Move p r r') : r'.books = r.books ∨ Books.Step r.books r'.books ∨
    ∃ is, .destroyed is ∈ r'.history.toList := by
  cases h with
  | enter c d hi hlt => exact .inl (books_enter r _ c d)
  | finish d v hi hlt => exact .inl (books_answered r _ .left d v)
  | keep d hi hlt => exact .inl (books_keep r _ d)
  | drop d hi hlt => exact .inl (books_drop r _ d)
  | adopt d hi hlt => exact .inl rfl
  | detach id hi hlt => exact .inl rfl
  | clear hi hlt => exact .inl rfl
  | enlist g hg hi => exact .inl (books_enlist r g)
  | enumerate => exact .inl (books_enumerate r)
  | rollBack why hi he => exact .inl (books_rollBack r _ _ why)
  | beginReplay h ds hi hlt => exact .inl (books_beginReplay r _ h ds)
  | log level message => exact .inl (books_log r level message)
  | perform a =>
    cases a with
    | deregister h => exact .inl (books_deregister r h)
    | isRegistered h => exact .inl rfl
    | attached h => exact .inl rfl
    | count => exact .inl rfl
    | deregisterAll => exact .inr (.inr ⟨_, destroyed_deregisterAll r⟩)
    | teardown => exact .inr (.inr ⟨_, destroyed_teardown r⟩)
    | notify d c =>
      show (r.notify d c).2.books = r.books ∨ Books.Step r.books (r.notify d c).2.books ∨ _
      rcases r.notify_cases d c with ⟨-, hr⟩ | ⟨-, hr⟩
      · right
        left
        have hbooks : (r.notify d c).2.books = { r.books with
            announced := r.books.announced ++ [(d, c)]
            waiting := r.books.waiting ++ [(d, c)] } := by
          rw [hr]
          simp [Registry.books, Happening.made?, Happening.announced?, Happening.received?,
            Message.change?]
        rw [hbooks]
        exact .announce r.books (d, c)
      · rw [hr]
        exact .inl rfl
    | enumerate => exact .inl (books_enumerate r)
    | bus c =>
      right
      left
      have hbooks : (r.perform (.bus c)).2.books = { r.books with
          devices := alterAll r.books.devices (MemoryBus.changes c r.bus)
          made := r.books.made ++ MemoryBus.changes c r.bus } := by
        have hdevices : (Bus.perform c r.bus).2.devices =
            alterAll r.bus.devices (MemoryBus.changes c r.bus) := devices_perform c r.bus
        have hhistory : (r.perform (.bus c)).2.history.toList = r.history.toList ++
            (MemoryBus.changes c r.bus).map fun x => Happening.changed x.1 x.2 :=
          history_recordChanges _ _
        simp [Registry.books, hdevices, hhistory, Happening.made?, Happening.announced?,
          Happening.received?, List.filterMap_map, Function.comp_def]
      rw [hbooks]
      exact .make r.books _
    | log e => exact .inl (books_record r ⟨rfl, rfl, rfl⟩)
    | print line => exact .inl (books_record r ⟨rfl, rfl, rfl⟩)

/-! ## The ledger -/

/-- From the devices `ds` on, no two devices have the same id at any time, every announcement
    follows its change and none is left out before another, and no registration is destroyed. -/
structure Announced (ds : List Device) (hs : List Happening) : Prop where
  distinct : Distinctly ds (hs.filterMap Happening.made?)
  inOrder : ∀ hs', hs' <+: hs →
    hs'.filterMap Happening.announced? <+: hs'.filterMap Happening.made?
  spared : ∀ is, .destroyed is ∉ hs

/-- The same, over the beginnings one by one. -/
theorem announced_iff {ds : List Device} {hs : List Happening} : Announced ds hs ↔
    Distinctly ds (hs.filterMap Happening.made?) ∧
      (∀ hs' ∈ hs.inits, hs'.filterMap Happening.announced? <+: hs'.filterMap Happening.made?) ∧
      ∀ h ∈ hs, h.destroys = false := by
  constructor
  · intro h
    refine ⟨h.distinct, ?_, ?_⟩
    · intro hs' hm
      exact h.inOrder hs' ((List.mem_inits hs' hs).mp hm)
    · intro x hx
      cases x with
      | destroyed is => exact absurd hx (h.spared is)
      | _ => rfl
  · intro h
    obtain ⟨hdistinct, horder, hspared⟩ := h
    refine ⟨hdistinct, ?_, ?_⟩
    · intro hs' hp
      exact horder hs' ((List.mem_inits hs' hs).mpr hp)
    · intro is hm
      cases hspared _ hm

instance (ds : List Device) (hs : List Happening) : Decidable (Announced ds hs) :=
  decidable_of_iff' _ announced_iff

/-- What is not destroyed up to now was not destroyed before. -/
theorem spared_before {hs hs' : List Happening} (hp : hs' <+: hs)
    (h : ∀ is, .destroyed is ∉ hs) (is : List Nat) : .destroyed is ∉ hs' :=
  fun hm => h is (hp.subset hm)

theorem Announced.of_prefix {ds : List Device} {hs hs' : List Happening} (h : Announced ds hs)
    (hp : hs' <+: hs) : Announced ds hs' where
  distinct := h.distinct.of_prefix (hp.filterMap _)
  inOrder hs'' hp' := h.inOrder hs'' (hp'.trans hp)
  spared := spared_before hp h.spared

/-- What was announced to a registry so far is a beginning of what was made. -/
theorem Announced.announced_prefix {ds : List Device} (h : Announced ds r.history.toList) :
    r.books.announced <+: r.books.made :=
  h.inOrder _ (List.prefix_refl _)

/-- What is true of a registry at any time, if its bus had the devices `ds` at the beginning. -/
structure Ledger (ds : List Device) (r : Registry MemoryBus) : Prop where
  orderly : r.Orderly
  agree : (∀ is, .destroyed is ∉ r.history.toList) → r.books.Agree ds
  /-- Handles count along with the places. -/
  handles : ∀ (i : Nat) (e : Entry MemoryBus), r.entries[i]? = some e →
    e.handle = ⟨UInt32.ofNat (i + 1)⟩
  /-- Who is not flagged is held, as long as handles do not repeat. -/
  held : (∀ is, .destroyed is ∉ r.history.toList) → r.entries.size ≤ UInt32.size →
    ∀ (i : Nat) (e : Entry MemoryBus), r.entries[i]? = some e → e.flagged = false → i ∈ r.listed

/-- A move takes off the list only what it destroys, or what has the handle of a registration that
    it takes off again. -/
theorem Move.stays (h : Move p r r') {i : Nat} (hi : i ∈ r.listed) : i ∈ r'.listed ∨
    (∃ is, .destroyed is ∈ r'.history.toList) ∨
    ∃ (j : Nat) (e : Entry MemoryBus) (why : Failure), r.entries[j]? = some e ∧
      r' = r.rollBack j e.handle why := by
  cases h with
  | enter c d hj hlt => exact .inl hi
  | finish d v hj hlt => exact .inl hi
  | keep d hj hlt => exact .inl hi
  | drop d hj hlt => exact .inl (by simpa [Registry.drop] using hi)
  | adopt d hj hlt => exact .inl hi
  | detach id hj hlt => exact .inl hi
  | clear hj hlt => exact .inl hi
  | enlist g hg hj => exact .inl (by simp [Registry.enlist, hi])
  | enumerate => exact .inl (by simpa using hi)
  | rollBack why hj he => exact .inr (.inr ⟨_, _, why, he, rfl⟩)
  | beginReplay h ds hj hlt => exact .inl hi
  | log level message => exact .inl hi
  | perform a =>
    cases a with
    | deregister h =>
      left
      show i ∈ (r.deregister h).listed
      rwa [listed_deregister]
    | deregisterAll => exact .inr (.inl ⟨_, destroyed_deregisterAll r⟩)
    | teardown => exact .inr (.inl ⟨_, destroyed_teardown r⟩)
    | notify d c =>
      left
      show i ∈ (r.notify d c).2.listed
      rwa [listed_notify]
    | enumerate =>
      left
      show i ∈ r.enumerate.2.listed
      rwa [listed_enumerate]
    | bus c =>
      left
      rwa [listed_busCommand]
    | _ => exact .inl hi

/-- Handles that count places repeat only after many registrations. -/
theorem handle_inj {i j n : Nat} (hn : n ≤ UInt32.size) (hi : i < n) (hj : j < n)
    (h : (⟨UInt32.ofNat (i + 1)⟩ : Handle) = ⟨UInt32.ofNat (j + 1)⟩) : i = j := by
  have hval := congrArg (fun h : Handle => h.val.toNat) h
  have hsize : UInt32.size = 4294967296 := rfl
  have hmod : (i + 1) % 4294967296 = (j + 1) % 4294967296 := by simpa using hval
  omega

/-- What is taken off again is one registration: nobody else has its handle. -/
theorem Ledger.mem_listed_rollBack {ds : List Device} (hr : Ledger ds r)
    (hsize : r.entries.size ≤ UInt32.size) {i j : Nat} {e e' : Entry MemoryBus}
    (he : r.entries[i]? = some e) (he' : r.entries[j]? = some e') (hne : j ≠ i)
    (hi : i ∈ r.listed) (why : Failure) : i ∈ (r.rollBack j e'.handle why).listed := by
  rw [Registry.mem_listed_rollBack]
  refine ⟨hi, ?_⟩
  have hentry : (r.flag j).entries[i]? = some e := by
    rw [← he]
    exact getElem?_update_of_ne r j _ hne
  have hnamed : e.isNamed e'.handle = false := by
    by_contra hsame
    have hhandle : e.handle = e'.handle := by simpa [Entry.isNamed] using hsame
    rw [hr.handles i e he, hr.handles j e' he'] at hhandle
    have hlt := lt_size_of_getElem? he
    have hltj := lt_size_of_getElem? he'
    exact hne (handle_inj hsize hlt hltj hhandle).symm
  simp [satisfies, hentry, hnamed]

/-- Every move keeps the ledger. -/
theorem Move.ledger {ds : List Device} (h : Move p r r') (hr : Ledger ds r) : Ledger ds r' where
  orderly := h.orderly hr.orderly
  agree hspared := by
    have hagree := hr.agree (spared_before h.news hspared)
    rcases h.books with hbooks | hstep | ⟨is, hm⟩
    · rwa [hbooks]
    · exact hstep.agree hagree
    · exact absurd hm (hspared is)
  handles i e' he' := by
    rcases h.origin he' with ⟨e, he, hages⟩ | ⟨rfl, g, -, rfl⟩
    · rw [hages.handle]
      exact hr.handles i e he
    · rfl
  held hspared hsize i e' he' hf := by
    have hspared' := spared_before h.news hspared
    have hsize' : r.entries.size ≤ UInt32.size := Nat.le_trans h.spares.size_le hsize
    rcases h.origin he' with ⟨e, he, hages⟩ | ⟨rfl, g, rfl, -⟩
    · have hi := hr.held hspared' hsize' i e he (hages.unflagged hf)
      rcases h.stays hi with hi' | ⟨is, hm⟩ | ⟨j, e₁, why, he₁, rfl⟩
      · exact hi'
      · exact absurd hm (hspared is)
      · -- The registration that is taken off again is flagged, so it is another one.
        have hne : j ≠ i := by
          intro hji
          subst hji
          have hflagged : (r.rollBack j e₁.handle why).entries[j]? =
              some { e₁ with flagged := true } := (r.log _ _).getElem?_flag j he₁
          rw [hflagged] at he'
          cases he'
          cases hf
        exact hr.mem_listed_rollBack hsize' he he₁ hne hi why
    · simp [Registry.enlist]

/-- Who tracks the bus goes on to track it, whatever callbacks do. -/
theorem Move.tracks {ds : List Device} (h : Move p r r') (hr : Ledger ds r)
    (ha : Announced ds r'.history.toList) {f : Filter} {x : DeviceId → Option Device}
    (ht : r.books.Tracks f x) : r'.books.Tracks f x := by
  have ha' := ha.of_prefix h.news
  rcases h.books with hbooks | hstep | ⟨is, hm⟩
  · rwa [hbooks]
  · exact hstep.tracks (hr.agree ha'.spared) ha'.announced_prefix ha.distinct ht
  · exact absurd hm (ha.spared is)

/-! ## Messages -/

/-- What is noted aside leaves the ledger as it is. -/
theorem Ledger.of_eq {ds : List Device} (hr : Ledger ds r) (hb : r'.books = r.books)
    (he : r'.entries = r.entries) (hl : r'.listed = r.listed)
    (hh : r.history.toList <+: r'.history.toList) : Ledger ds r' where
  orderly := by
    constructor
    · rw [hl]
      exact hr.orderly.ascending
    · rw [hl, he]
      exact hr.orderly.taken
  agree hspared := by
    rw [hb]
    exact hr.agree (spared_before hh hspared)
  handles := by
    rw [he]
    exact hr.handles
  held hspared := by
    rw [he, hl]
    exact hr.held (spared_before hh hspared)

theorem Ledger.dispatched {ds : List Device} (hr : Ledger ds r) (d : Device) (c : Change) :
    Ledger ds (r.record (.dispatched d c)) := by
  exact hr.of_eq (books_record r ⟨rfl, rfl, rfl⟩) rfl rfl (prefix_record r _)

/-- A message that is taken goes from those that wait to those that were received. -/
theorem books_taken {m : Message} {mailbox : Mailbox} (h : r.mailbox.take? = some (m, mailbox)) :
    r.books.waiting = m.change?.toList ++ mailbox.messages.filterMap Message.change? ∧
      ({ r with mailbox }.record (.taken m)).books = { r.books with
        received := r.books.received ++ m.change?.toList
        waiting := mailbox.messages.filterMap Message.change? } := by
  unfold Mailbox.take? at h
  split at h
  · cases h
  · next rest hm =>
    cases h
    simp [books, hm, List.filterMap_cons, Message.change?, Happening.made?, Happening.announced?,
      Happening.received?]
  · next d c rest hm =>
    cases h
    simp [books, hm, List.filterMap_cons, Message.change?, Happening.made?, Happening.announced?,
      Happening.received?]

/-- A wakeup carries no change. -/
theorem books_woken {mailbox : Mailbox} (h : r.mailbox.take? = some (.wakeup, mailbox)) :
    ({ r with mailbox }.record (.taken .wakeup)).books = r.books := by
  obtain ⟨hwaiting, hbooks⟩ := books_taken h
  have hnone : Message.change? .wakeup = none := rfl
  rw [hnone] at hwaiting hbooks
  rw [hbooks]
  simp [books] at hwaiting ⊢
  exact hwaiting.symm

theorem Ledger.taken {ds : List Device} (hr : Ledger ds r) {m : Message} {mailbox : Mailbox}
    (h : r.mailbox.take? = some (m, mailbox)) :
    Ledger ds ({ r with mailbox }.record (.taken m)) := by
  obtain ⟨hwaiting, hbooks⟩ := books_taken h
  have hprefix : r.history.toList <+: ({ r with mailbox }.record (.taken m)).history.toList :=
    prefix_record { r with mailbox } _
  constructor
  · exact ⟨hr.orderly.ascending, hr.orderly.taken⟩
  · intro hs
    have hagree := hr.agree (spared_before hprefix hs)
    have hqueue := hagree.queue
    rw [hbooks]
    constructor
    · exact hagree.devices
    · show (r.books.received ++ m.change?.toList) ++ _ = r.books.announced
      rw [List.append_assoc, ← hwaiting, hqueue]
  · exact hr.handles
  · intro hs
    exact hr.held (spared_before hprefix hs)

theorem books_startSweep (r : Registry MemoryBus) : r.startSweep.books = r.books := by
  apply books_eq _ (history_startSweep r)
  · intro h hm
    obtain ⟨i, -, rfl⟩ := List.mem_map.mp hm
    exact ⟨rfl, rfl, rfl⟩
  · rw [bus_startSweep]
  · rw [mailbox_startSweep]

theorem Ledger.startSweep {ds : List Device} (hr : Ledger ds r) : Ledger ds r.startSweep := by
  have hprefix : r.history.toList <+: r.startSweep.history.toList := by
    rw [history_startSweep]
    exact List.prefix_append _ _
  constructor
  · exact hr.orderly.of_sublist (by simp) (by simp)
  · intro hs
    rw [books_startSweep]
    exact hr.agree (spared_before hprefix hs)
  · rw [entries_startSweep]
    exact hr.handles
  · intro hs hsize i e he hf
    rw [entries_startSweep] at hsize he
    rw [listed_startSweep, Array.mem_filter]
    -- What a sweep takes off the list is flagged.
    refine ⟨hr.held (spared_before hprefix hs) hsize i e he hf, ?_⟩
    simp [satisfies, he, hf]

/-- The message that is taken next, if it is a change, is the oldest that is outstanding. -/
theorem outstanding_taken {ds : List Device} (hr : Ledger ds r) (ha : Announced ds r.history.toList)
    {d : Device} {c : Change} {mailbox : Mailbox}
    (h : r.mailbox.take? = some (.change d c, mailbox)) :
    r.books.outstanding =
      (d, c) :: ({ r with mailbox }.record (.taken (.change d c))).books.outstanding := by
  obtain ⟨hwaiting, hbooks⟩ := books_taken h
  have hqueue := (hr.agree ha.spared).queue
  -- What was received and what waits, in this order, is a beginning of what was made.
  obtain ⟨later, hmade⟩ := ha.announced_prefix
  rw [← hqueue, hwaiting, List.append_assoc] at hmade
  rw [hbooks]
  show r.books.made.drop r.books.received.length =
    (d, c) :: r.books.made.drop (r.books.received ++ [(d, c)]).length
  rw [← hmade]
  have hcons : Message.change? (.change d c) = some (d, c) := rfl
  simp [hcons]

end Registry

end PlugWatch
