import PlugWatch.Proofs.Books
import PlugWatch.Proofs.Hearing

/-! # Registrations converge to the bus

  A registration that asked for the devices present hears of every change that is received while it
  is held, and of the devices that were present when it was made. Some changes it hears of twice:
  those that were made before the replay and are received after it.

  The invariant is that a registration **is current**: it tracks the bus, once it will have heard of
  what it is about to be told. For a registration that is made those are the devices of the replay,
  for those that a dispatch has not come to yet it is the change dispatched, else nothing. When all
  changes were announced and none waits, nothing is outstanding, and who tracks the bus has the
  right devices.
-/

namespace PlugWatch

open MemoryBus

namespace Registry

open Walk

variable {p : Nat → Prop} {r r' : Registry MemoryBus} {i : Nat} {b : Bool} {ds : List Device}
  {d : Device} {c : Change} {ms : List (Device × Change)}

/-! ## Being current -/

/-- A registration that is to be told of `ms` tracks the bus, unless it did not ask for the devices
    present, or was flagged, or is not held. -/
def Current (ds : List Device) (ms : List (Device × Change)) (b : Bool) (r : Registry MemoryBus)
    (i : Nat) : Prop :=
  b = true → Announced ds r.history.toList → ∀ e, r.entries[i]? = some e →
    e.filter.enumerate = true → e.flagged = false → i ∈ r.listed →
      DistinctIds e.attached ∧
        r.books.Tracks e.filter fun id => e.filter.hearAll id (e.recorded? id) ms

theorem Current.of_false : Current ds ms false r i := by
  intro hb
  cases hb

theorem Current.of_flagged (h : r.IsFlagged i) : Current ds ms b r i := by
  intro _ _ e he _ hf
  obtain ⟨e', he', hf'⟩ := h
  rw [he] at he'
  cases he'
  rw [hf] at hf'
  cases hf'

/-- Moves that do not call a registration leave it current. -/
theorem Current.spared (h : Current ds ms b r i) (hr : Ledger ds r) (hm : Move p r r') (hi : ¬ p i)
    (hlt : i < r.entries.size) : Current ds ms b r' i := by
  intro hb ha e' he' hen hf hl
  have he := Array.getElem?_eq_getElem hlt
  obtain ⟨f, hef, -⟩ := hm.spares.spared i _ hi he
  obtain ⟨e'', he'', hages⟩ := hm.spares.ages i _ he
  cases Option.some.inj (he''.symm.trans he')
  cases Option.some.inj (hef.symm.trans he')
  -- It was held and not flagged before, and has the devices that it had.
  have hl' := hm.spares.listed i hl hlt
  obtain ⟨hd, ht⟩ := h hb (ha.of_prefix hm.news) _ he hen (hages.unflagged hf) hl'
  exact ⟨hd, hm.tracks hr ha ht⟩

theorem current_stable (ds : List Device) (ms : List (Device × Change)) :
    Stable (Ledger ds) (Current ds ms) where
  overall hm hr := hm.ledger hr
  weaken _ := .of_false
  spared hr hm hi hlt h := h.spared hr hm hi hlt

theorem Moves.tracks (h : Moves p r r') (hr : Ledger ds r) (ha : Announced ds r'.history.toList)
    {f : Filter} {x : DeviceId → Option Device} (ht : r.books.Tracks f x) :
    r'.books.Tracks f x := by
  have hkept : Ledger ds r' ∧ (Announced ds r'.history.toList → r'.books.Tracks f x) := by
    apply h.keeps (P := fun r => Ledger ds r ∧
      (Announced ds r.history.toList → r.books.Tracks f x)) _ ⟨hr, fun _ => ht⟩
    intro s s' hm hs
    refine ⟨hm.ledger hs.1, ?_⟩
    intro ha'
    exact hm.tracks hs.1 ha' (hs.2 (ha'.of_prefix hm.news))
  exact hkept.2 ha

theorem Moves.ledger (h : Moves p r r') (hr : Ledger ds r) : Ledger ds r' :=
  h.keeps Move.ledger hr

theorem current_awaiting (ds : List Device) : Awaiting (Ledger ds) (Current ds) where
  overall hm hr := hm.ledger hr
  of_false := .of_false
  of_flagged := .of_flagged
  heed {p ms c b x r r' i e} hr hm he _ hx h := by
    intro hb ha e' he' hen hf hl
    rw [Bool.and_eq_true] at hb
    obtain ⟨e'', he'', hages⟩ := hm.spares.ages i e he
    cases Option.some.inj (he''.symm.trans he')
    have hears := hx hb.2 e' he' hf
    have hheld := hm.spares.listed i hl (lt_size_of_getElem? he)
    obtain ⟨hs, hnews, -⟩ := hm.spares.news
    have ha' : Announced ds r.history.toList := ha.of_prefix ⟨hs, hnews.symm⟩
    rw [hears.filter] at hen ⊢
    obtain ⟨hdistinct, ht⟩ := h hb.1 ha' e he hen (hages.unflagged hf) hheld
    refine ⟨hears.distinct hdistinct, ?_⟩
    have hsame : (fun id => e.filter.hearAll id (e'.recorded? id) ms) =
        fun id => e.filter.hearAll id (e.recorded? id) (c :: ms) := by
      funext id
      rw [hears.recorded]
      rfl
    rw [hsame]
    exact hm.tracks hr ha ht

/-! ## Replays -/

/-- A replay begins, of the devices that are present. -/
theorem Ledger.replaying (hr : Ledger ds r) {g : Registration MemoryBus} (hg : g.check = .ok ())
    (h : Handle) {present : List Device} (hp : (r.enlist g).enumerate.1 = .ok present) :
    Current ds (present.map (·, .arrived)) true
      ((r.enlist g).enumerate.2.beginReplay r.entries.size h present) r.entries.size := by
  intro _ ha e he _ _ _
  have hmoves := opening_moves (r := r) (p := fun _ => True) hg trivial h present
  have hagree := (hmoves.ledger hr).agree ha.spared
  have hbooks :
      ((r.enlist g).enumerate.2.beginReplay r.entries.size h present).books = r.books := by
    rw [books_beginReplay, books_enumerate, books_enlist]
  have hnew : e = r.newEntry g := by
    have hentry : (r.enlist g).enumerate.2.entries[r.entries.size]? = some e := he
    rw [getElem?_enlist_enumerate] at hentry
    exact (Option.some.inj hentry).symm
  have hpresent : present = r.books.devices := by
    have hlist : (if r.bus.failing then Except.error _ else Except.ok r.bus.devices) =
        Except.ok present := hp
    split at hlist
    · cases hlist
    · exact (Except.ok.inj hlist).symm
  have hdistinct : Distinctly ds r.books.made := by
    rw [← hbooks]
    exact ha.distinct
  rw [hbooks] at hagree ⊢
  subst hnew
  refine ⟨DistinctIds.nil, ?_⟩
  -- Who has nothing and is told of the devices present has the right devices.
  have hheard : (fun id => g.filter.hearAll id none (present.map (·, .arrived))) =
      g.filter.wanted? r.books.devices := by
    funext id
    rw [hpresent]
    exact Filter.hearAll_arrived (hagree.distinctIds hdistinct)
  show r.books.Tracks g.filter fun id => g.filter.hearAll id none (present.map (·, .arrived))
  rw [hheard]
  exact Books.tracks_wanted? hagree hdistinct

/-- A registration that is made is current. -/
theorem registerWith_current (hr : Ledger ds r) {g : Registration MemoryBus}
    {f : Nat → Device → Walk MemoryBus Verdict} (hf : Tame f) :
    (registerWith g f).Ends (fun o r' => r.entries.size < r'.entries.size →
      Current ds [] o.isSome r' r.entries.size) r := by
  apply registerWith_ends
  · intro why hlt
    omega
  · intro _ hno _ _ _ e he hen
    rw [getElem?_enlist] at he
    cases he
    have hasked : g.filter.enumerate = true := hen
    rw [hno] at hasked
    cases hasked
  · intro _ why _ _
    have hentry := getElem?_enlist_enumerate r g
    exact .of_flagged ⟨_, ((r.enlist g).enumerate.2.log _ _).getElem?_flag _ hentry, rfl⟩
  · intro hg _ present hp
    have hmoves := opening_moves (r := r) (p := fun _ => True) hg trivial r.nextHandle present
    have hlt := lt_size_replaying r g r.nextHandle present
    apply ((current_awaiting ds).replay hf present hlt (hmoves.ledger hr)
      (hr.replaying hg r.nextHandle hp)).mono
    intro o r' h _
    cases o <;> exact h

theorem current_invariant (ds : List Device) : PlaceInvariant (Ledger ds) (Current ds []) where
  toStable := current_stable ds []
  made hr hf := registerWith_current hr hf

/-! ## Turns -/

/-- What is noted aside leaves registrations current. -/
theorem Current.of_books (h : Current ds ms b r i) (he : r'.entries = r.entries)
    (hl : i ∈ r'.listed → i ∈ r.listed) (hh : r.history.toList <+: r'.history.toList)
    (hbooks : ∀ f x, r.books.Tracks f x → r'.books.Tracks f x) : Current ds ms b r' i := by
  intro hb ha e he' hen hf hi
  rw [he] at he'
  obtain ⟨hd, ht⟩ := h hb (ha.of_prefix hh) e he' hen hf (hl hi)
  exact ⟨hd, hbooks _ _ ht⟩

/-- When a change is received, every registration is to be told of it. -/
theorem Current.taken (h : Current ds [] b r i) (hr : Ledger ds r) {mailbox : Mailbox}
    (hm : r.mailbox.take? = some (.change d c, mailbox)) :
    Current ds [(d, c)] b ({ r with mailbox }.record (.taken (.change d c))) i := by
  intro hb ha e he hen hf hl
  have ha' : Announced ds r.history.toList := ha.of_prefix (prefix_record { r with mailbox } _)
  obtain ⟨hd, ht⟩ := h hb ha' e he hen hf hl
  exact ⟨hd, ht.receive (outstanding_taken hr ha' hm) rfl⟩

/-- A change that is received is dispatched to everyone who is to be told of it. -/
theorem dispatch_current (hr : Ledger ds r)
    (h : ∀ i, i < r.entries.size → Current ds [(d, c)] b r i) :
    (dispatch d c).Ends (fun o => Everywhere (Ledger ds) (Current ds []) (b && o.isSome)) r := by
  apply dispatch_everywhere (current_invariant ds) (current_stable ds [(d, c)])
    (fun _ => .of_false) (fun hlt hr h => (current_awaiting ds).offer hlt hr h) hr.orderly
  refine ⟨hr.dispatched d c, ?_, ?_⟩
  · intro i hi
    have hlt := hr.orderly.taken i (mem_places.mp hi).1
    refine ⟨hlt, ?_⟩
    have hbooks : (r.record (.dispatched d c)).books = r.books := books_record r ⟨rfl, rfl, rfl⟩
    refine (h i hlt).of_books rfl id (prefix_record r _) ?_
    intro f x ht
    rwa [hbooks]
  · -- Whoever is not offered the change is flagged, or not held.
    intro i hlt hi _ _ e he _ hf hl
    have hactive : e.active = true := by simp [Entry.active, hf]
    exact absurd (mem_places.mpr ⟨hl, e, he, hactive⟩) hi

theorem next_current (h : Everywhere (Ledger ds) (Current ds []) b r) :
    next.Ends (fun o => Everywhere (Ledger ds) (Current ds []) (b && o.isSome)) r := by
  obtain ⟨hr, hall⟩ := h
  apply next_ends (Q := fun x => Everywhere (Ledger ds) (Current ds []) (b && x))
  · intro _
    rw [Bool.and_true]
    exact ⟨hr, hall⟩
  · intro mailbox hm
    rw [Bool.and_true]
    refine ⟨hr.taken hm, ?_⟩
    intro i hlt
    have hbooks : ∀ f x, r.books.Tracks f x →
        ({ r with mailbox }.record (.taken .wakeup)).books.Tracks f x := by
      intro f x ht
      rwa [books_woken hm]
    exact (hall i hlt).of_books rfl id (prefix_record { r with mailbox } _) hbooks
  · intro d c mailbox hm
    apply dispatch_current (hr.taken hm)
    intro i hlt
    exact (hall i hlt).taken hr hm

/-- A sweep calls only registrations that are flagged, of which nothing is said. -/
theorem sweep_current (h : Everywhere (Ledger ds) (Current ds []) b r) :
    sweep.Ends (fun o => Everywhere (Ledger ds) (Current ds []) (b && o.isSome)) r := by
  obtain ⟨hr, hall⟩ := h
  have hflagged : Stable (Ledger ds) fun _ r i => r.IsFlagged i :=
    ⟨fun hm hr => hm.ledger hr, fun h => h, fun _ hm _ _ h => hm.spares.isFlagged h⟩
  apply sweep_everywhere (current_invariant ds) hflagged (fun h => .of_flagged h) _ hr.orderly
  · refine ⟨hr.startSweep, ?_, ?_⟩
    · intro i hi
      have hlt := hr.orderly.taken i (mem_places.mp hi).1
      obtain ⟨-, e, he, hf⟩ := mem_places.mp hi
      rw [entries_startSweep]
      exact ⟨hlt, e, by rwa [entries_startSweep], hf⟩
    · intro i hlt _
      rw [entries_startSweep] at hlt
      refine Current.of_books (hall i hlt) ?_ ?_ ?_ ?_
      · rw [entries_startSweep]
      · rw [listed_startSweep]
        exact fun hl => (Array.mem_filter.mp hl).1
      · rw [history_startSweep]
        exact List.prefix_append _ _
      · intro f x ht
        rwa [books_startSweep]
  · intro b r i hlt hr h
    have hmoves := reclaim_moves (i := i) (p := fun _ => True) (fun _ _ => trivial) trivial
      (Nat.le_refl r.entries.size)
    apply hmoves.mono
    intro o r' hm
    exact .of_flagged (hm.spares.isFlagged h)

theorem turn_current (t : Turn MemoryBus) (ht : ∀ d c, t ≠ .dispatch d c)
    (h : Everywhere (Ledger ds) (Current ds []) b r) :
    t.walk.Ends (fun o => Everywhere (Ledger ds) (Current ds []) (b && o.isSome)) r := by
  apply turn_ends (Q := fun x => Everywhere (Ledger ds) (Current ds []) (b && x)) t
  · intro g _
    exact register_everywhere (current_invariant ds) g h
  · intro a _
    rw [Bool.and_true]
    exact perform_everywhere (current_stable ds []) a h
  · intro d c heq
    exact absurd heq (ht d c)
  · intro _
    exact next_current h
  · intro _
    exact sweep_current h

/-! ## Sessions -/

theorem fresh_ledger (bus : MemoryBus) : Ledger bus.devices { bus } where
  orderly := ⟨List.Pairwise.nil, by simp⟩
  agree _ := ⟨rfl, rfl⟩
  handles := by simp
  held := by simp

/-- If no change is dispatched past the mailbox, every registration is current between the
    operations of a session. -/
theorem afterAll_current (bus : MemoryBus) (os : List (Operation MemoryBus))
    (hos : ∀ d c, .dispatch d c ∉ os) :
    Everywhere (Ledger bus.devices) (Current bus.devices []) (calm { bus } os)
      (afterAll { bus } os) := by
  have hfresh : Everywhere (Ledger bus.devices) (Current bus.devices []) true { bus } := by
    refine ⟨fresh_ledger bus, ?_⟩
    intro i hlt
    simp at hlt
  have hnever (o : Operation MemoryBus) (ho : o ∈ os) (t : Turn MemoryBus) (ht : o.Takes t)
      (d : Device) (c : Change) : t ≠ .dispatch d c := by
    intro heq
    subst heq
    rw [Operation.eq_of_takes_dispatch ht] at ho
    exact hos d c ho
  have hkeeps := afterAll_keeps (P := Everywhere (Ledger bus.devices) (Current bus.devices [])) os
    (fun o ho t ht _ _ hr => turn_current t (hnever o ho t ht) hr) hfresh
  rwa [Bool.true_and] at hkeeps

/-- If changes come only by announcements, all of them in order, and no callback panics, then when
    all changes were announced and none waits, a registration that asked for the devices present
    and was never flagged is held, unless handles repeat, and has exactly the devices of the bus
    that it accepts. -/
theorem attached_converges (bus : MemoryBus) (os : List (Operation MemoryBus))
    (hos : ∀ d c, .dispatch d c ∉ os) (hcalm : calm { bus } os = true) :
    let r := afterAll { bus } os
    Announced bus.devices r.history.toList → r.books.announced = r.books.made →
      (∀ d c, .change d c ∉ r.mailbox.messages) → ∀ i e, r.entries[i]? = some e →
        e.filter.enumerate = true → e.flagged = false →
          (r.entries.size ≤ UInt32.size → i ∈ r.listed) ∧
          (i ∈ r.listed → DistinctIds e.attached ∧
            ∀ d, d ∈ e.attached ↔ d ∈ r.bus.devices ∧ e.filter.accepts d.descriptor = true) := by
  intro r ha hall hnone i e he hen hf
  have hcurrent : Everywhere (Ledger bus.devices) (Current bus.devices []) true r := by
    have h := afterAll_current bus os hos
    rwa [hcalm] at h
  obtain ⟨hledger, hplaces⟩ := hcurrent
  have hagree := hledger.agree ha.spared
  refine ⟨?_, ?_⟩
  · intro hsize
    exact hledger.held ha.spared hsize i e he hf
  intro hl
  obtain ⟨hdistinct, ht⟩ := hplaces i (lt_size_of_getElem? he) rfl ha e he hen hf hl
  -- Everything that was made was received.
  have hwaiting : r.books.waiting = [] := by
    show r.mailbox.messages.filterMap Message.change? = []
    rw [List.filterMap_eq_nil_iff]
    intro m hm
    cases m with
    | wakeup => rfl
    | change d c => exact absurd hm (hnone d c)
  have hout : r.books.outstanding = [] := hagree.outstanding_eq_nil hall hwaiting
  have hids : DistinctIds r.bus.devices := hagree.distinctIds ha.distinct
  refine ⟨hdistinct, ?_⟩
  intro d
  have hrecorded : e.recorded? d.id = e.filter.wanted? r.bus.devices d.id := by
    have h := ht d.id
    rw [hout] at h
    exact h
  have hattached : e.recorded? d.id = some d ↔ d ∈ e.attached := hdistinct.find?_eq_some
  rw [← hattached, hrecorded, Filter.wanted?_eq_some hids]

/-- A device that takes the place of the first numbered one, under the same id. -/
def replacement : Device :=
  { MemoryBus.sample 2 with id := (MemoryBus.sample 1).id }

/-- A device is announced and waits when a registration is made that asks for the devices present.
    When its callback is called for the first time, another device takes the place of the first. -/
def catchUp : List (Operation MemoryBus) :=
  let d := MemoryBus.sample 1
  let late : Registration MemoryBus :=
    { Registration.listener { enumerate := true } with
      onArrived n _ :=
        if n = 0 then
          .act (.bus (.unplug d.id)) fun _ => .act (.bus (.plug replacement)) fun _ =>
            .act (.notify d .left) fun _ => .act (.notify replacement .arrived) fun _ =>
              .finish .keep
        else .finish .keep }
  [.act (.bus (.plug d)), .act (.notify d .arrived), .register late, .handlePending]

theorem attached_converges_catchUp :
    Announced [] (afterAll { bus := ({} : MemoryBus) } catchUp).history.toList ∧
      ∃ e : Entry MemoryBus, (afterAll { bus := ({} : MemoryBus) } catchUp).entries[0]? = some e ∧
        ∀ d, d ∈ e.attached ↔ d = replacement := by
  have hnever : ∀ d c, .dispatch d c ∉ catchUp := by simp [catchUp]
  have hcalm : calm { bus := ({} : MemoryBus) } catchUp = true := by decide +kernel
  have hannounced : Announced [] (afterAll { bus := ({} : MemoryBus) } catchUp).history.toList := by
    decide +kernel
  have hall : (afterAll { bus := ({} : MemoryBus) } catchUp).books.announced =
      (afterAll { bus := ({} : MemoryBus) } catchUp).books.made := by decide +kernel
  have hnone : (afterAll { bus := ({} : MemoryBus) } catchUp).mailbox.messages = [] := by
    decide +kernel
  have hlisted : 0 ∈ (afterAll { bus := ({} : MemoryBus) } catchUp).listed := by decide +kernel
  have hdevices : (afterAll { bus := ({} : MemoryBus) } catchUp).bus.devices = [replacement] := by
    decide +kernel
  have hentry : (afterAll { bus := ({} : MemoryBus) } catchUp).entries[0]?.any
      (fun e => e.filter == { enumerate := true } && e.active) = true := by decide +kernel
  obtain ⟨e, he, hprops⟩ := (Option.any_eq_true ..).mp hentry
  have hboth : e.filter = { enumerate := true } ∧ e.flagged = false := by
    simpa [Entry.active] using hprops
  obtain ⟨-, hheld⟩ := attached_converges ({} : MemoryBus) catchUp hnever hcalm hannounced hall
    (by simp [hnone]) 0 e he (by rw [hboth.1]) hboth.2
  obtain ⟨-, hattached⟩ := hheld hlisted
  refine ⟨hannounced, e, he, ?_⟩
  intro d
  rw [hattached d, hdevices, hboth.1, List.mem_singleton]
  constructor
  · intro h
    exact h.1
  · intro h
    exact ⟨h, by rw [h]; decide⟩

end Registry

end PlugWatch
