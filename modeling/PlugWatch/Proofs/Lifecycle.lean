import PlugWatch.Proofs.Deregistration

/-! # The life of a handle

  A handle is **issued** when a registration is made, and from then on it names this registration
  and no other. It is **active** while its registration is held and not flagged, **flagged** while
  it is held and flagged, and **gone** once it is not held any more. A handle goes through these
  standings in this order; it may leave some out, but it never goes back.

  Handles are counted by words, so all this is true as long as they have not wrapped.
-/

namespace PlugWatch

/-- How far a handle has come. -/
inductive Standing where
  /-- No registration has it. -/
  | unissued
  /-- Its registration is held and not flagged. -/
  | active
  /-- Its registration is held and flagged. -/
  | flagged
  /-- Its registration is not held any more. -/
  | gone
  deriving DecidableEq, Repr

namespace Standing

/-- The place of a standing in the life of a handle. -/
def rank : Standing → Nat
  | unissued => 0
  | active => 1
  | flagged => 2
  | gone => 3

instance : LE Standing := ⟨fun a b => a.rank ≤ b.rank⟩

instance (a b : Standing) : Decidable (a ≤ b) :=
  inferInstanceAs (Decidable (a.rank ≤ b.rank))

theorem unissued_le (a : Standing) : unissued ≤ a :=
  Nat.zero_le a.rank

theorem le_gone (a : Standing) : a ≤ gone := by
  cases a <;> decide

theorem eq_gone {a : Standing} (h : gone ≤ a) : a = gone := by
  cases a <;> first | rfl | exact absurd h (by decide)

/-- The standing of a registration that was made. -/
def ofEntry (held flagged : Bool) : Standing :=
  if held then (if flagged then .flagged else .active) else .gone

/-- Leaving the list and getting a flag lead on. -/
theorem ofEntry_mono {held held' flagged flagged' : Bool} (hh : held' = true → held = true)
    (hf : flagged = true → flagged' = true) : ofEntry held flagged ≤ ofEntry held' flagged' := by
  cases held' with
  | false => exact le_gone _
  | true =>
    rw [hh rfl]
    cases flagged with
    | false => cases flagged' <;> decide
    | true =>
      rw [hf rfl]
      decide

end Standing

namespace Registry

open Walk

variable {β : Type} [Bus β] {p : Nat → Prop} {r r' s t : Registry β} {i j : Nat}

/-- Whether a registration was given a handle. -/
def issued (r : Registry β) (h : Handle) : Bool :=
  r.entries.any (·.isNamed h)

/-- How far a handle has come. -/
def standing (r : Registry β) (h : Handle) : Standing :=
  if r.issued h then
    match (r.find? h).bind (r.entries[·]?) with
    | none => .gone
    | some e => .ofEntry true e.flagged
  else .unissued

theorem issued_iff {h : Handle} :
    r.issued h = true ↔ ∃ (i : Nat) (e : Entry β), r.entries[i]? = some e ∧ e.handle = h := by
  rw [issued, Array.any_eq_true]
  constructor
  · intro hi
    obtain ⟨i, hlt, hname⟩ := hi
    exact ⟨i, r.entries[i], Array.getElem?_eq_getElem hlt, by simpa [Entry.isNamed] using hname⟩
  · intro hi
    obtain ⟨i, e, he, rfl⟩ := hi
    obtain ⟨hlt, hget⟩ := Array.getElem?_eq_some_iff.mp he
    exact ⟨i, hlt, by simp [Entry.isNamed, hget]⟩

/-- The standing of the handle of a registration. -/
theorem Regular.standing_handle (hr : r.Regular) (hsize : r.entries.size ≤ UInt32.size)
    {e : Entry β} (he : r.entries[i]? = some e) :
    r.standing e.handle = .ofEntry (decide (i ∈ r.listed)) e.flagged := by
  have hissued : r.issued e.handle = true := issued_iff.mpr ⟨i, e, he, rfl⟩
  rw [standing, if_pos hissued, hr.find?_handle hsize he]
  by_cases hi : i ∈ r.listed
  · simp [hi, he]
  · simp [hi, Standing.ofEntry]

/-! ## Questions about handles -/

/-- A registration is reported as registered while it is active. -/
theorem Regular.isRegistered_iff (hr : r.Regular) (hsize : r.entries.size ≤ UInt32.size)
    (h : Handle) : r.isRegistered h = true ↔ r.standing h = .active := by
  have hactive {i : Nat} {e : Entry β} (he : r.entries[i]? = some e) :
      r.standing e.handle = .active ↔ i ∈ r.listed ∧ e.flagged = false := by
    rw [hr.standing_handle hsize he]
    by_cases hi : i ∈ r.listed <;> cases e.flagged <;> simp [hi, Standing.ofEntry]
  rw [isRegistered, Array.any_eq_true']
  constructor
  · intro hany
    obtain ⟨i, hi, hsat⟩ := hany
    obtain ⟨e, he, hnamed⟩ := satisfies_iff.mp hsat
    obtain ⟨hf, rfl⟩ : e.flagged = false ∧ e.handle = h := by
      simpa [Entry.active, Entry.isNamed] using hnamed
    exact (hactive he).mpr ⟨hi, hf⟩
  · intro hstanding
    have hissued : r.issued h = true := by
      by_contra hno
      rw [standing, if_neg hno] at hstanding
      cases hstanding
    obtain ⟨i, e, he, rfl⟩ := issued_iff.mp hissued
    obtain ⟨hi, hf⟩ := (hactive he).mp hstanding
    exact ⟨i, hi, satisfies_iff.mpr ⟨e, he, by simp [Entry.active, Entry.isNamed, hf]⟩⟩

/-- Nothing is told of the devices of an issued handle once it is gone. -/
theorem attached?_eq_none_iff {h : Handle} (hissued : r.issued h = true) :
    r.attached? h = none ↔ r.standing h = .gone := by
  rw [attached?, standing, if_pos hissued]
  cases (r.find? h).bind (r.entries[·]?) with
  | none => simp
  | some e => cases hf : e.flagged <;> simp [Standing.ofEntry, hf]

/-! ## Steps lead on -/

/-- In a step, registrations age and stay at their places. -/
theorem Step.ages (h : Step r r') {e : Entry β} (he : r.entries[i]? = some e) :
    ∃ e', r'.entries[i]? = some e' ∧ e.Ages e' := by
  rcases h.moves with ho | hm
  · exact ⟨e, by rw [ho.entries, he], .refl e⟩
  · exact hm.spares.ages i e he

theorem Steps.ages (h : Steps s t) {e : Entry β} (he : s.entries[i]? = some e) :
    ∃ e', t.entries[i]? = some e' ∧ e.Ages e' := by
  induction h with
  | refl => exact ⟨e, he, .refl e⟩
  | tail _ hstep ih =>
    obtain ⟨e', he', ha⟩ := ih
    obtain ⟨e'', he'', ha'⟩ := hstep.ages he'
    exact ⟨e'', he'', ha.trans ha'⟩

/-- A step lists nobody again. -/
theorem Step.listed (h : Step r r') (hi : i ∈ r'.listed) (hlt : i < r.entries.size) :
    i ∈ r.listed := by
  rcases h.moves with ho | hm
  · cases ho with
    | startSweep =>
      rw [listed_startSweep] at hi
      exact (Array.mem_filter.mp hi).1
    | _ => exact hi
  · exact hm.spares.listed i hi hlt

theorem Steps.listed (h : Steps s t) (hi : i ∈ t.listed) (hlt : i < s.entries.size) :
    i ∈ s.listed := by
  induction h with
  | refl => exact hi
  | tail hsteps hstep ih =>
    exact ih (hstep.listed hi (Nat.lt_of_lt_of_le hlt (Steps.size_le hsteps)))

/-- In a step, every handle keeps its standing or comes further. -/
theorem Step.standing_le (h : Step r r') (hr : r.Regular) (hsize : r'.entries.size ≤ UInt32.size)
    (n : Handle) : r.standing n ≤ r'.standing n := by
  by_cases hissued : r.issued n = true
  · obtain ⟨i, e, he, rfl⟩ := issued_iff.mp hissued
    obtain ⟨e', he', hages⟩ := h.ages he
    have hsize' : r.entries.size ≤ UInt32.size := Nat.le_trans h.size_le hsize
    have hstanding' := (h.regular hr).standing_handle hsize he'
    rw [hages.handle] at hstanding'
    rw [hr.standing_handle hsize' he, hstanding']
    apply Standing.ofEntry_mono
    · intro hi
      exact decide_eq_true (h.listed (of_decide_eq_true hi) (lt_size_of_getElem? he))
    · exact hages.flagged
  · rw [standing, if_neg hissued]
    exact Standing.unissued_le _

theorem Steps.standing_le (h : Steps s t) (hs : s.Regular) (hsize : t.entries.size ≤ UInt32.size)
    (n : Handle) : s.standing n ≤ t.standing n := by
  induction h with
  | refl => exact Nat.le_refl _
  | tail hsteps hstep ih =>
    have hsize' := Nat.le_trans hstep.size_le hsize
    have hregular := Steps.regular hsteps hs
    exact Nat.le_trans (ih hsize') (hstep.standing_le hregular hsize n)

/-- What is issued stays issued. -/
theorem Steps.issued (h : Steps s t) {n : Handle} (hn : s.issued n = true) :
    t.issued n = true := by
  refine h.keeps (P := fun r => r.issued n = true) ?_ hn
  intro r r' hstep hr
  obtain ⟨i, e, he, rfl⟩ := issued_iff.mp hr
  obtain ⟨e', he', hages⟩ := hstep.ages he
  exact issued_iff.mpr ⟨i, e', he', hages.handle⟩

/-- What an issued handle was asked and denied is denied from then on. -/
theorem Steps.denied (h : Steps s t) (hs : s.Regular) (hsize : t.entries.size ≤ UInt32.size)
    {n : Handle} (hn : s.issued n = true) :
    (s.isRegistered n = false → t.isRegistered n = false) ∧
      (s.attached? n = none → t.attached? n = none) := by
  have hle := h.standing_le hs hsize n
  have hsize' : s.entries.size ≤ UInt32.size := Nat.le_trans h.size_le hsize
  constructor
  · intro hno
    by_contra hyes
    have ht := ((h.regular hs).isRegistered_iff hsize n).mp (by simpa using hyes)
    -- Only an unissued handle can still become active.
    have hactive : s.standing n = .active := by
      rw [ht] at hle
      obtain ⟨i, e, he, rfl⟩ := issued_iff.mp hn
      rw [hs.standing_handle hsize' he] at hle ⊢
      revert hle
      cases decide (i ∈ s.listed) <;> cases e.flagged <;> decide
    have hyes' := (hs.isRegistered_iff hsize' n).mpr hactive
    rw [hno] at hyes'
    cases hyes'
  · intro hnone
    rw [attached?_eq_none_iff hn] at hnone
    rw [hnone] at hle
    exact (attached?_eq_none_iff (h.issued hn)).mpr (Standing.eq_gone hle)

/-! ## The order of handles -/

/-- The handle at a place, as a number. -/
theorem Regular.handle_toNat (hr : r.Regular) {e : Entry β} (he : r.entries[i]? = some e)
    (hlt : i + 1 < UInt32.size) : e.handle.val.toNat = i + 1 := by
  rw [hr.handles i e he]
  exact Nat.mod_eq_of_lt hlt

/-- Who is held is registered at a place on the list. -/
theorem mem_held {e : Entry β} : e ∈ r.held ↔ ∃ i ∈ r.listed, r.entries[i]? = some e := by
  simp [held]

/-- The held registrations are in the order of their handles. -/
theorem Regular.held_ascending (hr : r.Regular) (hsize : r.entries.size < UInt32.size) :
    r.held.Pairwise (·.handle < ·.handle) := by
  rw [held, List.pairwise_filterMap]
  apply hr.orderly.ascending.imp
  intro i j hij e he e' he'
  have hi := lt_size_of_getElem? he
  have hj := lt_size_of_getElem? he'
  have hval := hr.handle_toNat he (by omega)
  have hval' := hr.handle_toNat he' (by omega)
  show e.handle.val < e'.handle.val
  rw [UInt32.lt_iff_toNat_lt]
  omega

/-- The handle of a registration lies between one and the next handle. -/
theorem Regular.handle_bounds (hr : r.Regular) (hsize : r.entries.size + 1 < UInt32.size)
    {e : Entry β} (he : r.entries[i]? = some e) :
    1 ≤ e.handle.val ∧ e.handle < r.nextHandle := by
  have hlt := lt_size_of_getElem? he
  have hval := hr.handle_toNat he (by omega)
  have hnext : r.nextHandle.val.toNat = r.entries.size + 1 := Nat.mod_eq_of_lt hsize
  constructor
  · rw [UInt32.le_iff_toNat_le, hval]
    exact Nat.succ_le_succ (Nat.zero_le i)
  · show e.handle.val < r.nextHandle.val
    rw [UInt32.lt_iff_toNat_lt]
    omega

/-- The handle that a client gets names the registration that it made. -/
theorem register_handle (g : Registration β) (r : Registry β) :
    (register g).Ends (fun o r' => ∀ h, o = some (.ok h) → h = r.nextHandle ∧
      ∃ e : Entry β, r'.entries[r.entries.size]? = some e ∧ e.handle = h) r := by
  have hnew {r' : Registry β} (hm : Moves (fun _ => True) (r.enlist g) r') :
      ∃ e : Entry β, r'.entries[r.entries.size]? = some e ∧ e.handle = r.nextHandle := by
    obtain ⟨e, he, hages⟩ := hm.spares.ages _ _ (getElem?_enlist r g)
    exact ⟨e, he, hages.handle⟩
  apply registerWith_ends
  · intro why h hh
    cases hh
  · intro _ _ h hh
    cases hh
    exact ⟨rfl, hnew (.refl _)⟩
  · intro _ why _ h hh
    cases hh
  · intro _ _ ds _
    have hlt := lt_size_of_getElem? (getElem?_enlist_enumerate r g)
    have hopen : Moves (fun _ => True) (r.enlist g)
        ((r.enlist g).enumerate.2.beginReplay r.entries.size r.nextHandle ds) :=
      (Move.enumerate _).moves.trans (Move.beginReplay _ r.nextHandle ds trivial hlt).moves
    apply (replay_moves (tame_run g.onArrived) (p := fun _ => True) (fun _ _ => trivial)
      (Nat.le_refl _) trivial ds).mono
    intro o r' hm h hh
    cases o with
    | none => cases hh
    | some u =>
      cases hh
      exact ⟨rfl, hnew (hopen.trans hm)⟩

/-! ## Sessions -/

/-- Handles are in order: those that are held ascend, they lie between one and the next handle, and
    no two registrations have the same. -/
structure HandlesOrdered (r : Registry β) : Prop where
  ascending : r.held.Pairwise (·.handle < ·.handle)
  bounds : ∀ e ∈ r.held, 1 ≤ e.handle.val ∧ e.handle < r.nextHandle
  unique : ∀ (i j : Nat) (e e' : Entry β), r.entries[i]? = some e → r.entries[j]? = some e' →
    e.handle = e'.handle → i = j

/-- Between two states, every handle keeps its standing or comes further, and what it was denied it
    is denied again. -/
structure HandlesAdvance (s t : Registry β) : Prop where
  standing : ∀ h, s.standing h ≤ t.standing h
  isRegistered : ∀ h, s.issued h = true → s.isRegistered h = false → t.isRegistered h = false
  attached : ∀ h, s.issued h = true → s.attached? h = none → t.attached? h = none

/-- At every point of a session in which handles have not run out, they are in order, and from
    there on they only advance. A registration that is made is given the next handle. -/
theorem handles_advance (b : β) (os : List (Operation β)) :
    Steps { bus := b } (afterAll { bus := b } os) ∧
    (∀ s : Registry β, Steps { bus := b } s → s.entries.size < UInt32.size - 1 →
      s.HandlesOrdered ∧
      ∀ t : Registry β, Steps s t → t.entries.size < UInt32.size - 1 → s.HandlesAdvance t) ∧
    ∀ (s t : Registry β) (g : Registration β) (h : Handle), (register g).run s = .ok (.ok h) t →
      h = s.nextHandle ∧ ∃ e : Entry β, t.entries[s.entries.size]? = some e ∧ e.handle = h := by
  refine ⟨afterAll_steps _ os, ?_, ?_⟩
  · intro s hs hsize
    have hr := hs.regular (regular_fresh b)
    refine ⟨⟨hr.held_ascending (by omega), ?_, ?_⟩, ?_⟩
    · intro e he
      obtain ⟨i, -, hi⟩ := mem_held.mp he
      exact hr.handle_bounds (by omega) hi
    · intro i j e e' he he' hh
      exact hr.place_eq (by omega) he he' hh
    · intro t hst hsize'
      have hle : t.entries.size ≤ UInt32.size := by omega
      exact ⟨hst.standing_le hr hle, fun h hh => (hst.denied hr hle hh).1,
        fun h hh => (hst.denied hr hle hh).2⟩
  · intro s t g h hrun
    exact (register_handle g s).of_ok hrun h rfl

/-- A registration whose callback, told of a device in the replay, makes another one, deregisters
    its own and panics. -/
def succession : List (Operation MemoryBus) :=
  let g : Registration MemoryBus :=
    { Registration.listener { enumerate := true } with
      onArrived _ _ := .register {} .both (fun _ _ => .finish .keep) (fun _ _ => .finish .keep)
        fun _ => .act (.deregister ⟨1⟩) fun _ => .panic }
  [.act (.bus (.plug (MemoryBus.sample 1))), .register g]

/-- A third registration that is taken off again, and the sweep of the first. -/
def aftermath : List (Operation MemoryBus) :=
  [.act (.bus (.setFailing true)), .register (.listener { enumerate := true }), .sweep]

theorem handles_advance_succession :
    let s := afterAll { bus := ({} : MemoryBus) } succession
    let t := s.afterAll aftermath
    let handles : List Handle := [⟨1⟩, ⟨2⟩, ⟨3⟩, ⟨4⟩]
    Steps { bus := {} } s ∧ s.entries.size < UInt32.size - 1 ∧ Steps s t ∧
      t.entries.size < UInt32.size - 1 ∧
      handles.map s.standing = [.flagged, .active, .unissued, .unissued] ∧
      handles.map t.standing = [.gone, .active, .gone, .unissued] ∧
      s.HandlesOrdered ∧ s.HandlesAdvance t := by
  intro s t handles
  obtain ⟨hs, hall, -⟩ := handles_advance ({} : MemoryBus) succession
  have hst : Steps s t := afterAll_steps s aftermath
  have hsize : s.entries.size < UInt32.size - 1 := by decide +kernel
  have hsize' : t.entries.size < UInt32.size - 1 := by decide +kernel
  obtain ⟨hordered, hadvance⟩ := hall s hs hsize
  exact ⟨hs, hsize, hst, hsize', by decide +kernel, by decide +kernel, hordered,
    hadvance t hst hsize'⟩

end Registry

end PlugWatch
