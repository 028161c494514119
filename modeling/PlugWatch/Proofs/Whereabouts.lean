import PlugWatch.Proofs.Conduct
import PlugWatch.Proofs.Lifecycle

/-! # How the list grows

  What scripts register goes to the end of the list, in order. If the devices present turn out to be
  unknown, the registration is taken off again before its client hears of it; otherwise it was
  **admitted**, and stays on the list like all others. So whatever scripts do, short of destroying
  all registrations, the list becomes longer by those that were admitted.

  A registration is taken off again by its handle. All this is true as long as no handle is given
  again while a registration that has it is held.
-/

namespace PlugWatch

/-- Whether the devices present are about to be offered to the new registration at a place. -/
def Happening.replays (i : Nat) : Happening → Bool
  | replayed j _ => j == i
  | _ => false

namespace Registry

open Walk

variable {β : Type} [Bus β] {p : Nat → Prop} {r r' r'' : Registry β} {i n : Nat}
  {hs : List Happening}

/-! ## Admission -/

/-- Whether a registration was made for good: its filter asks for no replay, or the devices present
    were known and the replay began. -/
def admitted (r : Registry β) (i : Nat) : Bool :=
  r.satisfies (!·.filter.enumerate) i || r.history.any (·.replays i)

/-- The registrations from a place on that were made for good, in order. -/
def admittedFrom (r : Registry β) (n : Nat) : List Nat :=
  (List.range' n (r.entries.size - n)).filter r.admitted

/-- Whoever is listed, or was replayed to, is there. -/
structure Placed (r : Registry β) : Prop where
  listed : ∀ i ∈ r.listed, i < r.entries.size
  replayed : ∀ i, r.history.any (·.replays i) = true → i < r.entries.size

theorem Consistent.placed (h : r.Consistent) : r.Placed where
  listed := h.orderly.taken
  replayed i hi := by
    obtain ⟨x, hx, hreplays⟩ := Array.any_eq_true'.mp hi
    cases x with
    | replayed j ds =>
      have hij : j = i := by simpa [Happening.replays] using hreplays
      subst hij
      exact h.known _ (Array.mem_toList_iff.mpr hx)
    | _ => cases hreplays

theorem any_replays_append (hh : r'.history.toList = r.history.toList ++ hs) (i : Nat) :
    r'.history.any (·.replays i) = (r.history.any (·.replays i) || hs.any (·.replays i)) := by
  rw [← Array.any_toList, hh, List.any_append, Array.any_toList]

/-- What happens besides does not matter for whether a registration was made for good. -/
theorem admitted_eq (hages : ∀ e, r.entries[i]? = some e →
      ∃ e', r'.entries[i]? = some e' ∧ e.Ages e') (hlt : i < r.entries.size)
    (hh : r'.history.toList = r.history.toList ++ hs) (hn : hs.any (·.replays i) = false) :
    r'.admitted i = r.admitted i := by
  have he := Array.getElem?_eq_getElem hlt
  obtain ⟨e', he', ha⟩ := hages _ he
  unfold admitted satisfies
  rw [he, he', any_replays_append hh, hn, Bool.or_false, Option.any_some, Option.any_some,
    ha.registration]

theorem admittedFrom_split (hn : n ≤ r.entries.size) (hle : r.entries.size ≤ r'.entries.size)
    (h : ∀ i < r.entries.size, r'.admitted i = r.admitted i) :
    r'.admittedFrom n = r.admittedFrom n ++ r'.admittedFrom r.entries.size := by
  have hsplit : List.range' n (r'.entries.size - n) =
      List.range' n (r.entries.size - n) ++
        List.range' r.entries.size (r'.entries.size - r.entries.size) := by
    have hend : n + 1 * (r.entries.size - n) = r.entries.size := by omega
    have hlen : r'.entries.size - n =
        (r.entries.size - n) + (r'.entries.size - r.entries.size) := by omega
    rw [hlen, ← List.range'_append, hend]
  unfold admittedFrom
  rw [hsplit, List.filter_append]
  congr 1
  apply List.filter_congr
  intro i hi
  have hlt : i < r.entries.size := by
    have hrange := List.mem_range'_1.mp hi
    omega
  exact h i hlt

theorem admittedFrom_of_size (h : r'.entries.size = r.entries.size) :
    r'.admittedFrom r.entries.size = [] := by
  simp [admittedFrom, h]

theorem admittedFrom_of_succ (h : r'.entries.size = r.entries.size + 1) :
    r'.admittedFrom r.entries.size =
      if r'.admitted r.entries.size then [r.entries.size] else [] := by
  have hone : r'.entries.size - r.entries.size = 1 := by omega
  rw [admittedFrom, hone, List.range'_one, List.filter_cons, List.filter_nil]

/-! ## Handles -/

/-- A registration is held or not made yet. -/
def Relevant (r : Registry β) (i : Nat) : Prop :=
  i ∈ r.listed ∨ r.entries.size ≤ i

theorem Spares.relevant (h : Spares p r r') (hi : r'.Relevant i) : r.Relevant i := by
  by_cases hlt : i < r.entries.size
  · left
    rcases hi with hi | hi
    · exact h.listed i hi hlt
    · have hle := h.size_le
      omega
  · exact .inr (Nat.not_lt.mp hlt)

/-- Those that were held in an earlier state, and those made since, have different handles. -/
def Unambiguous (r r' : Registry β) : Prop :=
  ∀ (i j : Nat) (e e' : Entry β), r'.entries[i]? = some e → r'.entries[j]? = some e' →
    r.Relevant i → r.Relevant j → e.handle = e'.handle → i = j

namespace Unambiguous

/-- Handles are different as long as they have not wrapped. -/
theorem of_size (h : r'.Regular) (hsize : r'.entries.size ≤ UInt32.size) : Unambiguous r r' :=
  fun _ _ _ _ he he' _ _ hh => h.place_eq hsize he he' hh

theorem before (h : Unambiguous r r'') (hs : Spares p r' r'') : Unambiguous r r' := by
  intro i j e e' he he' hi hj hh
  obtain ⟨a, ha, hages⟩ := hs.ages i e he
  obtain ⟨a', ha', hages'⟩ := hs.ages j e' he'
  exact h i j a a' ha ha' hi hj (by rw [hages.handle, hages'.handle, hh])

theorem after (h : Unambiguous r r'') (hrelevant : ∀ i, r'.Relevant i → r.Relevant i) :
    Unambiguous r' r'' :=
  fun i j e e' he he' hi hj hh => h i j e e' he he' (hrelevant i hi) (hrelevant j hj) hh

end Unambiguous

/-! ## Growth -/

/-- Unless all registrations are destroyed meanwhile, the list becomes longer by those that are
    admitted. -/
structure Grows (r r' : Registry β) : Prop where
  placed : r'.Placed
  spares : Spares (fun _ => True) r r'
  admitted : ∀ i < r.entries.size, r'.admitted i = r.admitted i
  listed : ∃ hs, r'.history.toList = r.history.toList ++ hs ∧
    ((∀ is, .destroyed is ∉ hs) → Unambiguous r r' →
      r'.listed.toList = r.listed.toList ++ r'.admittedFrom r.entries.size)

namespace Grows

theorem trans (h : Grows r r') (h' : Grows r' r'') : Grows r r'' where
  placed := h'.placed
  spares := h.spares.trans h'.spares
  admitted i hi :=
    (h'.admitted i (Nat.lt_of_lt_of_le hi h.spares.size_le)).trans (h.admitted i hi)
  listed := by
    obtain ⟨hs, hh, hl⟩ := h.listed
    obtain ⟨hs', hh', hl'⟩ := h'.listed
    refine ⟨hs ++ hs', by rw [hh', hh, List.append_assoc], ?_⟩
    intro hd ha
    have hfirst := hl (fun is hm => hd is (by simp [hm])) (ha.before h'.spares)
    have hrest := hl' (fun is hm => hd is (by simp [hm]))
      (ha.after fun _ hi => h.spares.relevant hi)
    rw [hrest, hfirst, List.append_assoc,
      ← admittedFrom_split h.spares.size_le h'.spares.size_le h'.admitted]

/-- Nobody is registered. -/
theorem of_news (hr : r.Placed) (hs : Spares (fun _ => True) r r')
    (hsize : r'.entries.size = r.entries.size) {xs : List Happening}
    (hh : r'.history.toList = r.history.toList ++ xs) (hx : ∀ x ∈ xs, ∀ i, x.replays i = false)
    (hsub : ∀ i ∈ r'.listed, i ∈ r.listed)
    (hl : (∀ is, .destroyed is ∉ xs) → r'.listed = r.listed) : Grows r r' := by
  have hnone (i : Nat) : xs.any (·.replays i) = false :=
    List.any_eq_false.mpr fun x hm => by simp [hx x hm i]
  refine ⟨⟨?_, ?_⟩, hs, ?_, xs, hh, ?_⟩
  · intro i hi
    rw [hsize]
    exact hr.listed i (hsub i hi)
  · intro i hi
    rw [any_replays_append hh, hnone, Bool.or_false] at hi
    rw [hsize]
    exact hr.replayed i hi
  · exact fun i hi => admitted_eq (hs.ages i) hi hh (hnone i)
  · intro hd _
    rw [hl hd, admittedFrom_of_size hsize, List.append_nil]

/-- A registration is made, and has either come to the list or gone from it again. -/
theorem of_made (hr : r.Placed) (hs : Spares (fun _ => True) r r')
    (hsize : r'.entries.size = r.entries.size + 1) {xs : List Happening}
    (hh : r'.history.toList = r.history.toList ++ xs)
    (hx : ∀ x ∈ xs, ∀ i, x.replays i = true → i = r.entries.size)
    (hsub : ∀ i ∈ r'.listed, i ∈ r.listed ∨ i = r.entries.size)
    (hl : Unambiguous r r' → r'.listed.toList = r.listed.toList ++
      if r'.admitted r.entries.size then [r.entries.size] else []) : Grows r r' := by
  refine ⟨⟨?_, ?_⟩, hs, ?_, xs, hh, ?_⟩
  · intro i hi
    rcases hsub i hi with hi | rfl
    · have hlt := hr.listed i hi
      omega
    · omega
  · intro i hi
    rw [any_replays_append hh, Bool.or_eq_true] at hi
    rcases hi with hi | hi
    · have hlt := hr.replayed i hi
      omega
    · obtain ⟨x, hm, hreplays⟩ := List.any_eq_true.mp hi
      have heq := hx x hm i hreplays
      omega
  · intro i hi
    refine admitted_eq (hs.ages i) hi hh (List.any_eq_false.mpr ?_)
    intro x hm hreplays
    have heq := hx x hm i hreplays
    omega
  · intro _ ha
    rw [hl ha, admittedFrom_of_succ hsize]

end Grows

/-! ## Registering -/

theorem news_failed (r : Registry β) (g : Registration β) (why : Failure) :
    ∃ xs, ((r.enlist g).enumerate.2.rollBack r.entries.size r.nextHandle why).history.toList =
      r.history.toList ++ xs ∧ ∀ x ∈ xs, ∀ i, x.replays i = false := by
  obtain ⟨l, hh⟩ := (r.enlist g).enumerate.2.history_rollBack r.entries.size r.nextHandle why
  rw [history_enlist_enumerate, List.append_assoc] at hh
  refine ⟨_, hh, ?_⟩
  intro x hx i
  simp only [List.cons_append, List.mem_cons, List.mem_append, List.mem_map, List.not_mem_nil,
    or_false] at hx
  rcases hx with rfl | rfl | ⟨e, -, rfl⟩ | rfl | rfl <;> rfl

theorem news_begun (r : Registry β) (g : Registration β) (h : Handle) (ds : List Device) :
    ∃ xs, ((r.enlist g).enumerate.2.beginReplay r.entries.size h ds).history.toList =
      r.history.toList ++ xs ∧ .replayed r.entries.size ds ∈ xs ∧
      ∀ x ∈ xs, ∀ i, x.replays i = true → i = r.entries.size := by
  obtain ⟨l, hh⟩ := (r.enlist g).enumerate.2.history_beginReplay r.entries.size h ds
  rw [history_enlist_enumerate, List.append_assoc] at hh
  refine ⟨_, hh, by simp, ?_⟩
  intro x hx i hreplays
  simp only [List.cons_append, List.mem_cons, List.mem_append, List.mem_map, List.not_mem_nil,
    or_false] at hx
  rcases hx with rfl | rfl | ⟨e, -, rfl⟩ | rfl | rfl
  case inr.inr.inr.inl => exact (beq_iff_eq.mp hreplays).symm
  all_goals cases hreplays

theorem admitted_listed (r : Registry β) {g : Registration β} (hn : g.filter.enumerate = false) :
    (r.enlist g).admitted r.entries.size = true := by
  simp [admitted, satisfies, getElem?_enlist, newEntry, hn]

theorem not_admitted_failed (hr : r.Placed) {g : Registration β} (hn : g.filter.enumerate = true)
    (why : Failure) :
    ((r.enlist g).enumerate.2.rollBack r.entries.size r.nextHandle why).admitted
      r.entries.size = false := by
  obtain ⟨xs, hh, hx⟩ := r.news_failed g why
  have hentry : ((r.enlist g).enumerate.2.rollBack r.entries.size r.nextHandle why).entries[
      r.entries.size]? = some { r.newEntry g with flagged := true } :=
    getElem?_flag (Registry.log _ _ _) r.entries.size (getElem?_enlist_enumerate r g)
  have hold : r.history.any (·.replays r.entries.size) = false := by
    by_contra hyes
    exact absurd (hr.replayed _ (by simpa using hyes)) (Nat.lt_irrefl _)
  have hnew : xs.any (·.replays r.entries.size) = false :=
    List.any_eq_false.mpr fun x hm => by simp [hx x hm]
  rw [admitted, satisfies, hentry, any_replays_append hh, hold, hnew]
  simp [newEntry, hn]

theorem admitted_begun (r : Registry β) (g : Registration β) (h : Handle) (ds : List Device) :
    ((r.enlist g).enumerate.2.beginReplay r.entries.size h ds).admitted r.entries.size = true := by
  obtain ⟨xs, hh, hm, -⟩ := r.news_begun g h ds
  have hnew : xs.any (·.replays r.entries.size) = true :=
    List.any_eq_true.mpr ⟨_, hm, by simp [Happening.replays]⟩
  rw [admitted, any_replays_append hh, hnew, Bool.or_true, Bool.or_true]

theorem Grows.listed_one (hr : r.Placed) {g : Registration β} (hn : g.filter.enumerate = false) :
    Grows r (r.enlist g) := by
  obtain ⟨l, hh⟩ := r.history_enlist g
  refine .of_made hr (Spares.enlist r g trivial) (size_enlist r g) hh ?_ ?_ ?_
  · simp [Happening.replays]
  · intro i hi
    simpa [Registry.enlist] using hi
  · intro _
    rw [admitted_listed r hn]
    simp [Registry.enlist]

/-- Nobody but the new registration goes off the list. -/
theorem listed_failed (hr : r.Placed) (g : Registration β) (why : Failure)
    (ha : Unambiguous r ((r.enlist g).enumerate.2.rollBack r.entries.size r.nextHandle why)) :
    ((r.enlist g).enumerate.2.rollBack r.entries.size r.nextHandle why).listed.toList =
      r.listed.toList := by
  let s := (r.enlist g).enumerate.2
  have hown : (s.flag r.entries.size).entries[r.entries.size]? =
      some { r.newEntry g with flagged := true } :=
    s.getElem?_flag r.entries.size (getElem?_enlist_enumerate r g)
  have hothers : ∀ i ∈ r.listed.toList,
      (!(s.flag r.entries.size).satisfies (·.isNamed r.nextHandle) i) = true := by
    intro i hi
    rw [Bool.not_eq_true', ← Bool.not_eq_true]
    intro hnamed
    obtain ⟨e, he, hname⟩ := satisfies_iff.mp hnamed
    have hlt := hr.listed i (Array.mem_toList_iff.mp hi)
    have hsame := ha i r.entries.size e _ he hown (.inl (Array.mem_toList_iff.mp hi))
      (.inr (Nat.le_refl _)) (by simpa [Entry.isNamed, newEntry] using hname)
    omega
  have hlisted : (s.rollBack r.entries.size r.nextHandle why).listed =
      s.listed.filter fun i => !(s.flag r.entries.size).satisfies (·.isNamed r.nextHandle) i := rfl
  have hpush : s.listed = r.listed.push r.entries.size := listed_enumerate (r.enlist g)
  rw [hlisted, hpush, Array.toList_filter, Array.toList_push, List.filter_append,
    List.filter_eq_self.mpr hothers]
  simp [satisfies, hown, Entry.isNamed, newEntry]

theorem Grows.failed (hr : r.Placed) {g : Registration β} (hn : g.filter.enumerate = true)
    (why : Failure) :
    Grows r ((r.enlist g).enumerate.2.rollBack r.entries.size r.nextHandle why) := by
  obtain ⟨xs, hh, hx⟩ := r.news_failed g why
  have hrolled : Spares (fun _ => True) (r.enlist g).enumerate.2 _ :=
    (Move.rollBack _ why trivial (getElem?_enlist_enumerate r g)).spares
  refine .of_made hr ((Spares.enlist r g trivial).trans ((Spares.enumerate _).trans hrolled))
    (by simp [rollBack, unlist, size_enlist]) hh ?_ ?_ ?_
  · intro x hm i hreplays
    rw [hx x hm i] at hreplays
    cases hreplays
  · intro i hi
    rw [mem_listed_rollBack, listed_enumerate] at hi
    simpa [Registry.enlist] using hi.1
  · intro ha
    rw [not_admitted_failed hr hn, listed_failed hr g why ha]
    simp

theorem Grows.begun (hr : r.Placed) (g : Registration β) (h : Handle) (ds : List Device) :
    Grows r ((r.enlist g).enumerate.2.beginReplay r.entries.size h ds) := by
  obtain ⟨xs, hh, -, hx⟩ := r.news_begun g h ds
  have hbegun : Spares (fun _ => True) (r.enlist g).enumerate.2 _ :=
    (Move.beginReplay _ h ds trivial (lt_size_of_getElem? (getElem?_enlist_enumerate r g))).spares
  refine .of_made hr ((Spares.enlist r g trivial).trans ((Spares.enumerate _).trans hbegun))
    (by simp [beginReplay, size_enlist]) hh hx ?_ ?_
  · intro i hi
    simpa [Registry.enlist, beginReplay] using hi
  · intro _
    rw [admitted_begun]
    simp [Registry.enlist, beginReplay]

/-- Unless it destroys all registrations, an action leaves the list alone. -/
theorem listed_perform_eq (a : Action β)
    (hh : (r.perform a).2.history.toList = r.history.toList ++ hs)
    (hd : ∀ is, .destroyed is ∉ hs) : (r.perform a).2.listed = r.listed := by
  have hdestroyed {s : Registry β} (xs : List Happening)
      (hs' : s.history.toList = r.deregisterAll.2.history.toList ++ xs)
      (heq : s.history.toList = r.history.toList ++ hs) : False := by
    have hnote : ∃ ys, r.deregisterAll.2.history.toList =
        r.history.toList ++ .destroyed r.listed.toList :: ys := by
      rcases r.deregisterAll_cases with hr | ⟨level, message, hr⟩
      · exact ⟨[], by rw [hr, history_record]⟩
      · exact ⟨[.logged _], by rw [hr, history_log, history_record, List.append_assoc]; rfl⟩
    obtain ⟨ys, hys⟩ := hnote
    rw [hs', hys, List.append_assoc] at heq
    have hcancel := List.append_cancel_left heq
    exact hd r.listed.toList (by simp [← hcancel])
  cases a with
  | deregisterAll => exact (hdestroyed [] (List.append_nil _).symm hh).elim
  | teardown => exact (hdestroyed _ (history_record _ _) hh).elim
  | bus c => exact listed_busCommand r c
  | _ => simp [perform]

/-- No registration at a place with `p` has the handle of the one at `i`. -/
def Unshared (p : Nat → Prop) (r : Registry β) (i : Nat) : Prop :=
  ∀ (j : Nat) (e e' : Entry β), p j → r.entries[i]? = some e → r.entries[j]? = some e' →
    e.handle ≠ e'.handle

/-- Handles are not shared as long as they have not wrapped. -/
theorem Regular.unshared (hr : r.Regular) (hsize : r.entries.size ≤ UInt32.size) (hi : ¬ p i) :
    r.Unshared p i := by
  intro j e e' hj he he' hsame
  exact hi (hr.place_eq hsize he he' hsame ▸ hj)

theorem Unshared.before (h : r'.Unshared p i) (ha : ∀ (j : Nat) (e : Entry β),
    r.entries[j]? = some e → ∃ e', r'.entries[j]? = some e' ∧ e.Ages e') : r.Unshared p i := by
  intro j e e' hj he he' hsame
  obtain ⟨a, hi, hage⟩ := ha i e he
  obtain ⟨a', hj', hage'⟩ := ha j e' he'
  exact h j a a' hj hi hj' (by rw [hage.handle, hage'.handle, hsame])

/-- Nobody leaves the list in a move, unless all registrations are destroyed, or one that the move is
    about has the same handle. -/
theorem Move.remains (h : Move p r r') (hu : r'.Unshared p i)
    (hh : r'.history.toList = r.history.toList ++ hs) (hd : ∀ is, .destroyed is ∉ hs)
    (hi : i ∈ r.listed) : i ∈ r'.listed := by
  cases h with
  | @rollBack j e why hj he =>
    have hown : (r.rollBack j e.handle why).entries[j]? = some { e with flagged := true } :=
      getElem?_flag (Registry.log _ _ _) j he
    rw [mem_listed_rollBack, ← Bool.not_eq_true]
    refine ⟨hi, ?_⟩
    intro hnamed
    obtain ⟨e', he', hname⟩ := satisfies_iff.mp hnamed
    exact hu j e' _ hj he' hown (by simpa [Entry.isNamed] using hname)
  | perform a =>
    rw [listed_perform_eq a hh hd]
    exact hi
  | enlist g hg hj => exact Array.mem_push.mpr (.inl hi)
  | enumerate => rwa [listed_enumerate]
  | @drop j d hj hlt =>
    show i ∈ (dismiss _ j d.id).listed
    rwa [listed_dismiss]
  | _ => exact hi

/-- What happens on the way is what happens on its parts, one after the other. -/
theorem news_split {xs ys : List Happening} (hx : r.history.toList ++ xs = r'.history.toList)
    (hy : r'.history.toList ++ ys = r''.history.toList)
    (hh : r''.history.toList = r.history.toList ++ hs) : hs = xs ++ ys := by
  rw [← hy, ← hx, List.append_assoc] at hh
  exact (List.append_cancel_left hh).symm

theorem Moves.remains (h : Moves p r r') (hu : r'.Unshared p i)
    (hh : r'.history.toList = r.history.toList ++ hs) (hd : ∀ is, .destroyed is ∉ hs)
    (hi : i ∈ r.listed) : i ∈ r'.listed := by
  induction h generalizing hs with
  | refl => exact hi
  | @tail s s' hms hm ih =>
    obtain ⟨ys, hys⟩ := Moves.news hms
    obtain ⟨zs, hzs⟩ := hm.news
    have hsplit : hs = ys ++ zs := news_split hys hzs hh
    have hlisted := ih (hu.before hm.spares.ages) hys.symm
      fun is hmem => hd is (by simp [hsplit, hmem])
    exact hm.remains hu hzs.symm (fun is hmem => hd is (by simp [hsplit, hmem])) hlisted

/-- Scripts do nothing else to the list. -/
theorem governs_grows : Governs fun r r' : Registry β => r.Placed → Grows r r' where
  refl r hr := .of_news hr (.refl r) rfl (List.append_nil _).symm (by simp) (fun _ hi => hi)
    fun _ => rfl
  trans h h' hr := (h hr).trans (h' (h hr).placed)
  perform r a hr := by
    obtain ⟨xs, hh, hw⟩ := (Spares.perform (p := fun _ => False) r a).news
    refine .of_news hr (.perform r a) (size_perform r a) hh ?_ ?_ ?_
    · intro x hx i
      have hwithin := hw x hx
      cases x with
      | replayed j ds => exact hwithin.elim
      | _ => rfl
    · intro i hi
      have hmem := (listed_perform r a).subset (Array.mem_toList_iff.mpr hi)
      exact Array.mem_toList_iff.mp hmem
    · exact fun hd => listed_perform_eq a hh hd
  log r level message hr :=
    .of_news hr (.log r level message) rfl (history_log r level message)
      (by simp [Happening.replays]) (fun _ hi => hi) fun _ => rfl
  alter r i f hf hr := .of_news hr (.update_of r hf trivial) (by simp) (List.append_nil _).symm
    (by simp) (fun _ hi => hi) fun _ => rfl
  dismiss r i id hr := by
    obtain ⟨xs, hh, hx⟩ := r.history_dismiss i id
    refine .of_news hr (.dismiss r trivial id) (by simp) hh ?_ (by simp) (by simp)
    intro x hm j
    rcases hx x hm with rfl | ⟨l, rfl⟩ <;> rfl
  call {r r' i c d} h v hr := by
    have hentered : Grows r (r.enter i c d) := by
      have hages (e : Entry β) : e.Ages (e.countCall c) := by
        cases c <;> exact ⟨rfl, rfl, id⟩
      refine .of_news hr ((Spares.update_of r hages trivial).trans (.record _ _ trivial))
        (by simp [enter]) (history_record _ _) ?_ (fun _ hi => hi) fun _ => rfl
      simp [Happening.replays]
    have hbody := h hentered.placed
    refine (hentered.trans hbody).trans (.of_news hbody.placed (.record _ _ trivial) rfl
      (history_record _ _) ?_ (fun _ hi => hi) fun _ => rfl)
    simp [Happening.replays]
  listed r g hn hr := .listed_one hr hn
  failed r g hn why hr := .failed hr hn why
  begun r g _ ds hr := .begun hr g r.nextHandle ds

/-- Whether a client got a handle for what it registered is whether that was admitted. -/
theorem register_admitted (hr : r.Placed) (g : Registration β) :
    (register g).Ends (fun o r' => ∀ answer, o = some answer → (answer.isOk = true ↔
      r.entries.size < r'.entries.size ∧ r'.admitted r.entries.size = true)) r := by
  have hfailed {why : Failure} : (Except.error why : Except Failure Handle).isOk = false := rfl
  apply registerWith_decides
  · intro _ answer ho
    cases ho
    simp [hfailed]
  · intro _ fault _ answer ho
    cases ho
    simp [hfailed]
  · intro _ _ hn answer ho
    cases ho
    simp [admitted_listed r hn, size_enlist, Except.isOk, Except.toBool]
  · intro _ _ hn why _ answer ho
    cases ho
    simp [not_admitted_failed hr hn, hfailed]
  · intro _ _ _ ds _
    have hbegun := Grows.begun hr g r.nextHandle ds
    have hlt := r.lt_size_replaying g r.nextHandle ds
    apply Ends.mono (replay_leads governs_grows (fun k d r => run_leads governs_grows _ r)
      r.entries.size ds _)
    intro o r' h answer ho
    cases o with
    | none => cases ho
    | some u =>
      cases ho
      have hgrows := h rfl hbegun.placed
      have hadmitted := hgrows.admitted _ hlt
      rw [admitted_begun] at hadmitted
      have hlt' := Nat.lt_of_lt_of_le hlt hgrows.spares.size_le
      simp [hadmitted, hlt', Except.isOk, Except.toBool]

/-! ## Sessions -/

theorem Step.consistent (h : Step r r') (hr : r.Consistent) : r'.Consistent := by
  cases h with
  | opening ho =>
    cases ho with
    | dispatched d c => exact (Opens.dispatched r d c).consistent hr
    | woken hm => exact (Opens.taken r _ _).consistent hr
    | received hm => exact ((Opens.taken r _ _).trans (.dispatched _ _ _)).consistent hr
    | startSweep => exact (Opens.startSweep hr.orderly).consistent hr
  | aside hm => exact hm.consistent hr
  | of hs => exact hs.moves.consistent hr

theorem Steps.consistent (h : Steps r r') (hr : r.Consistent) : r'.Consistent :=
  h.keeps Step.consistent hr

end Registry

end PlugWatch
