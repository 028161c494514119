import PlugWatch.Proofs.Turn

/-! # What holds of every place

  Many invariants are about one registration at a time. Such a property of a place is **stable**
  if no move disturbs it that does not call the registration there. A **place invariant** is a
  stable property that every registration has once it is made. Scripts then keep it at all places
  that are there when they start, and establish it at those they make, however callbacks are
  nested; the induction for this is done here.

  A walk over registrations turns one stable property into another, place by place: before its
  turn a registration has the first property, afterwards the second. The flag of a property tells
  whether no callback has panicked.
-/

namespace PlugWatch

namespace Registry

open Walk

variable {β : Type} [Bus β] {α γ : Type} {p : Nat → Prop} {r r' r'' : Registry β}

/-! ## Order -/

/-- The list holds places of registrations, in ascending order. -/
structure Orderly (r : Registry β) : Prop where
  ascending : r.listed.toList.Pairwise (· < ·)
  taken : ∀ i ∈ r.listed, i < r.entries.size

/-- A move makes a registration, or adds nothing to the list. -/
theorem Move.lists (h : Move p r r') :
    (r'.entries.size = r.entries.size ∧ r'.listed.toList.Sublist r.listed.toList) ∨
      ∃ g : Registration β, g.check = .ok () ∧ p r.entries.size ∧ r' = r.enlist g := by
  cases h with
  | enlist g hg hi => exact .inr ⟨g, hg, hi, rfl⟩
  | perform a => exact .inl ⟨size_perform r a, listed_perform r a⟩
  | rollBack why hi he =>
    exact .inl ⟨by simp [Registry.rollBack, unlist], by simp [Registry.rollBack, unlist]⟩
  | drop d hi hlt => exact .inl ⟨by simp [Registry.drop], by simp [Registry.drop]⟩
  | keep d hi hlt => exact .inl ⟨by simp [Registry.keep], by simp [Registry.keep]⟩
  | enter c d hi hlt => exact .inl ⟨by simp [Registry.enter], by simp [Registry.enter]⟩
  | beginReplay h ds hi hlt => exact .inl ⟨rfl, List.Sublist.refl _⟩
  | _ => exact .inl ⟨by simp, by simp⟩

/-- An entry was there before, or was just made. -/
theorem Move.origin (h : Move p r r') {i : Nat} {e' : Entry β}
    (he' : r'.entries[i]? = some e') : (∃ e, r.entries[i]? = some e ∧ e.Ages e') ∨
      i = r.entries.size ∧ ∃ g : Registration β, r' = r.enlist g ∧ e' = r.newEntry g := by
  by_cases hlt : i < r.entries.size
  · left
    have he := Array.getElem?_eq_getElem hlt
    obtain ⟨e'', he'', hages⟩ := h.spares.ages i _ he
    cases Option.some.inj (he''.symm.trans he')
    exact ⟨_, he, hages⟩
  · right
    have hlt' := lt_size_of_getElem? he'
    rcases h.lists with ⟨hsize, -⟩ | ⟨g, -, -, rfl⟩
    · omega
    · have hsize := size_enlist r g
      have hi : i = r.entries.size := by omega
      subst hi
      rw [getElem?_enlist] at he'
      exact ⟨rfl, g, rfl, (Option.some.inj he').symm⟩

theorem Orderly.of_sublist (h : r.Orderly) (hs : r'.entries.size = r.entries.size)
    (hl : r'.listed.toList.Sublist r.listed.toList) : r'.Orderly where
  ascending := h.ascending.sublist hl
  taken i hi := by
    have hmem : i ∈ r.listed := Array.mem_toList_iff.mp (hl.subset (Array.mem_toList_iff.mpr hi))
    rw [hs]
    exact h.taken i hmem

theorem Orderly.enlist (h : r.Orderly) (g : Registration β) : (r.enlist g).Orderly where
  ascending := by
    have hlt : ∀ i ∈ r.listed.toList, i < r.entries.size := by simpa using h.taken
    have happ : (r.listed.toList ++ [r.entries.size]).Pairwise (· < ·) := by
      refine List.pairwise_append.mpr ⟨h.ascending, List.pairwise_singleton _ _, ?_⟩
      intro i hi j hj
      rw [List.mem_singleton.mp hj]
      exact hlt i hi
    simpa [Registry.enlist] using happ
  taken i hi := by
    have hmem : i ∈ r.listed ∨ i = r.entries.size := by simpa [Registry.enlist] using hi
    have hsize := size_enlist r g
    rcases hmem with hi | hi
    · have hlt := h.taken i hi
      omega
    · omega

theorem Move.orderly (h : Move p r r') (hr : r.Orderly) : r'.Orderly := by
  rcases h.lists with ⟨hs, hl⟩ | ⟨g, -, -, rfl⟩
  · exact hr.of_sublist hs hl
  · exact hr.enlist g

/-- Nothing is listed twice, so no walk offers anything twice. -/
theorem Orderly.nodup_places (h : r.Orderly) (t : Entry β → Bool) : (r.places t).Nodup := by
  have hsub : (r.places t).Sublist r.listed.toList := by simp [places]
  exact (h.ascending.sublist hsub).imp Nat.ne_of_lt

theorem mem_places {t : Entry β → Bool} {i : Nat} :
    i ∈ r.places t ↔ i ∈ r.listed ∧ ∃ e, r.entries[i]? = some e ∧ t e = true := by
  simp [places, satisfies, Option.any_eq_true]

/-! ## Stable properties -/

/-- A property of places that is not disturbed by moves that do not call the registration there,
    as long as a property of the whole registry holds, which every move keeps. -/
structure Stable (G : Registry β → Prop) (P : Bool → Registry β → Nat → Prop) : Prop where
  overall : ∀ {p : Nat → Prop} {r r' : Registry β}, Move p r r' → G r → G r'
  weaken : ∀ {r : Registry β} {i : Nat}, P true r i → P false r i
  spared : ∀ {p : Nat → Prop} {r r' : Registry β} {b : Bool} {i : Nat}, G r → Move p r r' →
    ¬ p i → i < r.entries.size → P b r i → P b r' i

/-- A stable property that every registration has once it is made. -/
structure PlaceInvariant (G : Registry β → Prop) (P : Bool → Registry β → Nat → Prop) : Prop
    extends Stable G P where
  made : ∀ {r : Registry β} {g : Registration β} {f : Nat → Device → Walk β Verdict}, G r →
    Tame f →
    (registerWith g f).Ends
      (fun o r' => r.entries.size < r'.entries.size → P o.isSome r' r.entries.size) r

section Stable

variable {G : Registry β → Prop} {P P' : Bool → Registry β → Nat → Prop}

theorem Stable.overall_moves (hP : Stable G P) (h : Moves p r r') (hG : G r) : G r' :=
  h.keeps hP.overall hG

theorem Stable.spared_moves (hP : Stable G P) (h : Moves p r r') (hG : G r) {b : Bool} {i : Nat}
    (hi : ¬ p i) (hlt : i < r.entries.size) (hPi : P b r i) : P b r' i := by
  have hkept : G r' ∧ i < r'.entries.size ∧ P b r' i := by
    refine h.keeps (P := fun r => G r ∧ i < r.entries.size ∧ P b r i) ?_ ⟨hG, hlt, hPi⟩
    intro s s' hm hs
    obtain ⟨hGs, hlts, hPs⟩ := hs
    exact ⟨hP.overall hm hGs, Nat.lt_of_lt_of_le hlts hm.spares.size_le,
      hP.spared hGs hm hi hlts hPs⟩
  exact hkept.2.2

theorem Stable.weaken_to (hP : Stable G P) {b : Bool} {i : Nat} (c : Bool) (h : P b r i) :
    P (b && c) r i := by
  cases c with
  | true => rwa [Bool.and_true]
  | false =>
    rw [Bool.and_false]
    cases b with
    | true => exact hP.weaken h
    | false => exact h

/-! ## Newcomers -/

/-- The registrations made between two states have a property. -/
def Newcomers (P : Bool → Registry β → Nat → Prop) (r : Registry β) (o : Option α)
    (r' : Registry β) : Prop :=
  ∀ i, r.entries.size ≤ i → i < r'.entries.size → P o.isSome r' i

theorem Newcomers.none_made (o : Option α) (hs : r'.entries.size = r.entries.size) :
    Newcomers P r o r' := by
  intro i hi hlt
  omega

/-- Those made by the first part of a walk are spared by the second. -/
theorem Newcomers.trans (hP : Stable G P) {a : α} {o : Option γ}
    (h : Newcomers P r (some a) r') (hG : G r') (hm : Moves p r' r'')
    (hp : ∀ i, r.entries.size ≤ i → i < r'.entries.size → ¬ p i)
    (h' : Newcomers P r' o r'') : Newcomers P r o r'' := by
  intro i hi hlt
  by_cases hold : i < r'.entries.size
  · have hPi := hP.spared_moves hm hG (hp i hi hold) hold (h i hi hold)
    have hweak := hP.weaken_to o.isSome hPi
    simpa using hweak
  · exact h' i (by omega) hlt

/-- Registrations that a callback makes have the property. -/
def Founds (G : Registry β → Prop) (P : Bool → Registry β → Nat → Prop)
    (f : Nat → Device → Walk β Verdict) : Prop :=
  ∀ k d r, G r → (f k d).Ends (Newcomers P r) r

theorem Newcomers.of_size (hs : r'.entries.size = r.entries.size) {o : Option α}
    (h : Newcomers P r' o r'') : Newcomers P r o r'' :=
  fun i hi hlt => h i (by omega) hlt

/-- A move that follows spares the newcomers if it is about an older registration. -/
theorem Newcomers.then (hP : Stable G P) {i : Nat} (hi : i < r.entries.size) {a : α} {c : γ}
    (h : Newcomers P r (some a) r') (hG : G r') (hm : Move (· = i) r' r'')
    (hs : r''.entries.size = r'.entries.size) : Newcomers P r (some c) r'' := by
  apply h.trans hP hG hm.moves _ (Newcomers.none_made (some c) hs)
  intro j hj _ hji
  omega

theorem offerArrival_newcomers (hP : Stable G P) {i : Nat} {f : Nat → Device → Walk β Verdict}
    (hf : Tame f) (hfn : Founds G P f) (hi : i < r.entries.size) (hG : G r) (d : Device) :
    (offerArrival i f d).Ends (Newcomers P r) r := by
  apply offerArrival_ends
  · intro _
    exact .none_made _ rfl
  · intro _ _ _
    exact .none_made _ rfl
  · intro _ _ _ _ _
    exact .none_made _ (by simp)
  · intro e _ _ _ _
    have henter : Move (· = i) r (r.enter i .arrived d) := .enter r .arrived d rfl hi
    have hGe : G (r.enter i .arrived d) := hP.overall henter hG
    apply ((hf e.arrivals d _).and (hfn e.arrivals d _ hGe)).mono
    intro o s hs
    obtain ⟨hm, hnew⟩ := hs
    have hGs : G s := hP.overall_moves hm hGe
    have his : i < s.entries.size :=
      Nat.lt_of_lt_of_le (by simpa [enter] using hi) hm.spares.size_le
    have hnew : Newcomers P r o s := hnew.of_size (by simp [enter])
    match o with
    | none => exact hnew
    | some .keep => exact hnew.then hP hi hGs (.keep s d rfl his) (by simp [keep])
    | some .deregister => exact hnew.then hP hi hGs (.drop s d rfl his) (by simp [drop])

theorem offerLeft_newcomers (hP : Stable G P) {i : Nat} {f : Nat → Device → Walk β Verdict}
    (hf : Tame f) (hfn : Founds G P f) (hi : i < r.entries.size) (hG : G r) (id : DeviceId) :
    (offerLeft i f id).Ends (Newcomers P r) r := by
  apply offerLeft_ends
  · intro _
    exact .none_made _ rfl
  · intro _ _ _
    exact .none_made _ rfl
  · intro _ _ _ _ _ _
    exact .none_made _ (by simp)
  · intro e d _ _ _ _
    have hdetach : Move (· = i) r (r.update i (·.detach id)) := .detach r id rfl hi
    have henter : Move (· = i) (r.update i (·.detach id)) _ :=
      .enter _ .left d rfl (by simpa using hi)
    have hGe := hP.overall henter (hP.overall hdetach hG)
    apply ((hf e.removals d _).and (hfn e.removals d _ hGe)).mono
    intro o s hs
    obtain ⟨hm, hnew⟩ := hs
    have hGs : G s := hP.overall_moves hm hGe
    have his : i < s.entries.size :=
      Nat.lt_of_lt_of_le (by simpa [enter] using hi) hm.spares.size_le
    have hnew : Newcomers P r o s := hnew.of_size (by simp [enter])
    match o with
    | none => exact hnew
    | some v => exact hnew.then hP hi hGs (.finish s d v rfl his) (by simp)

theorem replay_newcomers (hP : Stable G P) {i : Nat} {f : Nat → Device → Walk β Verdict}
    (hf : Tame f) (hfn : Founds G P f) (ds : List Device) (hi : i < r.entries.size) (hG : G r) :
    (replay i f ds).Ends (Newcomers P r) r := by
  induction ds generalizing r with
  | nil => exact replay_nil_ends.mpr (.none_made _ rfl)
  | cons d ds ih =>
    have hoffer := (offerArrival_moves (p := fun j => j = i ∨ r.entries.size ≤ j) hf
      (fun _ => .inr) (Nat.le_refl _) (.inl rfl) d).and (offerArrival_newcomers hP hf hfn hi hG d)
    rw [replay_cons_ends]
    apply hoffer.mono
    intro o s hs
    obtain ⟨hm, hnew⟩ := hs
    have hGs : G s := hP.overall_moves hm hG
    have his : i < s.entries.size := Nat.lt_of_lt_of_le hi hm.spares.size_le
    -- The rest of the replay calls the same registration, so those just made are spared.
    have hrest {a : Offer} (hnew : Newcomers P r (some a) s) :
        (replay i f ds).Ends (Newcomers P r) s := by
      have hmoves := replay_moves (p := fun j => j = i ∨ s.entries.size ≤ j) hf (fun _ => .inr)
        (Nat.le_refl _) (.inl rfl) ds
      apply (hmoves.and (ih his hGs)).mono
      intro o s' hs'
      apply hnew.trans hP hGs hs'.1 _ hs'.2
      intro j hj hlt hcall
      omega
    match o with
    | none => exact hnew
    | some .dropped => exact hnew
    | some .ignored => exact hrest hnew
    | some .attached => exact hrest hnew

/-- A registration made has the property, and so do those made by its arrival callback. -/
theorem registerWith_newcomers (hP : PlaceInvariant G P) {g : Registration β}
    {f : Nat → Device → Walk β Verdict} (hf : Tame f) (hfn : Founds G P f) (hG : G r) :
    (registerWith g f).Ends (Newcomers P r) r := by
  -- The registration itself has the property by assumption; left are those made by its replay.
  have hlater : (registerWith g f).Ends (fun o r' =>
      ∀ i, r.entries.size < i → i < r'.entries.size → P o.isSome r' i) r := by
    have hsize := size_enlist r g
    apply registerWith_ends
    · intro _ i hi hlt
      omega
    · intro _ _ i hi hlt
      omega
    · intro _ why _ i hi hlt
      simp [rollBack, unlist, hsize] at hlt
      omega
    · intro hg _ ds _
      have hm := opening_moves (r := r) (p := fun _ => True) hg trivial r.nextHandle ds
      have hG' := hP.overall_moves hm hG
      have hb : ((r.enlist g).enumerate.2.beginReplay r.entries.size r.nextHandle ds).entries.size =
          r.entries.size + 1 := by simp [beginReplay, hsize]
      apply (replay_newcomers hP.toStable hf hfn ds (by omega) hG').mono
      intro o r' hnew i hi hlt
      have hPi := hnew i (by omega) hlt
      simpa using hPi
  apply ((hP.made (g := g) hG hf).and hlater).mono
  intro o r' h i hi hlt
  by_cases hfirst : i = r.entries.size
  · subst hfirst
    exact h.1 hlt
  · exact h.2 i (by omega) hlt

/-- Registrations that a script makes have the property, however deep its callbacks are nested. -/
theorem run_newcomers (hP : PlaceInvariant G P) (s : Script β) (r : Registry β) (hG : G r) :
    (run s).Ends (Newcomers P r) r := by
  induction s generalizing r with
  | finish v => exact Newcomers.none_made _ rfl
  | panic => exact Newcomers.none_made _ rfl
  | act a next ih =>
    have hm : Move (fun _ => True) r (r.perform a).2 := Move.perform r a
    rw [run, ends_bind, ends_modifyGet, before_some]
    have hnone : Newcomers P r (some (r.perform a).1) (r.perform a).2 :=
      .none_made _ (size_perform r a)
    have hGm := hP.overall hm hG
    apply ((run_moves _ _).and (ih _ _ hGm)).mono
    intro o r'' h
    exact hnone.trans hP.toStable hGm h.1 (fun j _ hlt hj => by omega) h.2
  | register filter provided onArrived onLeft next order ihA _ ihN =>
    have hf : Tame fun k d => run (onArrived k d) := tame_run onArrived
    have hmoves := registerWith_moves (g := { filter, provided, onArrived, onLeft, order }) hf
      (p := fun _ => True) (fun _ _ => trivial) (Nat.le_refl r.entries.size)
    rw [run, ends_bind]
    apply (hmoves.and (registerWith_newcomers hP hf ihA hG)).mono
    intro o r' h
    obtain ⟨hm, hnew⟩ := h
    cases o with
    | none => exact hnew
    | some reply =>
      -- What comes after the registration calls only what it makes itself.
      have hG' := hP.overall_moves hm hG
      apply ((run_moves _ _).and (ihN reply r' hG')).mono
      intro o r'' h'
      exact hnew.trans hP.toStable hG' h'.1 (fun j _ hlt hj => by omega) h'.2

theorem founds_run (hP : PlaceInvariant G P) (f : Nat → Device → Script β) :
    Founds G P fun k d => run (f k d) :=
  fun k d r hG => run_newcomers hP (f k d) r hG

theorem offer_newcomers (hP : PlaceInvariant G P) {i : Nat} (hi : i < r.entries.size) (hG : G r)
    (d : Device) (c : Change) : (offer d c i).Ends (Newcomers P r) r := by
  apply offer_ends
  · intro _
    exact .none_made _ rfl
  · intro e _ _
    apply (offerArrival_newcomers hP.toStable (tame_run e.onArrived) (founds_run hP e.onArrived)
      hi hG d).mono
    intro o r' h
    cases o <;> exact h
  · intro e _ _
    exact offerLeft_newcomers hP.toStable (tame_run e.onLeft) (founds_run hP e.onLeft) hi hG d.id

theorem release_newcomers (hP : PlaceInvariant G P) {i : Nat} (e : Entry β) (ds : List Device)
    (hi : i < r.entries.size) (hG : G r) : (release i e ds).Ends (Newcomers P r) r := by
  induction ds generalizing r with
  | nil => exact Newcomers.none_made _ rfl
  | cons d ds ih =>
    apply release_cons_ends _ rfl
    have henter : Move (· = i) r (r.enter i .left d) := .enter r .left d rfl hi
    have hGe := hP.overall henter hG
    apply ((tame_run e.onLeft _ d _).and (founds_run hP e.onLeft _ d _ hGe)).mono
    intro o s hs
    obtain ⟨hm, hnew⟩ := hs
    have hGs : G s := hP.overall_moves hm hGe
    have hnew : Newcomers P r o s := hnew.of_size (by simp [enter])
    match o with
    | none => exact hnew
    | some v =>
      have hsize : r.entries.size ≤ s.entries.size :=
        Nat.le_trans henter.spares.size_le hm.spares.size_le
      have hi' : i < s.entries.size := Nat.lt_of_lt_of_le hi hsize
      have hfinish : Move (· = i) s (s.record (.answered i .left d v)) := .finish s d v rfl hi'
      have hnew' := hnew.then (c := v) hP.toStable hi hGs hfinish (by simp)
      have hG' := hP.overall hfinish hGs
      have hmoves := release_moves (p := fun j => j = i ∨
        (s.record (.answered i .left d v)).entries.size ≤ j) (fun _ => .inr) (.inl rfl) e ds
        (Nat.le_refl _) hi'
      apply (hmoves.and (ih hi' hG')).mono
      intro o s' h
      apply hnew'.trans hP.toStable hG' h.1 _ h.2
      intro j hj hlt hcall
      omega

theorem reclaim_newcomers (hP : PlaceInvariant G P) {i : Nat} (hi : i < r.entries.size) (hG : G r) :
    (reclaim i).Ends (Newcomers P r) r := by
  have hclear : Move (· = i) r (r.update i ({ · with attached := [] })) := .clear r rfl hi
  have hsize : (r.update i ({ · with attached := [] })).entries.size = r.entries.size := by simp
  apply reclaim_ends (Q := fun b r' => Newcomers P r (if b then some () else none) r')
  · intro _
    exact .none_made _ rfl
  · intro _ _ _ _
    exact .none_made _ (by simp)
  · intro e _ _
    have hrel := release_newcomers hP e e.parting (hsize.symm ▸ hi) (hP.overall hclear hG)
    have hmoves := release_moves (p := fun _ => True) (fun _ _ => trivial) (i := i) trivial e
      e.parting (Nat.le_refl (r.update i ({ · with attached := [] })).entries.size)
      (hsize.symm ▸ hi)
    apply (hrel.and hmoves).mono
    intro o s hs message
    have hGs : G s := hP.overall_moves hs.2 (hP.overall hclear hG)
    have hnew : Newcomers P r o s := hs.1.of_size hsize
    cases o with
    | none => exact hnew
    | some u => exact hnew.then hP.toStable hi hGs (.log s _ message) rfl

/-! ## Walks over places -/

/-- A property of the whole registry and one of every place. -/
def Everywhere (G : Registry β → Prop) (P : Bool → Registry β → Nat → Prop) (b : Bool)
    (r : Registry β) : Prop :=
  G r ∧ ∀ i, i < r.entries.size → P b r i

/-- A walk still has some registrations before it: those have one property, all others another. -/
structure Underway (G : Registry β → Prop) (P P' : Bool → Registry β → Nat → Prop) (b : Bool)
    (is : List Nat) (r : Registry β) : Prop where
  overall : G r
  ahead : ∀ i ∈ is, i < r.entries.size ∧ P' b r i
  behind : ∀ i, i < r.entries.size → i ∉ is → P b r i

/-- What a walk does to one registration, `o` being none after a panic. -/
structure Visit (P : Bool → Registry β → Nat → Prop) (i : Nat) (r : Registry β) (o : Option α)
    (r' : Registry β) (b : Bool) : Prop where
  moves : Moves (fun j => j = i ∨ r.entries.size ≤ j) r r'
  newcomers : Newcomers P r o r'
  visited : P (b && o.isSome) r' i

theorem Everywhere.grow (hP : Stable G P) {b : Bool} (h : Everywhere G P b r) {o : Option α}
    (hm : Moves (r.entries.size ≤ ·) r r') (hnew : Newcomers P r o r') :
    Everywhere G P (b && o.isSome) r' := by
  refine ⟨hP.overall_moves hm h.1, ?_⟩
  intro i hlt
  by_cases hold : i < r.entries.size
  · exact hP.weaken_to _ (hP.spared_moves hm h.1 (by omega) hold (h.2 i hold))
  · have hPi := hnew i (by omega) hlt
    rw [Bool.and_comm]
    exact hP.weaken_to b hPi

/-- One registration less ahead. -/
theorem Underway.visit (hP : Stable G P) (hP' : Stable G P') {b : Bool} {i : Nat} {is : List Nat}
    (h : Underway G P P' b (i :: is) r) (hnd : (i :: is).Nodup) {o : Option α}
    (hv : Visit P i r o r' b) : Underway G P P' (b && o.isSome) is r' := by
  have hni : i ∉ is := (List.nodup_cons.mp hnd).1
  refine ⟨hP.overall_moves hv.moves h.overall, ?_, ?_⟩
  · intro j hj
    obtain ⟨hlt, hPj⟩ := h.ahead j (List.mem_cons_of_mem _ hj)
    have hne : j ≠ i := fun hji => hni (hji ▸ hj)
    refine ⟨Nat.lt_of_lt_of_le hlt hv.moves.spares.size_le, hP'.weaken_to _ ?_⟩
    exact hP'.spared_moves hv.moves h.overall (by omega) hlt hPj
  -- Behind are the one just visited, those visited before, and those made meanwhile.
  · intro j hlt hj
    by_cases hji : j = i
    · subst hji
      exact hv.visited
    · by_cases hold : j < r.entries.size
      · have hPj := h.behind j hold (by simp [hji, hj])
        exact hP.weaken_to _ (hP.spared_moves hv.moves h.overall (by omega) hold hPj)
      · have hPj := hv.newcomers j (by omega) hlt
        rw [Bool.and_comm]
        exact hP.weaken_to b hPj

/-- A walk that is given up leaves the first property, after a panic, where it did not get to. -/
theorem Underway.halt (halt : ∀ {r : Registry β} {i : Nat}, P' false r i → P false r i)
    {is : List Nat} (h : Underway G P P' false is r) : Everywhere G P false r := by
  refine ⟨h.overall, ?_⟩
  intro i hlt
  by_cases hi : i ∈ is
  · exact halt (h.ahead i hi).2
  · exact h.behind i hlt hi

theorem Underway.done {b : Bool} (h : Underway G P P' b [] r) : Everywhere G P b r :=
  ⟨h.overall, fun i hlt => h.behind i hlt (by simp)⟩

/-- An entry of the log disturbs nothing. -/
theorem Everywhere.log (hP : Stable G P) {b : Bool} (h : Everywhere G P b r) (level : LogLevel)
    (message : String) : Everywhere G P b (r.log level message) := by
  have hm : Move (fun _ => False) r (r.log level message) := .log r level message
  exact ⟨hP.overall hm h.1, fun i hlt => hP.spared h.1 hm id hlt (h.2 i hlt)⟩

section Walks

variable (hP : PlaceInvariant G P) (hP' : Stable G P')
  (halt : ∀ {r : Registry β} {i : Nat}, P' false r i → P false r i)

include hP hP' halt

theorem offerAll_everywhere {d : Device} {c : Change}
    (hoffer : ∀ {b : Bool} {r : Registry β} {i : Nat}, i < r.entries.size → G r → P' b r i →
      (offer d c i).Ends (fun o r' => P (b && o.isSome) r' i) r)
    {is : List Nat} (hnd : is.Nodup) {b : Bool} (h : Underway G P P' b is r) :
    (offerAll d c is).Ends (fun o => Everywhere G P (b && o.isSome)) r := by
  induction is generalizing r with
  | nil =>
    have hdone := h.done
    rw [← Bool.and_true b] at hdone
    exact hdone
  | cons i is ih =>
    apply offerAll_cons_ends_of (Q := fun x => Everywhere G P (b && x))
    obtain ⟨hlt, hPi⟩ := h.ahead i (by simp)
    have hmoves := offer_moves (p := fun j => j = i ∨ r.entries.size ≤ j) (fun _ => .inr)
      (Nat.le_refl _) (.inl rfl) d c
    have hvisit := (hmoves.and (offer_newcomers hP hlt h.overall d c)).and
      (hoffer hlt h.overall hPi)
    apply hvisit.mono
    intro o s hs
    have hs : Underway G P P' (b && o.isSome) is s :=
      h.visit hP.toStable hP' hnd ⟨hs.1.1, hs.1.2, hs.2⟩
    cases o with
    | none =>
      -- A panic: those ahead are never visited.
      have hfalse : (b && false) = false := Bool.and_false b
      simp only [Option.isSome_none, hfalse] at hs ⊢
      exact hs.halt halt
    | some x =>
      rw [Option.isSome_some, Bool.and_true] at hs
      exact ih (List.nodup_cons.mp hnd).2 hs

theorem reclaimAll_everywhere
    (hreclaim : ∀ {b : Bool} {r : Registry β} {i : Nat}, i < r.entries.size → G r → P' b r i →
      (reclaim i).Ends (fun o r' => P (b && o.isSome) r' i) r)
    {is : List Nat} (hnd : is.Nodup) {b : Bool} (h : Underway G P P' b is r) :
    (reclaimAll is).Ends (fun o => Everywhere G P (b && o.isSome)) r := by
  induction is generalizing r with
  | nil =>
    have hdone := h.done
    rw [← Bool.and_true b] at hdone
    exact hdone
  | cons i is ih =>
    rw [reclaimAll, ends_bind]
    obtain ⟨hlt, hPi⟩ := h.ahead i (by simp)
    have hmoves := reclaim_moves (p := fun j => j = i ∨ r.entries.size ≤ j) (fun _ => .inr)
      (.inl rfl) (Nat.le_refl _)
    have hvisit := (hmoves.and (reclaim_newcomers hP hlt h.overall)).and
      (hreclaim hlt h.overall hPi)
    apply hvisit.mono
    intro o s hs
    have hs : Underway G P P' (b && o.isSome) is s :=
      h.visit hP.toStable hP' hnd ⟨hs.1.1, hs.1.2, hs.2⟩
    cases o with
    | none =>
      rw [before_none]
      rw [Option.isSome_none, Bool.and_false] at hs ⊢
      exact hs.halt halt
    | some x =>
      rw [Option.isSome_some, Bool.and_true] at hs
      exact ih (List.nodup_cons.mp hnd).2 hs

theorem dispatch_everywhere {d : Device} {c : Change}
    (hoffer : ∀ {b : Bool} {r : Registry β} {i : Nat}, i < r.entries.size → G r → P' b r i →
      (offer d c i).Ends (fun o r' => P (b && o.isSome) r' i) r)
    (hO : r.Orderly) {b : Bool}
    (h : Underway G P P' b (r.places (·.active)) (r.record (.dispatched d c))) :
    (dispatch d c).Ends (fun o => Everywhere G P (b && o.isSome)) r := by
  apply dispatch_ends (Q := fun x => Everywhere G P (b && x))
  apply (offerAll_everywhere hP hP' halt hoffer (hO.nodup_places _) h).mono
  intro o s hs message
  cases o with
  | none => exact hs
  | some n => exact hs.log hP.toStable _ _

theorem sweep_everywhere
    (hreclaim : ∀ {b : Bool} {r : Registry β} {i : Nat}, i < r.entries.size → G r → P' b r i →
      (reclaim i).Ends (fun o r' => P (b && o.isSome) r' i) r)
    (hO : r.Orderly) {b : Bool} (h : Underway G P P' b (r.places (·.flagged)) r.startSweep) :
    sweep.Ends (fun o => Everywhere G P (b && o.isSome)) r := by
  apply sweep_ends (Q := fun x => Everywhere G P (b && x))
  exact reclaimAll_everywhere hP hP' halt hreclaim (hO.nodup_places _) h

end Walks

theorem register_everywhere (hP : PlaceInvariant G P) (g : Registration β) {b : Bool}
    (h : Everywhere G P b r) : (register g).Ends (fun o => Everywhere G P (b && o.isSome)) r := by
  have hmoves := register_moves (p := (r.entries.size ≤ ·)) (fun _ hj => hj) g (Nat.le_refl _)
  have hnew := registerWith_newcomers hP (tame_run g.onArrived) (founds_run hP g.onArrived) h.1
    (g := g)
  apply (hmoves.and hnew).mono
  intro o r' hs
  exact h.grow hP.toStable hs.1 hs.2

theorem perform_everywhere (hP : Stable G P) (a : Action β) {b : Bool} (h : Everywhere G P b r) :
    Everywhere G P b (r.perform a).2 := by
  have hm : Move (r.entries.size ≤ ·) r (r.perform a).2 := .perform r a
  have hnone : Newcomers P r (some ()) (r.perform a).2 := .none_made _ (size_perform r a)
  simpa using h.grow hP hm.moves hnone

end Stable

end Registry

end PlugWatch
