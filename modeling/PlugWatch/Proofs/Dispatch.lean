import PlugWatch.Proofs.Edit

/-! # Whom a dispatch calls

  A dispatch offers a change to the registrations that were active when it started, in the order of
  their places. A registration is **due** if the change is for it and it has a callback for it. It
  is called once, in its turn, if it is due and was not flagged in the meantime, and if no callback
  of an earlier registration panics.

  What matters about a destruction is that it flags nobody. So a registration that is destroyed
  while the dispatch has not come to it yet is called all the same.
-/

namespace PlugWatch

/-- Whether a change is for a registration that is not flagged, and has a callback there. -/
def Entry.due {β : Type} [Bus β] (e : Entry β) (d : Device) : Change → Bool
  | .arrived => e.expects d && e.calls .arrived
  | .left => e.has d.id && e.calls .left

/-- Neither a call nor an answer, a flag or a destruction. -/
def Happening.Plain : Happening → Prop
  | called _ _ _ => False
  | answered _ _ _ _ => False
  | flagged _ => False
  | destroyed _ => False
  | _ => True

/-- Every call of a registration has returned. -/
def Returned (k : Nat) (hs : List Happening) : Prop :=
  ∀ c d, .called k c d ∈ hs → ∃ v, .answered k c d v ∈ hs

theorem Returned.append {k : Nat} {hs hs' : List Happening} (h : Returned k hs)
    (h' : Returned k hs') : Returned k (hs ++ hs') := by
  intro c d hm
  rcases List.mem_append.mp hm with hm | hm
  · obtain ⟨v, hv⟩ := h c d hm
    exact ⟨v, List.mem_append_left _ hv⟩
  · obtain ⟨v, hv⟩ := h' c d hm
    exact ⟨v, List.mem_append_right _ hv⟩

/-- Later calls have returned later. -/
theorem Returned.of_append {k : Nat} {hs hs' : List Happening} (h : Returned k (hs ++ hs'))
    (hn : ∀ c d v, .answered k c d v ∉ hs) : Returned k hs' := by
  intro c d hm
  obtain ⟨v, hv⟩ := h c d (List.mem_append_right _ hm)
  rcases List.mem_append.mp hv with hv | hv
  · exact absurd hv (hn c d v)
  · exact ⟨v, hv⟩

namespace Registry

open Walk

variable {β : Type} [Bus β] {r r' : Registry β} {p : Nat → Prop} {i k : Nat} {e : Entry β}
  {d : Device} {c : Change} {hs : List Happening}

/-- A registration is not called from here on, and flagged only if it is held, and not once it was
    destroyed. -/
structure Quiet (i : Nat) (r : Registry β) (hs : List Happening) : Prop where
  silent : ∀ c d, .called i c d ∉ hs
  flag_listed : .flagged i ∈ hs → i ∈ r.listed
  order : ∀ xs ys, hs = xs ++ .flagged i :: ys → ∀ is, .destroyed is ∈ xs → i ∉ is

namespace Aloof

/-- The news of a walk are the same for all who stand aloof from it. -/
theorem of_moves (hm : Moves p r r') (hh : r'.history.toList = r.history.toList ++ hs)
    (hi : ¬ p i) (hlt : i < r.entries.size) : Aloof i hs r r' := by
  obtain ⟨hs', h⟩ := hm.aloof hi hlt
  have heq : hs' = hs := List.append_cancel_left (h.news.symm.trans hh)
  exact heq ▸ h

theorem not_called (h : Aloof i hs r r') (c : Change) (d : Device) : .called i c d ∉ hs :=
  fun hm => h.within _ hm rfl

theorem not_answered (h : Aloof i hs r r') (c : Change) (d : Device) (v : Verdict) :
    .answered i c d v ∉ hs :=
  fun hm => h.within _ hm rfl

theorem quiet (h : Aloof i hs r r') : Quiet i r hs :=
  ⟨h.not_called, h.flag_listed, h.order⟩

/-- What is quiet later is quiet altogether. -/
theorem quiet_append {hs' : List Happening} (h : Aloof i hs r r') (h' : Quiet i r' hs') :
    Quiet i r (hs ++ hs') where
  silent c d hm := by
    rcases List.mem_append.mp hm with hm | hm
    · exact h.not_called c d hm
    · exact h'.silent c d hm
  flag_listed hm := by
    rcases List.mem_append.mp hm with hm | hm
    · exact h.flag_listed hm
    · exact h.listed (h'.flag_listed hm)
  order := by
    apply order_append h.order h'.order
    intro is hd hi hf
    exact (h.destroyed is hd hi).2 (h'.flag_listed hf)

theorem returned (h : Aloof k hs r r') : Returned k hs :=
  fun c d hm => absurd hm (h.not_called c d)

end Aloof

/-! ## One registration -/

/-- What one offer adds to the history: nothing, or a call and what came of it. -/
inductive Offered (e : Entry β) (i : Nat) (d : Device) (c : Change) (done : Bool) :
    List Happening → Prop where
  | passed : done = true → e.flagged = true ∨ e.due d c = false → Offered e i d c done []
  | told {x : Device} {hs : List Happening} : e.flagged = false → e.due d c = true →
      (∀ c' y, .called i c' y ∉ hs) → (done = true ↔ ∃ v, .answered i c x v ∈ hs) →
      Offered e i d c done (.called i c x :: hs)

/-- A call as it stands in the history. -/
theorem offered_of_call {s s' : Registry β} {x : Device} {o : Option Verdict}
    (ts : List Happening)
    (hs : s.history.toList = r.history.toList ++ [.called i c x]) (hlt : i < s.entries.size)
    (hm : Moves (s.entries.size ≤ ·) s s') (hf : e.flagged = false) (hd : e.due d c = true)
    {t : Registry β} (ht : t.history.toList = s'.history.toList ++ ts)
    (hts : ∀ c' y, .called i c' y ∉ ts) (hdone : o.isSome = true ↔ ∃ v, .answered i c x v ∈ ts) :
    ∃ hs, t.history.toList = r.history.toList ++ hs ∧ Offered e i d c o.isSome hs := by
  obtain ⟨hs', haloof⟩ := hm.aloof (i := i) (by omega) hlt
  refine ⟨.called i c x :: (hs' ++ ts), ?_, .told hf hd ?_ ?_⟩
  · rw [ht, haloof.news, hs]
    simp
  -- While its callback runs, a registration is not called again.
  · intro c' y hm
    rcases List.mem_append.mp hm with hm | hm
    · exact haloof.not_called c' y hm
    · exact hts c' y hm
  · rw [hdone]
    constructor
    · intro h
      obtain ⟨v, hv⟩ := h
      exact ⟨v, List.mem_append_right _ hv⟩
    · intro h
      obtain ⟨v, hv⟩ := h
      rcases List.mem_append.mp hv with hv | hv
      · exact absurd hv (haloof.not_answered c x v)
      · exact ⟨v, hv⟩

theorem offerArrival_offered {f : Nat → Device → Walk β Verdict} (hf : Tame f)
    (he : r.entries[i]? = some e) (d : Device) :
    (offerArrival i f d).Ends (fun o r' => ∃ hs, r'.history.toList = r.history.toList ++ hs ∧
      Offered e i d .arrived o.isSome hs) r := by
  have hlt := lt_size_of_getElem? he
  have heq {e' : Entry β} (he' : r.entries[i]? = some e') : e' = e :=
    Option.some.inj (he'.symm.trans he)
  apply offerArrival_ends
  · intro hn
    rw [he] at hn
    cases hn
  · intro e' he' hp
    cases heq he'
    refine ⟨[], by simp, .passed rfl (hp.imp_right ?_)⟩
    intro hx
    simp [Entry.due, hx]
  · intro e' he' hfl hx hc
    cases heq he'
    refine ⟨[], by simp, .passed rfl (.inr ?_)⟩
    simp [Entry.due, hc]
  · intro e' he' hfl hx hc
    cases heq he'
    have hdue : e.due d .arrived = true := by simp [Entry.due, hx, hc]
    have hentered : (r.enter i .arrived d).history.toList =
        r.history.toList ++ [.called i .arrived d] := by simp [enter]
    have hlt' : i < (r.enter i .arrived d).entries.size := by simpa [enter] using hlt
    apply (hf e.arrivals d _).mono
    intro o s hm
    cases o with
    | none =>
      exact offered_of_call (o := none) [] hentered hlt' hm hfl hdue (by simp) (by simp)
        (by simp)
    | some v =>
      cases v with
      | keep =>
        exact offered_of_call (o := some .keep) (t := s.keep i d)
          [.answered i .arrived d .keep] hentered hlt' hm hfl hdue (by simp [keep]) (by simp)
          (by simp)
      | deregister =>
        -- The answer is followed by the flag and what is logged about it.
        obtain ⟨hs', hh, hlogs⟩ :=
          (s.record (.answered i .arrived d .deregister)).history_dismiss i d.id
        refine offered_of_call (o := some .deregister) (t := s.drop i d)
          (.answered i .arrived d .deregister :: hs') hentered hlt' hm hfl hdue ?_ ?_ (by simp)
        · rw [drop, hh]
          simp
        · intro c' y hmem
          rcases List.mem_cons.mp hmem with heq | hmem
          · cases heq
          · rcases hlogs _ hmem with heq | ⟨_, heq⟩ <;> cases heq

theorem offerLeft_offered {f : Nat → Device → Walk β Verdict} (hf : Tame f)
    (he : r.entries[i]? = some e) (d : Device) :
    (offerLeft i f d.id).Ends (fun o r' => ∃ hs, r'.history.toList = r.history.toList ++ hs ∧
      Offered e i d .left o.isSome hs) r := by
  have hlt := lt_size_of_getElem? he
  have heq {e' : Entry β} (he' : r.entries[i]? = some e') : e' = e :=
    Option.some.inj (he'.symm.trans he)
  apply offerLeft_ends
  · intro hn
    rw [he] at hn
    cases hn
  · intro e' he' hp
    cases heq he'
    refine ⟨[], by simp, .passed rfl (hp.imp_right ?_)⟩
    intro hx
    simp [Entry.due, Entry.has, hx]
  · intro e' x he' hfl hx hc
    cases heq he'
    refine ⟨[], by simp, .passed rfl (.inr ?_)⟩
    simp [Entry.due, hc]
  · intro e' x he' hfl hx hc
    cases heq he'
    have hdue : e.due d .left = true := by simp [Entry.due, Entry.has, hx, hc]
    have hentered : ((r.update i (·.detach d.id)).enter i .left x).history.toList =
        r.history.toList ++ [.called i .left x] := by simp [enter]
    have hlt' : i < ((r.update i (·.detach d.id)).enter i .left x).entries.size := by
      simpa [enter] using hlt
    apply (hf e.removals x _).mono
    intro o s hm
    cases o with
    | none =>
      exact offered_of_call (o := none) [] hentered hlt' hm hfl hdue (by simp) (by simp)
        (by simp)
    | some v =>
      exact offered_of_call (o := some v) (t := s.record (.answered i .left x v))
        [.answered i .left x v] hentered hlt' hm hfl hdue (by simp) (by simp) (by simp)

theorem offer_offered (he : r.entries[i]? = some e) (d : Device) (c : Change) :
    (offer d c i).Ends (fun o r' => ∃ hs, r'.history.toList = r.history.toList ++ hs ∧
      Offered e i d c o.isSome hs) r := by
  apply offer_ends
  · intro hn
    rw [he] at hn
    cases hn
  · intro e' he' hc
    subst hc
    apply (offerArrival_offered (tame_run e'.onArrived) he d).mono
    intro o r' h
    cases o <;> exact h
  · intro e' he' hc
    subst hc
    exact offerLeft_offered (tame_run e'.onLeft) he d

/-! ## A walk over registrations -/

/-- What a walk over the registrations `is` does about the registration at `i`: it does not call
    it, for a reason, or calls it once. -/
inductive Walked (e : Entry β) (i : Nat) (is : List Nat) (d : Device) (c : Change) :
    Registry β → List Happening → Prop where
  | passed {r : Registry β} {hs : List Happening} : Quiet i r hs →
      (i ∈ is → e.flagged = false → e.due d c = true →
        .flagged i ∈ hs ∨ ∃ k, k < i ∧ ¬ Returned k hs) → Walked e i is d c r hs
  | called {r : Registry β} {before after : List Happening} {x : Device} : i ∈ is →
      e.flagged = false → e.due d c = true → (∀ c' y, .called i c' y ∉ before) →
      .flagged i ∉ before → (∀ c' y, .called i c' y ∉ after) →
      (∀ k, k < i → Returned k (before ++ .called i c x :: after)) →
      Walked e i is d c r (before ++ .called i c x :: after)

/-- A registration whose offer is over has returned; otherwise its callback panicked. -/
theorem Offered.returned_iff {done : Bool} (h : Offered e i d c done hs) :
    Returned i hs ↔ done = true := by
  cases h with
  | passed hdone hp => simp [Returned, hdone]
  | @told x hs hf hd hnot hdone =>
    rw [hdone]
    constructor
    · intro hret
      obtain ⟨v, hv⟩ := hret c x (List.mem_cons_self ..)
      rcases List.mem_cons.mp hv with heq | hv
      · cases heq
      · exact ⟨v, hv⟩
    · rintro ⟨v, hv⟩ c' y hm
      rcases List.mem_cons.mp hm with heq | hm
      · cases heq
        exact ⟨v, List.mem_cons_of_mem _ hv⟩
      · exact absurd hm (hnot c' y)

/-- The registration's own turn, with what others do afterwards. -/
theorem Walked.of_offered {done : Bool} {is : List Nat} {s : Registry β} {hs' : List Happening}
    (h : Offered e i d c done hs) (hi : i ∈ is) (hq : Quiet i s hs')
    (hl : i ∈ s.listed → i ∈ r.listed) (hret : ∀ k, k < i → Returned k (hs ++ hs')) :
    Walked e i is d c r (hs ++ hs') := by
  cases h with
  | passed hdone hp =>
    refine .passed ⟨hq.silent, fun hf => hl (hq.flag_listed hf), hq.order⟩ ?_
    intro _ hf hd
    rcases hp with hp | hp
    · rw [hp] at hf
      cases hf
    · rw [hp] at hd
      cases hd
  | @told x hs hf hd hnot hdone =>
    show Walked e i is d c r ([] ++ .called i c x :: (hs ++ hs'))
    refine .called hi hf hd (by simp) (by simp) ?_ hret
    intro c' y hm
    rcases List.mem_append.mp hm with hm | hm
    · exact hnot c' y hm
    · exact hq.silent c' y hm

/-- Another registration's turn comes first, and the walk ends with it. -/
theorem Walked.of_halt {j : Nat} {is : List Nat} (hasc : (j :: is).Pairwise (· < ·))
    (hji : j ≠ i) (hq : Quiet i r hs) (hret : ¬ Returned j hs) : Walked e i (j :: is) d c r hs := by
  refine .passed hq ?_
  intro hi _ _
  refine .inr ⟨j, ?_, hret⟩
  have hmem : i ∈ is := (List.mem_cons.mp hi).resolve_left fun hij => hji hij.symm
  exact (List.pairwise_cons.mp hasc).1 i hmem

/-- Another registration's turn comes first, and the walk goes on. -/
theorem Walked.cons {j : Nat} {is : List Nat} {hs' : List Happening} {b : Bool} (hji : j ≠ i)
    (haloof : Aloof i hs r r') (hflag : b = true ↔ e.flagged = true ∨ .flagged i ∈ hs)
    (h : Walked { e with flagged := b } i is d c r' hs') (hret : ∀ k, k < i → Returned k hs)
    (hkeep : ∀ k, k < i → Returned k (hs ++ hs') → Returned k hs') :
    Walked e i (j :: is) d c r (hs ++ hs') := by
  cases h with
  | passed hq hwhy =>
    refine .passed (haloof.quiet_append hq) ?_
    intro hi hf hd
    have hmem : i ∈ is := (List.mem_cons.mp hi).resolve_left fun hij => hji hij.symm
    cases b with
    | true =>
      have hflagged := (hflag.mp rfl).resolve_left (by simp [hf])
      exact .inl (List.mem_append_left _ hflagged)
    | false =>
      rcases hwhy hmem rfl hd with hfl | ⟨k, hk, hnot⟩
      · exact .inl (List.mem_append_right _ hfl)
      · exact .inr ⟨k, hk, fun hr => hnot (hkeep k hk hr)⟩
  | @called before after x hi hf hd hbefore hflb hafter hr =>
    have hnf : ¬ (e.flagged = true ∨ .flagged i ∈ hs) := by
      rw [← hflag]
      show ¬ b = true
      simpa using hf
    rw [← List.append_assoc]
    refine .called (List.mem_cons_of_mem _ hi) ?_ hd ?_ ?_ hafter ?_
    · simpa using fun hfl => hnf (.inl hfl)
    · intro c' y hm
      rcases List.mem_append.mp hm with hm | hm
      · exact haloof.not_called c' y hm
      · exact hbefore c' y hm
    · intro hm
      rcases List.mem_append.mp hm with hm | hm
      · exact hnf (.inr hm)
      · exact hflb hm
    · intro k hk
      rw [List.append_assoc]
      exact (hret k hk).append (hr k hk)

/-- A walk over registrations leaves aloof whoever it does not come to. -/
theorem offerAll_aloof (is : List Nat) (r : Registry β) (d : Device) (c : Change) :
    (offerAll d c is).Ends (fun _ r' => ∃ hs, r'.history.toList = r.history.toList ++ hs ∧
      ∀ k, k < r.entries.size → k ∉ is → Aloof k hs r r') r := by
  apply (offerAll_moves (p := fun k => k ∈ is ∨ r.entries.size ≤ k) (fun _ => .inr) d c
    (fun _ => .inl) (Nat.le_refl _)).mono
  intro o r' hm
  obtain ⟨hs, hh, -⟩ := hm.spares.news
  refine ⟨hs, hh, ?_⟩
  intro k hk hkis
  apply Aloof.of_moves hm hh _ hk
  intro hp
  rcases hp with hp | hp
  · exact hkis hp
  · omega

/-- A registration is offered the change, and the others stand aloof. -/
theorem offer_aloof (he : r.entries[i]? = some e) (d : Device) (c : Change) :
    (offer d c i).Ends (fun o s => ∃ hs, s.history.toList = r.history.toList ++ hs ∧
      Offered e i d c o.isSome hs ∧ (∀ k, k < r.entries.size → k ≠ i → Aloof k hs r s) ∧
      r.entries.size ≤ s.entries.size ∧ (i ∈ s.listed → i ∈ r.listed)) r := by
  have hmoves := offer_moves (p := fun k => k = i ∨ r.entries.size ≤ k) (fun _ => .inr)
    (Nat.le_refl _) (.inl rfl) d c
  apply (hmoves.and (offer_offered he d c)).mono
  intro o s h
  obtain ⟨hm, hs, hh, hoff⟩ := h
  exact ⟨hs, hh, hoff, fun k hk hki => .of_moves hm hh (by omega) hk, hm.spares.size_le,
    fun hl => hm.spares.listed i hl (lt_size_of_getElem? he)⟩

section Turns

variable {j : Nat} {js : List Nat} {d : Device} {c : Change}

/-- The registration is the first that is offered the change. The places ascend, so those before it
    do not come later. -/
theorem offerAll_walked_own (hgt : ∀ k ∈ js, i < k) (he : r.entries[i]? = some e) :
    (offerAll d c (i :: js)).Ends (fun _ r' => ∃ hs, r'.history.toList = r.history.toList ++ hs ∧
      Walked e i (i :: js) d c r hs) r := by
  apply offerAll_cons_ends_of (Q := fun _ r' => ∃ hs, r'.history.toList =
    r.history.toList ++ hs ∧ Walked e i (i :: js) d c r hs)
  have hilt := lt_size_of_getElem? he
  apply (offer_aloof he d c).mono
  intro o s h
  obtain ⟨hs, hh, hoff, haloof, hle, hl⟩ := h
  have hret (k : Nat) (hk : k < i) : Returned k hs :=
    (haloof k (by omega) (Nat.ne_of_lt hk)).returned
  cases o with
  | none =>
    refine ⟨hs, hh, ?_⟩
    rw [← List.append_nil hs]
    exact .of_offered (s := s) hoff (by simp) ⟨by simp, by simp, by simp⟩ hl (by simpa using hret)
  | some taken =>
    apply (offerAll_aloof js s d c).mono
    intro o r' h'
    obtain ⟨hs', hh', hothers⟩ := h'
    have hnot {k : Nat} (hk : k ≤ i) : k ∉ js := fun hmem => by
      have hik := hgt k hmem
      omega
    refine ⟨hs ++ hs', by rw [hh', hh, List.append_assoc], ?_⟩
    refine .of_offered (s := s) hoff (by simp)
      (hothers i (by omega) (hnot (Nat.le_refl i))).quiet hl ?_
    intro k hk
    exact (hret k hk).append (hothers k (by omega) (hnot (Nat.le_of_lt hk))).returned

/-- Another registration is the first, and what becomes of this one afterwards is known. -/
theorem offerAll_walked_other (hasc : (j :: js).Pairwise (· < ·))
    (hlt : ∀ k ∈ j :: js, k < r.entries.size) (hji : j ≠ i) (he : r.entries[i]? = some e)
    (hrest : ∀ {s : Registry β} {e' : Entry β}, (∀ k ∈ js, k < s.entries.size) →
      s.entries[i]? = some e' → (offerAll d c js).Ends (fun _ r' => ∃ hs,
        r'.history.toList = s.history.toList ++ hs ∧ Walked e' i js d c s hs) s) :
    (offerAll d c (j :: js)).Ends (fun _ r' => ∃ hs, r'.history.toList = r.history.toList ++ hs ∧
      Walked e i (j :: js) d c r hs) r := by
  apply offerAll_cons_ends_of (Q := fun _ r' => ∃ hs, r'.history.toList =
    r.history.toList ++ hs ∧ Walked e i (j :: js) d c r hs)
  have hilt := lt_size_of_getElem? he
  have hjlt := hlt j List.mem_cons_self
  apply (offer_aloof (Array.getElem?_eq_getElem hjlt) d c).mono
  intro o s h
  obtain ⟨hs, hh, hoff, haloof, hle, -⟩ := h
  have hai := haloof i hilt hji.symm
  cases o with
  | none =>
    have hnot : ¬ Returned j hs := by
      rw [hoff.returned_iff]
      simp
    exact ⟨hs, hh, .of_halt hasc hji hai.quiet hnot⟩
  | some taken =>
    obtain ⟨b, hes, hb⟩ := hai.flag e he
    have hlts : ∀ k ∈ js, k < s.entries.size := fun k hk =>
      Nat.lt_of_lt_of_le (hlt k (List.mem_cons_of_mem _ hk)) hle
    have hjs : j ∉ js := fun hmem =>
      Nat.lt_irrefl _ ((List.pairwise_cons.mp hasc).1 j hmem)
    apply ((offerAll_aloof js s d c).and (hrest hlts hes)).mono
    intro o r' h'
    obtain ⟨⟨hs', hh', hothers⟩, hs'', hh'', hw⟩ := h'
    have heq : hs'' = hs' := List.append_cancel_left (hh''.symm.trans hh')
    subst heq
    refine ⟨hs ++ hs'', by rw [hh', hh, List.append_assoc], .cons hji hai hb hw ?_ ?_⟩
    · intro k hk
      by_cases hkj : k = j
      · rw [hkj]
        exact hoff.returned_iff.mpr rfl
      · exact (haloof k (by omega) hkj).returned
    · intro k hk hr
      by_cases hkj : k = j
      · rw [hkj]
        exact (hothers j (by omega) hjs).returned
      · exact hr.of_append (haloof k (by omega) hkj).not_answered

end Turns

theorem offerAll_walked {is : List Nat} (hasc : is.Pairwise (· < ·))
    (hlt : ∀ j ∈ is, j < r.entries.size) (he : r.entries[i]? = some e) (d : Device) (c : Change) :
    (offerAll d c is).Ends (fun _ r' => ∃ hs, r'.history.toList = r.history.toList ++ hs ∧
      Walked e i is d c r hs) r := by
  induction is generalizing r e with
  | nil =>
    exact ⟨[], by simp, .passed ⟨by simp, by simp, by simp⟩ fun hi => by cases hi⟩
  | cons j js ih =>
    obtain ⟨hgt, hascs⟩ := List.pairwise_cons.mp hasc
    by_cases hji : j = i
    · subst hji
      exact offerAll_walked_own hgt he
    · exact offerAll_walked_other hasc hlt hji he fun hlts hes => ih hascs hlts hes

/-! ## Dispatches -/

theorem returned_pad {xs ys : List Happening} (hx : ∀ h ∈ xs, h.Plain) (hy : ∀ h ∈ ys, h.Plain) :
    Returned k (xs ++ hs ++ ys) ↔ Returned k hs := by
  have hmem {h : Happening} (hh : ¬ h.Plain) : h ∈ xs ++ hs ++ ys ↔ h ∈ hs := by
    rw [List.mem_append, List.mem_append]
    constructor
    · intro hm
      rcases hm with (hm | hm) | hm
      · exact absurd (hx h hm) hh
      · exact hm
      · exact absurd (hy h hm) hh
    · exact fun hm => .inl (.inr hm)
  unfold Returned
  constructor
  · intro h c d hm
    obtain ⟨v, hv⟩ := h c d ((hmem id).mpr hm)
    exact ⟨v, (hmem id).mp hv⟩
  · intro h c d hm
    obtain ⟨v, hv⟩ := h c d ((hmem id).mp hm)
    exact ⟨v, (hmem id).mpr hv⟩

/-- What else is noted of a dispatch makes no difference. -/
theorem Walked.pad {is : List Nat} {xs ys : List Happening} (h : Walked e i is d c r hs)
    (hx : ∀ h ∈ xs, h.Plain) (hy : ∀ h ∈ ys, h.Plain) (hl : r'.listed = r.listed) :
    Walked e i is d c r' (xs ++ hs ++ ys) := by
  have hnone {zs : List Happening} (hz : ∀ h ∈ zs, h.Plain) {h : Happening} (hh : ¬ h.Plain) :
      h ∉ zs := fun hm => hh (hz h hm)
  have horder {zs : List Happening} (hz : ∀ h ∈ zs, h.Plain) :
      ∀ us vs, zs = us ++ .flagged i :: vs → ∀ is, .destroyed is ∈ us → i ∉ is := by
    intro us vs heq
    have hm : .flagged i ∈ zs := by simp [heq]
    exact absurd hm (hnone hz id)
  cases h with
  | passed hq hwhy =>
    refine .passed ⟨?_, ?_, ?_⟩ ?_
    · intro c' y hm
      rcases List.mem_append.mp hm with hm | hm
      · rcases List.mem_append.mp hm with hm | hm
        · exact hnone hx id hm
        · exact hq.silent c' y hm
      · exact hnone hy id hm
    · intro hm
      rw [hl]
      rcases List.mem_append.mp hm with hm | hm
      · rcases List.mem_append.mp hm with hm | hm
        · exact absurd hm (hnone hx id)
        · exact hq.flag_listed hm
      · exact absurd hm (hnone hy id)
    · have hfirst := order_append (horder hx) hq.order fun is hm => absurd hm (hnone hx id)
      exact order_append hfirst (horder hy) fun is _ _ hm => hnone hy id hm
    · intro hi hf hd
      rcases hwhy hi hf hd with hfl | ⟨k, hk, hnot⟩
      · exact .inl (by simp [hfl])
      · exact .inr ⟨k, hk, fun hr => hnot ((returned_pad hx hy).mp hr)⟩
  | @called before after x hi hf hd hbefore hfl hafter hret =>
    have heq : xs ++ (before ++ .called i c x :: after) ++ ys =
        (xs ++ before) ++ .called i c x :: (after ++ ys) := by simp
    rw [heq]
    refine .called hi hf hd ?_ ?_ ?_ ?_
    · intro c' y hm
      rcases List.mem_append.mp hm with hm | hm
      · exact hnone hx id hm
      · exact hbefore c' y hm
    · intro hm
      rcases List.mem_append.mp hm with hm | hm
      · exact hnone hx id hm
      · exact hfl hm
    · intro c' y hm
      rcases List.mem_append.mp hm with hm | hm
      · exact hafter c' y hm
      · exact hnone hy id hm
    · intro k hk
      rw [← heq]
      exact (returned_pad hx hy).mpr (hret k hk)

/-- A registration that is destroyed during a walk is called afterwards exactly if it was due, and
    had not been called or flagged by then, unless an earlier callback panics. -/
theorem Walked.called_iff {is : List Nat} (h : Walked e i is d c r hs)
    {before after : List Happening} {ps : List Nat}
    (hsplit : hs = before ++ .destroyed ps :: after) (hi : i ∈ ps) :
    (∃ c' y, .called i c' y ∈ after) ↔ i ∈ is ∧ e.flagged = false ∧ e.due d c = true ∧
      (∀ c' y, .called i c' y ∉ before) ∧ .flagged i ∉ before ∧ ∀ k, k < i → Returned k hs := by
  cases h with
  | passed hq hwhy =>
    have hno : ¬ ∃ c' y, .called i c' y ∈ after := by
      intro hcall
      obtain ⟨c', y, hm⟩ := hcall
      exact hq.silent c' y (by simp [hsplit, hm])
    apply iff_of_false hno
    intro hall
    obtain ⟨his, hf, hd, -, hfl, hret⟩ := hall
    rcases hwhy his hf hd with hm | ⟨k, hk, hnot⟩
    · -- A flag after the destruction is out of the question.
      rw [hsplit, List.mem_append] at hm
      rcases hm with hm | hm
      · exact hfl hm
      · have hm : .flagged i ∈ after := by simpa using hm
        obtain ⟨us, vs, hafter⟩ := List.append_of_mem hm
        have hfull : hs = (before ++ .destroyed ps :: us) ++ .flagged i :: vs := by
          rw [hsplit, hafter]
          simp
        exact hq.order _ vs hfull ps (by simp) hi
    · exact hnot (hret k hk)
  | @called pre post x his hf hd hpre hfl hpost hret =>
    rcases split_around (by simp) hsplit with ⟨zs, hpre', hafter⟩ | ⟨zs, hpost', hbefore⟩
    · -- The call came after the destruction.
      refine iff_of_true ⟨c, x, by simp [hafter]⟩ ⟨his, hf, hd, ?_, ?_, hret⟩
      · intro c' y hm
        exact hpre c' y (by simp [hpre', hm])
      · intro hm
        exact hfl (by simp [hpre', hm])
    · -- The call came before the destruction.
      apply iff_of_false
      · intro hcall
        obtain ⟨c', y, hm⟩ := hcall
        exact hpost c' y (by simp [hpost', hm])
      · intro hall
        obtain ⟨-, -, -, hnot, -⟩ := hall
        exact hnot c x (by simp [hbefore])

theorem dispatch_walked (hr : r.Orderly) (he : r.entries[i]? = some e) (d : Device) (c : Change) :
    (dispatch d c).Ends (fun _ r' => ∃ hs, r'.history.toList = r.history.toList ++ hs ∧
      Walked e i (r.places (·.active)) d c r hs) r := by
  have hasc : (r.places (·.active)).Pairwise (· < ·) :=
    hr.ascending.sublist (by simp [places])
  have hlt : ∀ j ∈ r.places (·.active), j < (r.record (.dispatched d c)).entries.size :=
    fun j hj => hr.taken j (mem_places.mp hj).1
  apply dispatch_ends (Q := fun _ r' => ∃ hs, r'.history.toList = r.history.toList ++ hs ∧
    Walked e i (r.places (·.active)) d c r hs)
  apply Ends.mono (offerAll_walked (r := r.record (.dispatched d c)) hasc hlt he d c)
  intro o r' h message
  obtain ⟨hs, hh, hw⟩ := h
  rw [history_record, List.append_assoc] at hh
  cases o with
  | none =>
    have hpad : Walked e i (r.places (·.active)) d c r ([.dispatched d c] ++ hs ++ []) :=
      hw.pad (by simp [Happening.Plain]) (by simp) rfl
    rw [List.append_nil] at hpad
    exact ⟨_, hh, hpad⟩
  | some n =>
    have hlog := r'.history_log .debug message
    rw [hh, List.append_assoc] at hlog
    exact ⟨_, hlog, hw.pad (by simp [Happening.Plain]) (by simp [Happening.Plain]) rfl⟩

end Registry

end PlugWatch
