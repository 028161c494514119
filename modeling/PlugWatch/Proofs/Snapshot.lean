import PlugWatch.Bus.Memory
import PlugWatch.Proofs.Nesting
import PlugWatch.Proofs.Wellformed

/-! # A dispatch walks a snapshot

  A dispatch goes through the registrations that were active when it started, in order, and offers
  the change to each in its turn. Until then callbacks may have flagged a registration, but nothing
  else can have happened to it; and after its turn nothing else happens to it either. So what a
  dispatch does is known from the registrations as they are in their turns:

  * who **takes** the change is told of it, if it asks for it, and nobody else is told directly;
  * those that callbacks register meanwhile are not offered the change;
  * who takes the change is counted.
-/

namespace PlugWatch

/-! ## One offer -/

namespace Entry

variable {β : Type} [Bus β] {e : Entry β} {i : Nat} {d x : Device} {c : Change}

/-- The device that a registration gets or gives up if a change is offered to it. A flagged one
    takes nothing; an arrival is taken if the registration has no device under the id and accepts
    this one, a removal if it has one. -/
def taken? (e : Entry β) (d : Device) (c : Change) : Option Device :=
  if e.flagged then none
  else match c with
    | .arrived => if !e.has d.id && e.filter.accepts d.descriptor then some d else none
    | .left => e.recorded? d.id

/-- Whether a registration takes a change that is offered to it. -/
def takes (e : Entry β) (d : Device) (c : Change) : Bool :=
  (e.taken? d c).isSome

/-- The call of a registration, if it takes a change and asks for it; its callback returns `v`. -/
def told (e : Entry β) (i : Nat) (d : Device) (c : Change) (v : Verdict) : List (Nat × Call) :=
  if e.filter.wants c then (e.taken? d c).toList.map fun x => (i, ⟨c, x, some v⟩) else []

/-- A registration after a change was offered to it; its callback, if called, returned `v`. -/
def afterOffer (e : Entry β) (d : Device) (c : Change) (v : Verdict) : Entry β :=
  if e.takes d c then
    let e' := if e.filter.wants c then e.countCall c else e
    match c with
    | .arrived =>
      if e.filter.wants .arrived && v == .deregister then { e' with flagged := true }
      else e'.attach d
    | .left => e'.detach d.id
  else e

theorem taken?_of_passed (h : e.flagged = true ∨ e.expects d = false) :
    e.taken? d .arrived = none := by
  unfold taken?
  rcases h with hf | hx
  · simp [hf]
  · unfold expects at hx
    simp [hx]

theorem taken?_arrived (hf : e.flagged = false) (hx : e.expects d = true) :
    e.taken? d .arrived = some d := by
  unfold taken?
  unfold expects at hx
  simp [hf, hx]

theorem taken?_left (hf : e.flagged = false) : e.taken? d .left = e.recorded? d.id := by
  simp [taken?, hf]

theorem afterOffer_of_none (h : e.taken? d c = none) (v : Verdict) : e.afterOffer d c v = e := by
  simp [afterOffer, takes, h]

theorem afterOffer_left (h : e.taken? d .left = some x) (v : Verdict) :
    e.afterOffer d .left v =
      (if e.filter.wants .left then e.countCall .left else e).detach d.id := by
  simp [afterOffer, takes, h]

theorem told_of_none (h : e.taken? d c = none) (v : Verdict) : e.told i d c v = [] := by
  simp [told, h]

theorem told_silent (h : e.filter.wants c = false) (v : Verdict) : e.told i d c v = [] := by
  simp [told, h]

theorem told_of_some (h : e.taken? d c = some x) (hw : e.filter.wants c = true) (v : Verdict) :
    e.told i d c v = [(i, ⟨c, x, some v⟩)] := by
  simp [told, h, hw]

end Entry

namespace Registry

open Walk

variable {β : Type} [Bus β] {p : Nat → Prop} {r r' s t : Registry β} {e : Entry β} {i j n : Nat}
  {d x : Device} {c : Change} {v : Verdict} {taken : Bool} {is : List Nat}

/-- The registration at a place is `e`, but that it may have been flagged. -/
def Stands (r : Registry β) (i : Nat) (e : Entry β) : Prop :=
  ∃ f, r.entries[i]? = some { e with flagged := e.flagged || f }

namespace Stands

theorem of_entry (h : r.entries[i]? = some e) : r.Stands i e :=
  ⟨false, by rw [h, Bool.or_false]⟩

/-- If what stands there now may be flagged later, so may what stood there before. -/
theorem trans (h : r.Stands i e) (hs : ∀ e', r.entries[i]? = some e' → r'.Stands i e') :
    r'.Stands i e := by
  obtain ⟨f, he⟩ := h
  obtain ⟨f', he'⟩ := hs _ he
  exact ⟨f || f', by rw [he', Bool.or_assoc]⟩

/-- Whoever is not called may be flagged at most. -/
theorem spared (h : r.Stands i e) (hs : Spares p r r') (hi : ¬ p i) : r'.Stands i e := by
  apply h.trans
  intro e' he
  obtain ⟨b, he', -⟩ := hs.spared i e' hi he
  obtain ⟨e'', hsame, hages⟩ := hs.ages i e' he
  cases entry_eq he' hsame
  refine ⟨b, ?_⟩
  rw [he']
  cases hf : e'.flagged with
  | false => rfl
  | true =>
    have hb : b = true := hages.flagged hf
    rw [hb]
    rfl

/-- While the callback of a registration goes on, the registration may be flagged at most. -/
theorem body (he : s.entries[i]? = some e)
    (hm : Moves ((s.enter i c x).entries.size ≤ ·) (s.enter i c x) t) :
    t.Stands i (e.countCall c) := by
  have hlt : i < (s.enter i c x).entries.size := by
    simpa [enter] using lt_size_of_getElem? he
  exact (of_entry (getElem?_enter s i he c x)).spared hm.spares (Nat.not_le.mpr hlt)

/-- A registration gets a device, whether it may have been flagged or not. -/
theorem attach (h : r.Stands i e) (d : Device) :
    (r.update i (·.attach d)).Stands i (e.attach d) := by
  obtain ⟨f, he⟩ := h
  exact ⟨f, getElem?_update_self r i _ he⟩

end Stands

/-- A change was offered to the registration `e` at a place. -/
structure Served (e : Entry β) (i : Nat) (d : Device) (c : Change) (v : Verdict) (taken : Bool)
    (r r' : Registry β) : Prop where
  taken : taken = e.takes d c
  calls : Nested (e.told i d c v) r r'
  entry : r'.Stands i (e.afterOffer d c v)

namespace Served

/-- It was not for the registration. -/
theorem passed (he : r.entries[i]? = some e) (hn : e.taken? d c = none) (v : Verdict) :
    Served e i d c v false r r where
  taken := by simp [Entry.takes, hn]
  calls := by
    rw [Entry.told_of_none hn]
    exact .of_same rfl
  entry := by
    rw [Entry.afterOffer_of_none hn]
    exact .of_entry he

/-- The registration took it without a call. -/
theorem silent (hx : e.taken? d c = some x) (hw : e.filter.wants c = false)
    (hh : r'.history = r.history) (he : r'.entries[i]? = some (e.afterOffer d c v)) :
    Served e i d c v true r r' where
  taken := by simp [Entry.takes, hx]
  calls := by
    rw [Entry.told_silent hw]
    exact .of_same hh
  entry := .of_entry he

/-- The callback of the registration was entered, and it has returned; the registry was `s` when it
    was entered and `t` when it returned. -/
theorem told {cs : List (Nat × Call)} (hx : e.taken? d c = some x) (hw : e.filter.wants c = true)
    (hs : Nested [] r s) (hn : Nested cs (s.enter i c x) t)
    (hr : Nested [] (t.record (.answered i c x v)) r') (he : r'.Stands i (e.afterOffer d c v)) :
    Served e i d c v true r r' where
  taken := by simp [Entry.takes, hx]
  calls := by
    rw [Entry.told_of_some hx hw]
    exact ((hn.call v).before hr).after hs
  entry := he

end Served

theorem offerArrival_served (he : r.entries[i]? = some e)
    (hcalls : e.calls .arrived = e.filter.wants .arrived) (d : Device) :
    (offerArrival i (fun k d => run (e.onArrived k d)) d).Ends (fun o r' =>
      ∀ offer, o = some offer → ∃ v, Served e i d .arrived v (offer != .ignored) r r') r := by
  apply offerArrival_ends
  · intro hnone
    rw [he] at hnone
    cases hnone
  · intro e' he' hpass offer ho
    cases entry_eq he he'
    cases ho
    exact ⟨.keep, .passed he (Entry.taken?_of_passed hpass) .keep⟩
  · intro e' he' hf hx hc offer ho
    cases entry_eq he he'
    cases ho
    have htaken := Entry.taken?_arrived hf hx
    have hsilent : e.filter.wants .arrived = false := hcalls ▸ hc
    have hafter : e.afterOffer d .arrived .keep = e.attach d := by
      simp [Entry.afterOffer, Entry.takes, htaken, hsilent]
    refine ⟨.keep, .silent htaken hsilent rfl ?_⟩
    rw [hafter]
    exact getElem?_update_self r i _ he
  · intro e' he' hf hx hc
    cases entry_eq he he'
    have htaken := Entry.taken?_arrived hf hx
    have hwants : e.filter.wants .arrived = true := hcalls ▸ hc
    apply ((tame_run e.onArrived e.arrivals d _).and
      (run_returns (e.onArrived e.arrivals d) _)).mono
    intro o t ht
    obtain ⟨hm, hreturns⟩ := ht
    have hbody := Stands.body he hm
    match o with
    | none => exact fun offer ho => by cases ho
    | some .keep =>
      intro offer ho
      cases ho
      obtain ⟨cs, hn⟩ := hreturns rfl
      have hafter : e.afterOffer d .arrived .keep = (e.countCall .arrived).attach d := by
        simp [Entry.afterOffer, Entry.takes, htaken, hwants]
      refine ⟨.keep, .told htaken hwants (.of_same rfl) hn (.of_same rfl) ?_⟩
      rw [hafter]
      exact Stands.attach (r := t.record _) hbody d
    | some .deregister =>
      intro offer ho
      cases ho
      obtain ⟨cs, hn⟩ := hreturns rfl
      have hafter : e.afterOffer d .arrived .deregister =
          { e.countCall .arrived with flagged := true } := by
        simp [Entry.afterOffer, Entry.takes, htaken, hwants]
      refine ⟨.deregister, .told htaken hwants (.of_same rfl) hn (.dismiss _ i d.id) ?_⟩
      rw [hafter]
      obtain ⟨f, hflag⟩ := hbody
      exact .of_entry (t.getElem?_drop hflag d)

theorem offerLeft_served (he : r.entries[i]? = some e)
    (hcalls : e.calls .left = e.filter.wants .left) (d : Device) :
    (offerLeft i (fun k d => run (e.onLeft k d)) d.id).Ends (fun o r' =>
      ∀ taken, o = some taken → ∃ v, Served e i d .left v taken r r') r := by
  apply offerLeft_ends
  · intro hnone
    rw [he] at hnone
    cases hnone
  · intro e' he' hpass taken ho
    cases entry_eq he he'
    cases ho
    have hnone : e.taken? d .left = none := by
      rcases hpass with hf | hnone
      · simp [Entry.taken?, hf]
      · simp [Entry.taken?, hnone]
    exact ⟨.keep, .passed he hnone .keep⟩
  · intro e' x he' hf hx hc taken ho
    cases entry_eq he he'
    cases ho
    have htaken : e.taken? d .left = some x := by rw [Entry.taken?_left hf, hx]
    have hsilent : e.filter.wants .left = false := hcalls ▸ hc
    refine ⟨.keep, .silent htaken hsilent rfl ?_⟩
    rw [Entry.afterOffer_left htaken, if_neg (by simp [hsilent])]
    exact getElem?_update_self r i _ he
  · intro e' x he' hf hx hc
    cases entry_eq he he'
    have htaken : e.taken? d .left = some x := by rw [Entry.taken?_left hf, hx]
    have hwants : e.filter.wants .left = true := hcalls ▸ hc
    have hgone := getElem?_update_self r i (·.detach d.id) he
    apply ((tame_run e.onLeft e.removals x _).and
      (run_returns (e.onLeft e.removals x) _)).mono
    intro o t ht
    obtain ⟨hm, hreturns⟩ := ht
    cases o with
    | none => exact fun taken ho => by cases ho
    | some v =>
      intro taken ho
      cases ho
      obtain ⟨cs, hn⟩ := hreturns rfl
      refine ⟨v, .told htaken hwants (.of_same rfl) hn (.of_same rfl) ?_⟩
      have hbody := Stands.body (c := .left) hgone hm
      rw [Entry.afterOffer_left htaken, if_pos hwants]
      exact hbody

/-- A change that is offered is taken as the registration is at that time. -/
theorem offer_served (he : r.entries[i]? = some e) (hcalls : ∀ c, e.calls c = e.filter.wants c)
    (d : Device) (c : Change) :
    (offer d c i).Ends (fun o r' =>
      ∀ taken, o = some taken → ∃ v, Served e i d c v taken r r') r := by
  apply offer_ends
  · intro hnone
    rw [he] at hnone
    cases hnone
  · intro e' he' hc
    subst hc
    cases entry_eq he he'
    apply (offerArrival_served he (hcalls .arrived) d).mono
    intro o s hs taken ho
    cases o with
    | none => cases ho
    | some offer =>
      cases ho
      exact hs offer rfl
  · intro e' he' hc
    subst hc
    cases entry_eq he he'
    exact offerLeft_served he (hcalls .left) d

/-- An offer that does not return has called the registration, which has not returned. -/
theorem offer_unanswered (he : r.entries[i]? = some e) (d : Device) (c : Change) :
    (offer d c i).Ends (fun o r' => ∃ hs, r'.history.toList = r.history.toList ++ hs ∧
      (o = none → ∃ x, .called i c x ∈ hs ∧ ∀ v, .answered i c x v ∉ hs)) r := by
  apply (offer_offered he d c).mono
  intro o s h
  obtain ⟨hs, hh, hoffered⟩ := h
  refine ⟨hs, hh, ?_⟩
  intro ho
  subst ho
  cases hoffered with
  | passed hdone _ => cases hdone
  | @told x hs _ _ _ hdone =>
    refine ⟨x, by simp, ?_⟩
    intro v hv
    have hreturned := hdone.mpr ⟨v, by simpa using hv⟩
    cases hreturned

/-! ## Offers in turn -/

/-- The registration at a place as it is when a walk over registrations comes to it. -/
def atTurn (r : Registry β) (d : Device) (c : Change) (is : List Nat) (i : Nat) :
    Option (Entry β) :=
  (left (offerAll d c (is.takeWhile (· != i))) r).entries[i]?

@[simp] theorem atTurn_self : r.atTurn d c (j :: is) j = r.entries[j]? := by
  unfold atTurn
  rw [List.takeWhile_cons_of_neg (by simp)]
  rfl

/-- After the first offer comes the rest of the walk. -/
theorem left_offerAll_cons (h : answer? (offer d c j) r = some taken) :
    left (offerAll d c (j :: is)) r = left (offerAll d c is) (left (offer d c j) r) := by
  rw [offerAll, left_bind_of_some h]
  cases hrest : answer? (offerAll d c is) (left (offer d c j) r) with
  | none => exact (bind_of_none hrest).1
  | some n => exact left_bind_of_some hrest

theorem answer?_offerAll_cons (h : answer? (offer d c j) r = some taken) :
    answer? (offerAll d c (j :: is)) r =
      (answer? (offerAll d c is) (left (offer d c j) r)).map (taken.toNat + ·) := by
  rw [offerAll, answer?_bind_of_some h]
  cases hrest : answer? (offerAll d c is) (left (offer d c j) r) with
  | none => exact (bind_of_none hrest).2
  | some n => exact answer?_bind_of_some hrest

/-- If the first offer does not return, nothing comes after it. -/
theorem offerAll_cons_of_none (is : List Nat) (h : answer? (offer d c j) r = none) :
    left (offerAll d c (j :: is)) r = left (offer d c j) r ∧
      answer? (offerAll d c (j :: is)) r = none :=
  bind_of_none h

theorem atTurn_cons (hji : j ≠ i) (h : answer? (offer d c j) r = some taken) :
    r.atTurn d c (j :: is) i = (left (offer d c j) r).atTurn d c is i := by
  unfold atTurn
  rw [List.takeWhile_cons_of_pos (by simpa using hji), left_offerAll_cons h]

/-- What a walk over the registrations at `is` has done: `cs` are the direct calls, `n` is what it
    counted, and `v` is what callbacks returned. -/
structure Snapshot (d : Device) (c : Change) (is : List Nat) (v : Nat → Verdict)
    (cs : List (Nat × Call)) (n : Nat) (r r' : Registry β) : Prop where
  calls : cs = is.flatMap fun i => (r.atTurn d c is i).toList.flatMap (·.told i d c (v i))
  count : n = is.countP fun i => (r.atTurn d c is i).any (·.takes d c)
  /-- Until its turn a registration may be flagged at most, and the same after it. -/
  visited : ∀ i ∈ is, ∀ e, r.entries[i]? = some e → ∃ f e', e' = { e with flagged := f } ∧
    r.atTurn d c is i = some e' ∧ r'.Stands i (e'.afterOffer d c (v i))
  others : ∀ i ∉ is, ∀ e, r.entries[i]? = some e → r'.Stands i e

namespace Snapshot

/-- A walk over nobody. -/
theorem nil (v : Nat → Verdict) : Snapshot d c [] v [] 0 r r where
  calls := rfl
  count := rfl
  visited i hi := by cases hi
  others i _ e he := .of_entry he

/-- What is logged afterwards does not matter. -/
theorem log {v : Nat → Verdict} {cs : List (Nat × Call)} (h : Snapshot d c is v cs n r r')
    (level : LogLevel) (message : String) : Snapshot d c is v cs n r (r'.log level message) :=
  ⟨h.calls, h.count, h.visited, h.others⟩

/-- An offer, and the rest of the walk. -/
theorem cons {w : Nat → Verdict} {cs : List (Nat × Call)} (hj : j ∉ is)
    (he : r.entries[j]? = some e) (hans : answer? (offer d c j) r = some taken)
    (hserved : Served e j d c v taken r (left (offer d c j) r))
    (hspares : Spares (fun k => k = j ∨ r.entries.size ≤ k) r (left (offer d c j) r))
    (hrest : Snapshot d c is w cs n (left (offer d c j) r) r') :
    Snapshot d c (j :: is) (Function.update w j v) (e.told j d c v ++ cs) (taken.toNat + n)
      r r' := by
  have hne {i : Nat} (hi : i ∈ is) : i ≠ j := fun hij => hj (hij ▸ hi)
  have hlater {i : Nat} (hi : i ∈ is) :
      r.atTurn d c (j :: is) i = (left (offer d c j) r).atTurn d c is i :=
    atTurn_cons (hne hi).symm hans
  have hspared {i : Nat} (hij : i ≠ j) {a : Entry β} (ha : r.entries[i]? = some a) :
      (left (offer d c j) r).Stands i a := by
    have hlt := lt_size_of_getElem? ha
    exact (Stands.of_entry ha).spared hspares (by omega)
  refine ⟨?_, ?_, ?_, ?_⟩
  · rw [List.flatMap_cons, atTurn_self, he, Function.update_self, hrest.calls]
    congr 1
    · simp
    · exact List.flatMap_congr fun i hi => by rw [hlater hi, Function.update_of_ne (hne hi)]
  · rw [List.countP_cons, atTurn_self, he, hrest.count, hserved.taken, Nat.add_comm]
    congr 1
    · exact List.countP_congr fun i hi => by rw [hlater hi]
    · rw [Option.any_some]
      cases e.takes d c <;> rfl
  · intro i hi a ha
    by_cases hij : i = j
    · subst hij
      cases entry_eq he ha
      refine ⟨e.flagged, e, rfl, by rw [atTurn_self, he], ?_⟩
      rw [Function.update_self]
      exact hserved.entry.trans (hrest.others i hj)
    · have hmem : i ∈ is := (List.mem_cons.mp hi).resolve_left hij
      obtain ⟨f, hs⟩ := hspared hij ha
      obtain ⟨f', e', rfl, hturn, hstands⟩ := hrest.visited i hmem _ hs
      refine ⟨f', _, rfl, by rw [hlater hmem, hturn], ?_⟩
      rw [Function.update_of_ne hij]
      exact hstands
  · intro i hi a ha
    have hij : i ≠ j := fun hij => hi (by simp [hij])
    exact (hspared hij ha).trans (hrest.others i fun hmem => hi (by simp [hmem]))

end Snapshot

/-- A walk over registrations does in each turn what the registration is due as it is then. If the
    walk does not return, a callback that it called has not returned. -/
theorem offerAll_served (hr : r.Sane) (hnodup : is.Nodup) (hlt : ∀ i ∈ is, i < r.entries.size)
    (d : Device) (c : Change) :
    (offerAll d c is).Ends (fun o r' => ∃ hs, r'.history.toList = r.history.toList ++ hs ∧
      match o with
      | none => ∃ i ∈ is, ∃ x, .called i c x ∈ hs ∧ ∀ v, .answered i c x v ∉ hs
      | some n => ∃ v cs, Closes hs cs ∧ Snapshot d c is v cs n r r') r := by
  induction is generalizing r with
  | nil => exact ⟨[], by simp, fun _ => .keep, [], .of_unspoken (by simp), .nil _⟩
  | cons j js ih =>
    obtain ⟨hj, hnodup'⟩ := List.nodup_cons.mp hnodup
    have he := Array.getElem?_eq_getElem (hlt j (by simp))
    have hcalls := ((hr.tidy j).wellFormed _ he).calls_eq
    have hmoves := offer_moves (p := fun k => k = j ∨ r.entries.size ≤ k) (fun _ => .inr)
      (Nat.le_refl _) (.inl rfl) d c
    obtain ⟨hsteps, hm⟩ := ends_iff_answer?.mp ((offer_steps d c j r).and hmoves)
    obtain ⟨⟨hs, hh, hhalt⟩, hserved⟩ :=
      ends_iff_answer?.mp ((offer_unanswered he d c).and (offer_served he hcalls d c))
    rw [ends_iff_answer?]
    cases hans : answer? (offer d c j) r with
    | none =>
      obtain ⟨x, hx, hnot⟩ := hhalt hans
      obtain ⟨hleft, hnone⟩ := offerAll_cons_of_none js hans
      rw [hnone, hleft]
      exact ⟨hs, hh, j, by simp, x, hx, hnot⟩
    | some taken =>
      obtain ⟨v, hv⟩ := hserved taken hans
      obtain ⟨hs₀, hh₀, hcs₀⟩ := hv.calls
      have heq : hs₀ = hs := List.append_cancel_left (hh₀.symm.trans hh)
      subst heq
      have hlt' : ∀ i ∈ js, i < (left (offer d c j) r).entries.size :=
        fun i hi => Nat.lt_of_lt_of_le (hlt i (by simp [hi])) hm.spares.size_le
      obtain ⟨hs', hh', hrest⟩ := ends_iff_answer?.mp (ih (hsteps.sane hr) hnodup' hlt')
      rw [left_offerAll_cons hans, answer?_offerAll_cons hans]
      refine ⟨hs₀ ++ hs', by rw [hh', hh, List.append_assoc], ?_⟩
      cases hrestans : answer? (offerAll d c js) (left (offer d c j) r) with
      | none =>
        rw [hrestans] at hrest
        obtain ⟨i, hi, x, hx, hnot⟩ := hrest
        have hij : i ≠ j := fun hij => hj (hij ▸ hi)
        have hlti := hlt i (by simp [hi])
        have haloof : Aloof i hs₀ r _ := .of_moves hm hh (by omega) hlti
        refine ⟨i, by simp [hi], x, by simp [hx], ?_⟩
        intro v hv
        rcases List.mem_append.mp hv with hv | hv
        · exact haloof.not_answered c x v hv
        · exact hnot v hv
      | some n =>
        rw [hrestans] at hrest
        obtain ⟨w, cs, hcs, hsnap⟩ := hrest
        exact ⟨_, _, hcs₀.append hcs, .cons hj he hans hv hm.spares hsnap⟩

/-! ## Dispatches -/

/-- A dispatch offers the change, in order, to the registrations that were active when it started,
    each as it is in its turn, and to no other. It does not return only if a callback that it called
    does not. -/
theorem dispatch_snapshot (hr : r.Reachable) (d : Device) (c : Change) :
    (dispatch d c).Ends (fun o r' => ∃ hs, r'.history.toList = r.history.toList ++ hs ∧
      match o with
      | none => ∃ i ∈ r.places (·.active), ∃ x, .called i c x ∈ hs ∧ ∀ v, .answered i c x v ∉ hs
      | some n => ∃ v, Snapshot d c (r.places (·.active)) v (directCalls hs) n
          (r.record (.dispatched d c)) r') r := by
  obtain ⟨b, hsteps⟩ := hr.steps
  have horderly := (hsteps.regular (regular_fresh b)).orderly
  have hsane : (r.record (.dispatched d c)).Sane :=
    (Step.opening (.dispatched r d c)).sane (hsteps.sane (sane_fresh b))
  have hlt : ∀ i ∈ r.places (·.active), i < (r.record (.dispatched d c)).entries.size :=
    fun i hi => horderly.taken i (mem_places.mp hi).1
  apply dispatch_counts
  apply (offerAll_served hsane (horderly.nodup_places _) hlt d c).mono
  intro o s h message
  obtain ⟨hs, hh, hend⟩ := h
  rw [history_record, List.append_assoc] at hh
  match o with
  | none =>
    obtain ⟨i, hi, x, hx, hnot⟩ := hend
    exact ⟨_, hh, i, hi, x, by simp [hx], by simpa using hnot⟩
  | some n =>
    obtain ⟨v, cs, hcs, hsnap⟩ := hend
    have hnote : Nested [] r (r.record (.dispatched d c)) :=
      .of_notes (history_record r _) (by simp [Happening.Unspoken])
    have hwalk : Nested cs (r.record (.dispatched d c)) s := ⟨hs, by simpa using hh, hcs⟩
    obtain ⟨hs', hh', hcs'⟩ := (hwalk.after hnote).before (.log s .debug message)
    refine ⟨hs', hh', v, ?_⟩
    rw [hcs'.directCalls_eq]
    exact hsnap.log .debug message

/-- Five registrations: one whose callback makes a sixth, to which the devices present are replayed,
    and deregisters the second; the second; one that asks to be dropped; one that asks for removals
    alone; and one whose filter fits no device of the bus. -/
def crowd : List (Operation MemoryBus) :=
  let first : Registration MemoryBus :=
    { Registration.listener {} with
      onArrived _ _ := .register { enumerate := true } .both (fun _ _ => .finish .keep)
        (fun _ _ => .finish .keep) fun _ => .act (.deregister ⟨2⟩) fun _ => .finish .keep }
  let third : Registration MemoryBus :=
    { Registration.listener {} with onArrived _ _ := .finish .deregister }
  [.act (.bus (.plug (MemoryBus.sample 1))), .register first, .register (.listener {}),
    .register third, .register (.listener { changes := .only .left }),
    .register (.listener { vendor := .exactly 0 })]

theorem dispatch_snapshot_crowd :
    ∃ (r s : Registry MemoryBus) (hs : List Happening) (v : Nat → Verdict), r.Reachable ∧
      (dispatch (MemoryBus.sample 1) .arrived).run r = .ok 3 s ∧
      s.history.toList = r.history.toList ++ hs ∧ s.entries.size = 6 ∧
      s.places (·.has (MemoryBus.sample 1).id) = [0, 3, 5] ∧ s.places (·.flagged) = [1, 2] ∧
      Snapshot (MemoryBus.sample 1) .arrived [0, 1, 2, 3, 4] v (directCalls hs) 3
        (r.record (.dispatched (MemoryBus.sample 1) .arrived)) s := by
  have hr := Reachable.afterAll (.fresh {}) crowd
  have hanswer : answer? (dispatch (MemoryBus.sample 1) .arrived) (afterAll { bus := {} } crowd) =
      some 3 := by decide +kernel
  have hplaces : (afterAll { bus := {} } crowd).places (·.active) = [0, 1, 2, 3, 4] := by
    decide +kernel
  obtain ⟨hs, hh, hend⟩ := ends_iff_answer?.mp (dispatch_snapshot hr (MemoryBus.sample 1) .arrived)
  rw [hanswer, hplaces] at hend
  obtain ⟨v, hsnap⟩ := hend
  exact ⟨_, _, hs, v, hr, run_of_answer? hanswer, hh, by decide +kernel, by decide +kernel,
    by decide +kernel, hsnap⟩

end Registry

end PlugWatch
