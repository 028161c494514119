import PlugWatch.Proofs.Messages
import PlugWatch.Proofs.Snapshot
import PlugWatch.Proofs.Whereabouts

/-! # Where a panic stops

  A callback that panics, at whatever depth, takes everything with it that led to it: the offer
  under way, the walk over the registrations, and the series of messages. None of them is started
  again, so what is left is known from where each was stopped:

  * of a series of messages, some were acted on and one was taken, and the rest still wait;
  * of a walk over registrations, some had their turns, one was called and has not answered, and
    the rest were not come to;
  * the registration that was called does not have the device.

  Acting on messages does not take anybody off the list, and it does not touch those that are
  flagged already. They wait for the sweep, which a panic does not do.
-/

namespace PlugWatch

namespace Entry

variable {β : Type} [Bus β] {e : Entry β}

/-- A registration does not have what it forgot. -/
theorem has_detach (e : Entry β) (id : DeviceId) : (e.detach id).has id = false := by
  rw [not_has_iff]
  intro x hx
  simpa using (List.mem_filter.mp hx).2

/-- There is nothing to forget about a device that a registration does not have. -/
theorem detach_of_not_has {id : DeviceId} (h : e.has id = false) : e.detach id = e := by
  have hsame : e.attached.filter (·.id != id) = e.attached := by
    apply List.filter_eq_self.mpr
    intro x hx
    simpa using not_has_iff.mp h x hx
  unfold detach
  rw [hsame]

end Entry

namespace Registry

open Walk

variable {β : Type} [Bus β] {p : Nat → Prop} {r r' r'' s u : Registry β} {e e' : Entry β}
  {i j k n : Nat} {d : Device} {c : Change} {is : List Nat} {hs : List Happening} {m : Message}
  {mailbox : Mailbox}

/-! ## Where a walk is cut short -/

/-- A walk over registrations that does not return was stopped in the turn of one of them. -/
theorem offerAll_cut (h : answer? (offerAll d c is) r = none) :
    ∃ before i after n, is = before ++ i :: after ∧ answer? (offerAll d c before) r = some n ∧
      answer? (offer d c i) (left (offerAll d c before) r) = none ∧
      left (offerAll d c is) r = left (offer d c i) (left (offerAll d c before) r) := by
  induction is generalizing r with
  | nil => cases h
  | cons j js ih =>
    cases hfirst : answer? (offer d c j) r with
    | none => exact ⟨[], j, js, 0, rfl, rfl, hfirst, (offerAll_cons_of_none js hfirst).1⟩
    | some taken =>
      -- The first had its turn, so the walk was stopped in the rest of it.
      rw [answer?_offerAll_cons hfirst, Option.map_eq_none_iff] at h
      obtain ⟨before, i, after, n, rfl, hbefore, hnone, hleft⟩ := ih h
      refine ⟨j :: before, i, after, taken.toNat + n, rfl, ?_, ?_, ?_⟩
      · rw [answer?_offerAll_cons hfirst, hbefore]
        rfl
      · rwa [left_offerAll_cons hfirst]
      · rw [left_offerAll_cons hfirst, left_offerAll_cons hfirst, hleft]

/-- A dispatch that does not return was stopped in its walk. -/
theorem dispatch_cut (h : answer? (dispatch d c) r = none) :
    answer? (offerAll d c (r.places (·.active))) (r.record (.dispatched d c)) = none ∧
      left (dispatch d c) r =
        left (offerAll d c (r.places (·.active))) (r.record (.dispatched d c)) := by
  have hends : (dispatch d c).Ends (fun o s => o = none →
      answer? (offerAll d c (r.places (·.active))) (r.record (.dispatched d c)) = none ∧
        s = left (offerAll d c (r.places (·.active))) (r.record (.dispatched d c))) r := by
    apply dispatch_counts
    rw [ends_iff_answer?]
    intro message ho
    simp [ho]
  exact ends_iff_answer?.mp hends h

section Messages

variable (hm : r.mailbox.take? = some (m, mailbox))

include hm

/-- The oldest message is acted on first. -/
theorem run_processUpTo_succ (n : Nat) : (processUpTo (n + 1)).run r =
    (process m >>= fun _ => processUpTo n >>= fun k => pure (k + 1) : Walk β Nat).run
      ({ r with mailbox }.record (.taken m)) := by
  have htake : (take? : Walk β (Option Message)).run r =
      .ok (some m) ({ r with mailbox }.record (.taken m)) := by
    show EStateM.Result.ok _ _ = _
    rw [hm]
  rw [processUpTo, EStateM.run_bind, htake]

/-- If acting on the oldest message does not return, nothing comes after it. -/
theorem processUpTo_succ_of_none (n : Nat)
    (h : answer? (process m) ({ r with mailbox }.record (.taken m)) = none) :
    left (processUpTo (n + 1)) r = left (process m) ({ r with mailbox }.record (.taken m)) := by
  rw [left, run_processUpTo_succ hm]
  exact (bind_of_none h).1

/-- After the oldest message come the others. -/
theorem processUpTo_succ_of_some (n : Nat)
    (h : answer? (process m) ({ r with mailbox }.record (.taken m)) = some ⟨⟩)
    (hs : s = left (process m) ({ r with mailbox }.record (.taken m))) :
    answer? (processUpTo (n + 1)) r = (answer? (processUpTo n) s).map (· + 1) ∧
      left (processUpTo (n + 1)) r = left (processUpTo n) s := by
  have hanswer : answer? (processUpTo (n + 1)) r =
      answer? (processUpTo n >>= fun k => pure (k + 1)) s := by
    rw [hs, answer?, run_processUpTo_succ hm]
    exact answer?_bind_of_some h
  have hleft : left (processUpTo (n + 1)) r =
      left (processUpTo n >>= fun k => pure (k + 1)) s := by
    rw [hs, left, run_processUpTo_succ hm]
    exact left_bind_of_some h
  rw [hanswer, hleft]
  cases hrest : answer? (processUpTo n) s with
  | none => exact ⟨(bind_of_none hrest).2, (bind_of_none hrest).1⟩
  | some k => exact ⟨answer?_bind_of_some hrest, left_bind_of_some hrest⟩

end Messages

/-- A series of messages that is not finished was stopped at one of them. -/
theorem processUpTo_cut (h : answer? (processUpTo n) r = none) :
    ∃ k m mailbox t, k < n ∧ answer? (processUpTo k) r = some k ∧ left (processUpTo k) r = t ∧
      t.mailbox.take? = some (m, mailbox) ∧
      answer? (process m) ({ t with mailbox }.record (.taken m)) = none ∧
      left (processUpTo n) r = left (process m) ({ t with mailbox }.record (.taken m)) := by
  induction n generalizing r with
  | zero => cases h
  | succ n ih =>
    cases hm : r.mailbox.take? with
    | none =>
      have hidle : answer? (processUpTo (n + 1)) r = some 0 := by
        apply (ends_iff_answer? (Q := fun o _ => o = some 0)).mp
        rw [processUpTo, take?, ends_bind, ends_modifyGet, hm]
        rfl
      rw [hidle] at h
      cases h
    | some x =>
      obtain ⟨m, mailbox⟩ := x
      cases hfirst : answer? (process m) ({ r with mailbox }.record (.taken m)) with
      | none =>
        exact ⟨0, m, mailbox, r, Nat.succ_pos n, rfl, rfl, hm, hfirst,
          processUpTo_succ_of_none hm n hfirst⟩
      | some u =>
        -- The first was acted on, so the series was stopped at a later one.
        have hsucc (k : Nat) := processUpTo_succ_of_some hm k hfirst rfl
        rw [(hsucc n).1, Option.map_eq_none_iff] at h
        obtain ⟨k, m', mailbox', t, hk, hanswer, ht, htake, hnone, hleft⟩ := ih h
        refine ⟨k + 1, m', mailbox', t, Nat.succ_lt_succ hk, ?_, ?_, htake, hnone, ?_⟩
        · rw [(hsucc k).1, hanswer]
          rfl
        · rw [(hsucc k).2, ht]
        · rw [(hsucc n).2, hleft]

/-! ## The offer under way -/

/-- An offer that does not return has entered the callback of the registration, which would have
    taken the change. The registration does not have the device any more, or not yet; and while its
    callback went on, it may have been flagged. -/
theorem offer_halted (he : r.entries[i]? = some e) (d : Device) (c : Change) :
    (offer d c i).Ends (fun o r' => o = none → ∃ x, e.taken? d c = some x ∧ r'.Engaged i c x ∧
      r'.Stands i ((e.countCall c).detach d.id)) r := by
  apply offer_ends
  · intro hnone
    rw [he] at hnone
    cases hnone
  · intro e' he' hc
    subst hc
    cases entry_eq he he'
    apply offerArrival_ends
    · exact fun _ ho => by cases ho
    · exact fun _ _ _ ho => by cases ho
    · exact fun _ _ _ _ _ ho => by cases ho
    · intro e' he' hf hx hc
      cases entry_eq he he'
      have hlt : i < (r.enter i .arrived d).entries.size := by
        simpa [enter] using lt_size_of_getElem? he
      have hnew : (e.countCall .arrived).has d.id = false := by
        have hexpects : e.has d.id = false ∧ e.filter.accepts d.descriptor = true := by
          simpa [Entry.expects] using hx
        exact hexpects.1
      apply (tame_run e.onArrived e.arrivals d _).mono
      intro o t hm
      cases o with
      | some v =>
        cases v with
        | keep => exact fun ho => by cases ho
        | deregister => exact fun ho => by cases ho
      | none =>
        -- It would have been attached after the answer, so there is nothing to forget.
        intro _
        refine ⟨d, Entry.taken?_arrived hf hx, (engaged_enter r i .arrived d).of_moves hlt hm, ?_⟩
        rw [Entry.detach_of_not_has hnew]
        exact .body he hm
  · intro e' he' hc
    subst hc
    cases entry_eq he he'
    apply offerLeft_ends
    · exact fun _ ho => by cases ho
    · exact fun _ _ _ ho => by cases ho
    · exact fun _ _ _ _ _ _ ho => by cases ho
    · intro e' x he' hf hx hc
      cases entry_eq he he'
      -- The device was forgotten before the callback was entered.
      have hgone := getElem?_update_self r i (·.detach d.id) he
      have hlt : i < ((r.update i (·.detach d.id)).enter i .left x).entries.size := by
        simpa [enter] using lt_size_of_getElem? hgone
      apply (tame_run e.onLeft e.removals x _).mono
      intro o t hm
      cases o with
      | some v => exact fun ho => by cases ho
      | none =>
        intro _
        have htaken : e.taken? d .left = some x := by rw [Entry.taken?_left hf, hx]
        exact ⟨x, htaken, (engaged_enter _ i .left x).of_moves hlt hm,
          Stands.body (c := .left) hgone hm⟩

/-- What a dispatch that began at `s` leaves if a callback panics in the turn of the registration at
    `i`. The registrations at `before` had their turns, in which callbacks returned `v`; those at
    `after` were still to come. -/
structure CutShort (d : Device) (c : Change) (before : List Nat) (i : Nat) (after : List Nat)
    (v : Nat → Verdict) (s r' : Registry β) : Prop where
  snapshot : s.places (·.active) = before ++ i :: after
  /-- Who had a turn took the change as it was then, and keeps what it took. -/
  earlier : ∀ j ∈ before, ∀ e, s.entries[j]? = some e → ∃ f e', e' = { e with flagged := f } ∧
    s.atTurn d c before j = some e' ∧ r'.Stands j (e'.afterOffer d c (v j))
  /-- The callback of the registration was entered and has not answered. All that happened to the
      registration is that the call was counted, that the device is gone, and perhaps a flag. -/
  running : ∃ e x, s.entries[i]? = some e ∧ e.taken? d c = some x ∧ r'.Engaged i c x ∧
    r'.Stands i ((e.countCall c).detach d.id)
  gone : ∀ e, r'.entries[i]? = some e → e.has d.id = false
  /-- All others may have been flagged at most, and no callback of theirs was entered. -/
  later : ∀ j ∉ before, j ≠ i → ∀ e, s.entries[j]? = some e →
    r'.Stands j e ∧ r'.calls j = s.calls j

/-- Whoever takes a change is not flagged, so a registration that may have been flagged was not. -/
theorem Stands.eq_of_taken {x : Device} (h : r.Stands i e) (he : r.entries[i]? = some e')
    (hx : e'.taken? d c = some x) : e' = e := by
  obtain ⟨f, hstands⟩ := h
  obtain rfl := entry_eq hstands he
  have hactive : (e.flagged || f) = false := by
    by_contra hf
    have hset : (e.flagged || f) = true := (Bool.not_eq_false _).mp hf
    simp [Entry.taken?, hset] at hx
  obtain ⟨hflag, -⟩ := Bool.or_eq_false_iff.mp hactive
  rw [hactive, ← hflag]

/-- A walk over the registrations at `before` came to an end at `u`, and the offer after it did
    not. -/
theorem CutShort.of_walk {before after : List Nat} {v : Nat → Verdict} {cs : List (Nat × Call)}
    (hsplit : s.places (·.active) = before ++ i :: after) (hi : i ∉ before)
    (hlt : ∀ j ∈ before ++ i :: after, j < s.entries.size)
    (hsnap : Snapshot d c before v cs n s u)
    (hm : Moves (fun j => j ∈ before ∨ s.entries.size ≤ j) s u)
    (hm' : Moves (fun j => j = i ∨ u.entries.size ≤ j) u r')
    (hhalt : ∀ e, u.entries[i]? = some e → ∃ x, e.taken? d c = some x ∧ r'.Engaged i c x ∧
      r'.Stands i ((e.countCall c).detach d.id)) : CutShort d c before i after v s r' := by
  obtain ⟨e, he⟩ : ∃ e, s.entries[i]? = some e :=
    ⟨_, Array.getElem?_eq_getElem (hlt i (by simp))⟩
  obtain ⟨e', he'⟩ : ∃ e', u.entries[i]? = some e' := by
    obtain ⟨f, he'⟩ := hsnap.others i hi e he
    exact ⟨_, he'⟩
  obtain ⟨x, hx, hengaged, hafter⟩ := hhalt e' he'
  -- The registration takes the change, so it was not flagged by those before.
  obtain rfl := (hsnap.others i hi e he).eq_of_taken he' hx
  refine ⟨hsplit, ?_, ⟨e', x, he, hx, hengaged, hafter⟩, ?_, ?_⟩
  · -- Those before are not called in the turn of another.
    intro j hj a ha
    obtain ⟨f, a', heq, hturn, hkept⟩ := hsnap.visited j hj a ha
    refine ⟨f, a', heq, hturn, hkept.spared hm'.spares ?_⟩
    have hji : j ≠ i := fun hji => hi (hji ▸ hj)
    have hltj := Nat.lt_of_lt_of_le (lt_size_of_getElem? ha) hm.spares.size_le
    omega
  · intro a ha
    obtain ⟨f, hgone⟩ := hafter
    cases entry_eq hgone ha
    exact Entry.has_detach _ d.id
  · intro j hj hji a ha
    have hltj := lt_size_of_getElem? ha
    have hle := hm.spares.size_le
    have hearlier : ¬ (j ∈ before ∨ s.entries.size ≤ j) := by
      intro hcalled
      obtain hmem | hnew := hcalled
      · exact hj hmem
      · omega
    have hrunning : ¬ (j = i ∨ u.entries.size ≤ j) := by omega
    refine ⟨(hsnap.others j hj a ha).spared hm'.spares hrunning, ?_⟩
    rw [hm'.spares.calls_eq hrunning, hm.spares.calls_eq hearlier]

/-- A dispatch that does not return is cut short. -/
theorem dispatch_cutShort (hr : r.Orderly) (hsane : (r.record (.dispatched d c)).Sane)
    (h : answer? (dispatch d c) r = none) :
    ∃ before i after v, CutShort d c before i after v (r.record (.dispatched d c))
      (left (dispatch d c) r) := by
  obtain ⟨hwalk, hleft⟩ := dispatch_cut h
  obtain ⟨before, i, after, n, hsplit, hbefore, hhalt, hcut⟩ := offerAll_cut hwalk
  have hnodup := hr.nodup_places (·.active)
  rw [hsplit] at hnodup
  have hi : i ∉ before := by
    intro hmem
    exact (List.nodup_append.mp hnodup).2.2 i hmem i (by simp) rfl
  have hlt : ∀ j ∈ before ++ i :: after, j < r.entries.size := by
    intro j hj
    rw [← hsplit] at hj
    exact hr.taken j (mem_places.mp hj).1
  -- Those before had their turns in a walk of its own, which came to an end.
  have hserved := offerAll_served hsane hnodup.of_append_left
    (fun j hj => hlt j (by simp [hj])) d c
  have hmoves := offerAll_moves (p := fun j => j ∈ before ∨ r.entries.size ≤ j) (fun _ => .inr) d c
    (fun _ => .inl) (Nat.le_refl (r.record (.dispatched d c)).entries.size)
  obtain ⟨⟨hs, -, hend⟩, hm⟩ := ends_iff_answer?.mp (hserved.and hmoves)
  rw [hbefore] at hend
  obtain ⟨v, cs, -, hsnap⟩ := hend
  refine ⟨before, i, after, v, ?_⟩
  rw [hleft, hcut]
  apply CutShort.of_walk (s := r.record (.dispatched d c)) hsplit hi hlt hsnap hm
  · exact ends_iff_answer?.mp (offer_moves (fun _ => .inr) (Nat.le_refl _) (.inl rfl) d c)
  · intro e he
    exact ends_iff_answer?.mp (offer_halted he d c) hhalt

/-! ## Who stays on the list -/

/-- Whoever is held stays held, unless all registrations are destroyed, or one that is made meanwhile
    gets the same handle. A handle comes round again only after 2³² registrations; if the bus then
    fails to list the devices for the new one, both are taken off the list. -/
structure Remains (r r' : Registry β) : Prop where
  news : r.history.toList <+: r'.history.toList
  size_le : r.entries.size ≤ r'.entries.size
  ages : ∀ (i : Nat) (e : Entry β), r.entries[i]? = some e →
    ∃ e', r'.entries[i]? = some e' ∧ e.Ages e'
  held : ∀ hs, r'.history.toList = r.history.toList ++ hs → (∀ is, .destroyed is ∉ hs) →
    ∀ i ∈ r.listed, r'.Unshared (r.entries.size ≤ ·) i → i ∈ r'.listed

namespace Remains

theorem trans (h : Remains r r') (h' : Remains r' r'') : Remains r r'' where
  news := h.news.trans h'.news
  size_le := Nat.le_trans h.size_le h'.size_le
  ages i e he := by
    obtain ⟨e', he', ha⟩ := h.ages i e he
    obtain ⟨e'', he'', ha'⟩ := h'.ages i e' he'
    exact ⟨e'', he'', ha.trans ha'⟩
  held hs hh hd i hi hu := by
    obtain ⟨xs, hxs⟩ := h.news
    obtain ⟨ys, hys⟩ := h'.news
    have hsplit : hs = xs ++ ys := news_split hxs hys hh
    have hmiddle := h.held xs hxs.symm (fun is hm => hd is (by simp [hsplit, hm])) i hi
      (hu.before h'.ages)
    -- Those made in the second part were made in the whole.
    have hlater : r''.Unshared (r'.entries.size ≤ ·) i :=
      fun j e e' hj => hu j e e' (Nat.le_trans h.size_le hj)
    exact h'.held ys hys.symm (fun is hm => hd is (by simp [hsplit, hm])) i hmiddle hlater

/-- The list is not touched, and neither is any registration. -/
theorem of_same (he : r'.entries = r.entries) (hl : r'.listed = r.listed)
    (hh : r'.history.toList = r.history.toList ++ hs) : Remains r r' where
  news := ⟨hs, hh.symm⟩
  size_le := Nat.le_of_eq (by rw [he])
  ages i e hi := ⟨e, he ▸ hi, .refl e⟩
  held _ _ _ i hi _ := hl ▸ hi

theorem refl (r : Registry β) : Remains r r :=
  of_same rfl rfl (List.append_nil r.history.toList).symm

/-- What is done to a registration does not touch the list. -/
theorem of_spares (hs : Spares p r r') (hl : r'.listed = r.listed) : Remains r r' where
  news := by
    obtain ⟨xs, hh, -⟩ := hs.news
    exact ⟨xs, hh.symm⟩
  size_le := hs.size_le
  ages := hs.ages
  held _ _ _ i hi _ := hl ▸ hi

/-- Scripts take off the list only what they made. -/
theorem of_moves (hm : Moves (r.entries.size ≤ ·) r r') : Remains r r' where
  news := hm.news
  size_le := hm.spares.size_le
  ages := hm.spares.ages
  held _ hh hd _ hi hu := hm.remains hu hh hd hi

/-- A callback of a registration was entered, and goes on or has come to its end. -/
theorem of_call (hlt : i < r.entries.size) {x : Device}
    (hm : Moves ((r.enter i c x).entries.size ≤ ·) (r.enter i c x) s) : Remains r s := by
  have henter : Spares (fun _ => True) r (r.enter i c x) := (Move.enter r c x trivial hlt).spares
  exact (of_spares henter rfl).trans (of_moves hm)

end Remains

theorem offerArrival_remains {f : Nat → Device → Walk β Verdict} (hf : Tame f) (i : Nat)
    (d : Device) (r : Registry β) :
    (offerArrival i f d).Ends (fun _ r' => Remains r r') r := by
  apply offerArrival_ends
  · exact fun _ => .refl r
  · exact fun _ _ _ => .refl r
  · intro e he _ _ _
    have hadopted : Move (fun _ => True) r (r.update i (·.attach d)) :=
      .adopt r d trivial (lt_size_of_getElem? he)
    exact .of_spares hadopted.spares rfl
  · intro e he _ _ _
    have hlt := lt_size_of_getElem? he
    apply (hf e.arrivals d _).mono
    intro o t hm
    have hcall : Remains r t := .of_call hlt hm
    have hlt' := Nat.lt_of_lt_of_le hlt hcall.size_le
    match o with
    | none => exact hcall
    | some .keep =>
      have hkept : Move (fun _ => True) t (t.keep i d) := .keep t d trivial hlt'
      exact hcall.trans (.of_spares hkept.spares rfl)
    | some .deregister =>
      have hdropped : Move (fun _ => True) t (t.drop i d) := .drop t d trivial hlt'
      exact hcall.trans (.of_spares hdropped.spares (by simp [drop]))

theorem offerLeft_remains {f : Nat → Device → Walk β Verdict} (hf : Tame f) (i : Nat)
    (id : DeviceId) (r : Registry β) :
    (offerLeft i f id).Ends (fun _ r' => Remains r r') r := by
  have hdetached (hlt : i < r.entries.size) : Remains r (r.update i (·.detach id)) := by
    have hm : Move (fun _ => True) r (r.update i (·.detach id)) := .detach r id trivial hlt
    exact .of_spares hm.spares rfl
  apply offerLeft_ends
  · exact fun _ => .refl r
  · exact fun _ _ _ => .refl r
  · exact fun e x he _ _ _ => hdetached (lt_size_of_getElem? he)
  · intro e x he _ _ _
    have hlt := lt_size_of_getElem? he
    apply (hf e.removals x _).mono
    intro o t hm
    have hcall := (hdetached hlt).trans (.of_call (by simpa using hlt) hm)
    cases o with
    | none => exact hcall
    | some v => exact hcall.trans (.of_same rfl rfl (history_record t _))

theorem offer_remains (d : Device) (c : Change) (i : Nat) (r : Registry β) :
    (offer d c i).Ends (fun _ r' => Remains r r') r :=
  offer_ends (fun _ => .refl r)
    (fun e _ _ => offerArrival_remains (tame_run e.onArrived) i d r)
    (fun e _ _ => offerLeft_remains (tame_run e.onLeft) i d.id r)

theorem offerAll_remains (d : Device) (c : Change) (is : List Nat) (r : Registry β) :
    (offerAll d c is).Ends (fun _ r' => Remains r r') r := by
  induction is generalizing r with
  | nil => exact Remains.refl r
  | cons i is ih =>
    apply offerAll_cons_ends_of (Q := fun _ r' => Remains r r')
    apply (offer_remains d c i r).mono
    intro o s hfirst
    cases o with
    | none => exact hfirst
    | some _ => exact (ih s).mono fun _ _ hrest => hfirst.trans hrest

theorem dispatch_remains (d : Device) (c : Change) (r : Registry β) :
    (dispatch d c).Ends (fun _ r' => Remains r r') r := by
  have hnoted : Remains r (r.record (.dispatched d c)) := .of_same rfl rfl (history_record r _)
  apply dispatch_ends (Q := fun _ r' => Remains r r')
  apply (offerAll_remains d c _ _).mono
  intro o s hwalk message
  cases o with
  | none => exact hnoted.trans hwalk
  | some n => exact (hnoted.trans hwalk).trans (.of_same rfl rfl (history_log s _ message))

/-! ## What acting on messages leaves alone -/

/-- What acting on messages does up to any point. -/
structure Acts (r r' : Registry β) : Prop extends Remains r r' where
  /-- Nobody is reclaimed. -/
  unswept : ∀ hs, r'.history.toList = r.history.toList ++ hs → ∀ i, .reclaimed i ∉ hs
  /-- Nothing happens to those that are flagged already. -/
  aside : ∀ i, r.IsFlagged i → r'.entries[i]? = r.entries[i]? ∧ r'.calls i = r.calls i

namespace Acts

theorem isFlagged (h : Acts r r') (hi : r.IsFlagged i) : r'.IsFlagged i := by
  obtain ⟨e, he, hf⟩ := hi
  obtain ⟨e', he', ha⟩ := h.ages i e he
  exact ⟨e', he', ha.flagged hf⟩

theorem trans (h : Acts r r') (h' : Acts r' r'') : Acts r r'' where
  toRemains := h.toRemains.trans h'.toRemains
  unswept hs hh i hm := by
    obtain ⟨xs, hxs⟩ := h.news
    obtain ⟨ys, hys⟩ := h'.news
    obtain rfl := news_split hxs hys hh
    obtain hm | hm := List.mem_append.mp hm
    · exact h.unswept xs hxs.symm i hm
    · exact h'.unswept ys hys.symm i hm
  aside i hi := by
    obtain ⟨he, hc⟩ := h.aside i hi
    obtain ⟨he', hc'⟩ := h'.aside i (h.isFlagged hi)
    exact ⟨he'.trans he, hc'.trans hc⟩

/-- A message is taken, or something is noted that is no call. -/
theorem of_note {x : Happening} (he : r'.entries = r.entries) (hl : r'.listed = r.listed)
    (hh : r'.history.toList = r.history.toList ++ [x]) (hx : x.Unspoken)
    (hr : ∀ i, x ≠ .reclaimed i) : Acts r r' where
  toRemains := .of_same he hl hh
  unswept hs hh' i hm := by
    rw [hh] at hh'
    rw [← List.append_cancel_left hh'] at hm
    exact hr i (List.mem_singleton.mp hm).symm
  aside i _ := ⟨by rw [he], calls_of_unspoken hh (by simpa using hx)⟩

theorem refl (r : Registry β) : Acts r r where
  toRemains := .refl r
  unswept hs hh i hm := by
    have hnone : hs = [] := by simpa using hh
    simp [hnone] at hm
  aside i _ := ⟨rfl, rfl⟩

end Acts

/-- A dispatch goes to those that are active, and nothing happens to the others. -/
theorem dispatch_acts (d : Device) (c : Change) (r : Registry β) :
    (dispatch d c).Ends (fun _ r' => Acts r r') r := by
  have hnoted : Acts r (r.record (.dispatched d c)) :=
    .of_note rfl rfl (history_record r _) (by simp [Happening.Unspoken]) (by simp)
  have hmoves := dispatch_moves (p := fun i => i ∈ r.places (·.active) ∨ r.entries.size ≤ i)
    (fun _ => .inr) (fun _ => .inl) (Nat.le_refl r.entries.size) d c
  apply (hmoves.and (dispatch_remains d c r)).mono
  intro o s h
  obtain ⟨hm, hremains⟩ := h
  refine ⟨hremains, ?_, ?_⟩
  · intro hs hh i hmem
    obtain ⟨xs, hxs⟩ := hm.news
    obtain rfl := news_split (history_record r _).symm hxs hh
    obtain hmem | hmem := List.mem_append.mp hmem
    · simp at hmem
    · exact hm.not_reclaimed hxs.symm i hmem
  · -- Who is flagged is not among those that the walk goes to, and a flag is set once.
    intro i hi
    obtain ⟨e, he, hf⟩ := hi
    have huncalled : ¬ (i ∈ r.places (·.active) ∨ r.entries.size ≤ i) := by
      have hlt := lt_size_of_getElem? he
      intro hp
      obtain hp | hp := hp
      · obtain ⟨-, e', he', hactive⟩ := mem_places.mp hp
        cases entry_eq he he'
        simp [Entry.active, hf] at hactive
      · omega
    obtain ⟨hsame, hcalls⟩ := hnoted.aside i ⟨e, he, hf⟩
    have hstands := (Stands.of_entry (hsame.trans he)).spared hm.spares huncalled
    obtain ⟨f, he'⟩ := hstands
    refine ⟨?_, (hm.spares.calls_eq huncalled).trans hcalls⟩
    rw [he', he, hf, Bool.true_or, ← hf]

theorem processUpTo_steps (n : Nat) (r : Registry β) :
    (processUpTo n).Ends (fun _ r' => Steps r r') r := by
  apply processUpTo_keeps (P := fun _ s => Steps r s) _ n (.refl r)
  intro s hs
  exact (turn_steps .next s).mono fun _ _ h => hs.trans h

theorem processUpTo_acts (n : Nat) (r : Registry β) :
    (processUpTo n).Ends (fun _ r' => Acts r r') r := by
  apply processUpTo_keeps (P := fun _ s => Acts r s) _ n (.refl r)
  intro s hs
  have htaken {m : Message} (mailbox : Mailbox) :
      Acts r ({ s with mailbox }.record (.taken m)) :=
    hs.trans (.of_note rfl rfl (history_record _ _) (by simp [Happening.Unspoken]) (by simp))
  apply next_ends (Q := fun _ s => Acts r s)
  · exact fun _ => hs
  · exact fun mailbox _ => htaken mailbox
  · intro d c mailbox _
    exact (dispatch_acts d c _).mono fun _ _ h => (htaken mailbox).trans h

end Registry

end PlugWatch
