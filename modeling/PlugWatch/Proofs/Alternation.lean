import PlugWatch.Bus.Memory
import PlugWatch.Proofs.Attached
import PlugWatch.Proofs.Calls

/-! # Arrivals and removals alternate

  A registration for both changes is told of every device in turn that it arrived and that it has
  left. What it is owed under each id is exactly what is attached: this is the **balance**. It is
  kept by every way in which a registration can be called: an arrival offered by a dispatch or a
  replay, a removal offered, and the release of all devices, in whatever order, when the
  registration is reclaimed.
  Between the test for a device and its attachment the callback runs, and may do to the
  registration whatever callbacks can; but all it can do is to flag it.

  A panic may lose removals that a sweep owes. The balance is then exact only for registrations
  that are not flagged.
-/

namespace PlugWatch

namespace Registry

open Walk

variable {β : Type} [Bus β] {p : Nat → Prop} {r r' r'' : Registry β} {i : Nat} {x x' : Bool}

/-! ## The balance -/

/-- What a registration was told agrees with devices that it has; if `x`, it has all that it is
    owed the removal of. -/
structure Balanced (x : Bool) (r : Registry β) (i : Nat) (ds : List Device) : Prop where
  alternates : ∀ id, Alternates (r.told i id)
  distinct : DistinctIds ds
  owed_of_mem : ∀ d ∈ ds, owed (r.told i d.id) = some d
  mem_of_owed : x = true → ∀ id d, owed (r.told i id) = some d → d ∈ ds

namespace Balanced

variable {ds : List Device} {d : Device}

theorem of_calls_eq (h : Balanced x r i ds) (hc : r'.calls i = r.calls i)
    (hx : x' = true → x = true) : Balanced x' r' i ds := by
  have ht : ∀ id, r'.told i id = r.told i id := fun id => by rw [told, hc, told]
  constructor
  · exact fun id => ht id ▸ h.alternates id
  · exact h.distinct
  · exact fun d hd => ht d.id ▸ h.owed_of_mem d hd
  · exact fun hx' id d hd => h.mem_of_owed (hx hx') id d (ht id ▸ hd)

/-- The order of the devices does not matter. -/
theorem perm {ds' : List Device} (h : Balanced x r i ds) (hp : ds'.Perm ds) :
    Balanced x r i ds' where
  alternates := h.alternates
  distinct := h.distinct.perm hp
  owed_of_mem d hd := h.owed_of_mem d (hp.mem_iff.mp hd)
  mem_of_owed hx id d hd := hp.mem_iff.mpr (h.mem_of_owed hx id d hd)

/-- After a panic nothing is said of what is owed. -/
theorem lose (h : Balanced x r i ds) : Balanced false r i [] where
  alternates := h.alternates
  distinct := .nil
  owed_of_mem := by simp
  mem_of_owed := by simp

/-- Before the first call nothing is owed. -/
theorem start (hc : r.calls i = []) : Balanced x r i [] := by
  have ht : ∀ id, r.told i id = [] := fun id => by rw [told, hc]; rfl
  constructor
  · exact fun id => ht id ▸ Alternates.nil
  · exact .nil
  · simp
  · intro _ id d hd
    rw [ht] at hd
    cases hd

/-- A call that does not stand changes nothing. -/
theorem pass (h : Balanced x r i ds) {c : Call} (hc : r'.calls i = r.calls i ++ [c])
    (hs : c.stands = false) (hx : x' = true → x = true) : Balanced x' r' i ds := by
  have ht : ∀ id, r'.told i id = r.told i id := fun id => by
    rw [told_of_calls hc]
    simp [Call.under, hs]
  constructor
  · exact fun id => ht id ▸ h.alternates id
  · exact h.distinct
  · exact fun d hd => ht d.id ▸ h.owed_of_mem d hd
  · exact fun hx' id d hd => h.mem_of_owed (hx hx') id d (ht id ▸ hd)

/-- What a call that stands adds, under each id. -/
theorem told_stands {c : Call} (hc : r'.calls i = r.calls i ++ [c]) (hs : c.stands = true)
    (id : DeviceId) :
    r'.told i id = if c.device.id = id then r.told i id ++ [c] else r.told i id := by
  rw [told_of_calls hc]
  by_cases hid : c.device.id = id <;> simp [Call.under, hs, hid]

/-- A new device that was taken is owed a removal from now on. -/
theorem arrive (h : Balanced true r i ds) (hd : ∀ e ∈ ds, e.id ≠ d.id)
    (hc : r'.calls i = r.calls i ++ [⟨.arrived, d, some .keep⟩]) :
    Balanced x r' i (insertDevice d ds) := by
  have ht := told_stands hc (by rfl)
  -- Were a removal owed under this id, the device would be attached already.
  have hnone : owed (r.told i d.id) = none := by
    cases ho : owed (r.told i d.id) with
    | none => rfl
    | some e => exact absurd (owed_told ho) (hd e (h.mem_of_owed rfl _ _ ho))
  constructor
  · intro id
    rw [ht]
    split
    · next hid => exact (h.alternates id).arrive (hid ▸ hnone) rfl
    · exact h.alternates id
  · exact h.distinct.insertDevice hd
  -- The new device is owed by the new call, all others as before.
  · intro e he
    rcases mem_insertDevice.mp he with rfl | he
    · rw [ht, if_pos rfl, owed_concat, if_pos rfl]
    · rw [ht, if_neg (fun hid => hd e he hid.symm)]
      exact h.owed_of_mem e he
  · intro _ id e he
    rw [ht] at he
    rw [mem_insertDevice]
    split at he
    · rw [owed_concat, if_pos rfl] at he
      exact .inl (Option.some.inj he).symm
    · exact .inr (h.mem_of_owed rfl id e he)

/-- The removal of a device that is attached is no longer owed. -/
theorem leave (h : Balanced x r i ds) (hd : d ∈ ds) {v : Option Verdict}
    (hc : r'.calls i = r.calls i ++ [⟨.left, d, v⟩]) (hx : x' = true → x = true) :
    Balanced x' r' i (ds.filter (·.id != d.id)) := by
  have ht := told_stands hc (by rfl)
  constructor
  · intro id
    rw [ht]
    split
    · next hid => exact (h.alternates id).leave (hid ▸ h.owed_of_mem d hd) rfl
    · exact h.alternates id
  · exact h.distinct.filter _
  · intro e he
    obtain ⟨he, hne⟩ := List.mem_filter.mp he
    have hne : e.id ≠ d.id := by simpa using hne
    rw [ht, if_neg (fun hid => hne hid.symm)]
    exact h.owed_of_mem e he
  · intro hx' id e he
    rw [ht] at he
    split at he
    · rw [owed_concat, if_neg (by simp)] at he
      cases he
    · next hid =>
      have hne : e.id ≠ d.id := fun heq => hid (heq.symm.trans (owed_told he))
      have hmem := h.mem_of_owed (hx hx') id e he
      simp [hmem, hne]

end Balanced

/-! ## Single registrations -/

/-- A registration is reclaimed, that is, a sweep took it off the list. -/
def Reclaimed (r : Registry β) (i : Nat) : Prop :=
  .reclaimed i ∈ r.history.toList

/-- What is true of the registration at a place; if `b`, no callback has panicked. -/
structure Account (b : Bool) (r : Registry β) (i : Nat) : Prop where
  valid : ∀ e : Entry β, r.entries[i]? = some e → e.check = .ok ()
  balanced : ∀ e : Entry β, r.entries[i]? = some e → e.filter.changes = .both →
    Balanced (b || !e.flagged) r i e.attached
  cleared : b = true → r.Reclaimed i → ∀ e : Entry β, r.entries[i]? = some e →
    e.flagged = true ∧ e.attached = []

/-- While others are called, a registration is at most flagged. -/
structure Untouched (i : Nat) (r r' : Registry β) : Prop where
  entry : ∀ e : Entry β, r.entries[i]? = some e → ∃ f, (e.flagged = true → f = true) ∧
    r'.entries[i]? = some { e with flagged := f }
  calls : r'.calls i = r.calls i
  reclaimed : r'.Reclaimed i → r.Reclaimed i

theorem Spares.reclaimed (h : Spares p r r') (hr : r'.Reclaimed i) : r.Reclaimed i := by
  obtain ⟨hs, hh, hw⟩ := h.news
  unfold Reclaimed at *
  rw [hh, List.mem_append] at hr
  rcases hr with hr | hr
  · exact hr
  · exact (hw _ hr).elim

theorem Spares.untouched (h : Spares p r r') (hi : ¬ p i) : Untouched i r r' where
  entry e he := by
    obtain ⟨f, he', -⟩ := h.spared i e hi he
    obtain ⟨e'', he'', hage⟩ := h.ages i e he
    have heq : e'' = { e with flagged := f } := Option.some.inj (he''.symm.trans he')
    refine ⟨f, ?_, he'⟩
    intro hf
    have hf' := hage.flagged hf
    rwa [heq] at hf'
  calls := h.calls_eq hi
  reclaimed := h.reclaimed

theorem Account.weaken (h : Account true r i) : Account false r i where
  valid := h.valid
  balanced e he hb := (h.balanced e he hb).of_calls_eq rfl (by simp)
  cleared hb := by cases hb

variable {b : Bool}

/-- An account is about the one entry at its place. -/
theorem Account.of_entry {e : Entry β} (he : r.entries[i]? = some e) (hv : e.check = .ok ())
    (hb : e.filter.changes = .both → Balanced (b || !e.flagged) r i e.attached)
    (hr : b = true → r.Reclaimed i → e.flagged = true ∧ e.attached = []) : Account b r i where
  valid e' he' := by
    rw [he] at he'
    cases he'
    exact hv
  balanced e' he' := by
    rw [he] at he'
    cases he'
    exact hb
  cleared hb' hr' e' he' := by
    rw [he] at he'
    cases he'
    exact hr hb' hr'

theorem Account.untouched (h : Account b r i) (hu : Untouched i r r') (hlt : i < r.entries.size) :
    Account b r' i := by
  have he := Array.getElem?_eq_getElem hlt
  obtain ⟨f, hf, he'⟩ := hu.entry _ he
  have hvalid := h.valid _ he
  apply Account.of_entry he' hvalid
  · intro hb
    apply (h.balanced _ he hb).of_calls_eq hu.calls
    intro hx
    -- The balance may become less exact, namely by the flag.
    rw [Bool.or_eq_true] at hx ⊢
    rcases hx with hx | hx
    · exact .inl hx
    · right
      cases hfl : (r.entries[i]).flagged with
      | false => rfl
      | true =>
        have hset : f = true := hf hfl
        simp [hset] at hx
  · intro hb hr
    obtain ⟨hfl, hatt⟩ := h.cleared hb (hu.reclaimed hr) _ he
    exact ⟨hf hfl, hatt⟩

/-- An account that stands with the same entry and the same calls. -/
theorem Account.of_eq (h : Account b r i) (he : r'.entries[i]? = r.entries[i]?)
    (hc : r'.calls i = r.calls i) (hr : r'.Reclaimed i → r.Reclaimed i) : Account b r' i where
  valid e hi := h.valid e (he ▸ hi)
  balanced e hi hb := (h.balanced e (he ▸ hi) hb).of_calls_eq hc id
  cleared hb hr' e hi := h.cleared hb (hr hr') e (he ▸ hi)

/-- Flagging a registration loses nothing. -/
theorem Account.flag (h : Account b r i) (hlt : i < r.entries.size) : Account b (r.flag i) i := by
  have he := Array.getElem?_eq_getElem hlt
  have hvalid := h.valid _ he
  apply Account.of_entry (r.getElem?_flag i he) hvalid
  · intro hb
    apply (h.balanced _ he hb).of_calls_eq (calls_flag r i i)
    intro hx
    have hx : b = true := by simpa using hx
    rw [hx, Bool.true_or]
  · intro hb hr'
    have hr : r.Reclaimed i := by simpa [Reclaimed, Registry.flag] using hr'
    exact ⟨rfl, (h.cleared hb hr _ he).2⟩

/-! ## Offers -/

/-- What a walk from a registration that is not flagged has to leave. -/
theorem Account.fresh {e : Entry β} (he : r.entries[i]? = some e) (hv : e.check = .ok ())
    (hb : e.filter.changes = .both → Balanced (b || !e.flagged) r i e.attached)
    (hr : b = true → ¬ r.Reclaimed i) : Account b r i :=
  .of_entry he hv hb fun hb' hr' => absurd hr' (hr hb')

/-- A registration that is not flagged was not reclaimed. -/
theorem Account.not_reclaimed (h : Account b r i) {e : Entry β} (he : r.entries[i]? = some e)
    (hf : e.flagged = false) : b = true → ¬ r.Reclaimed i := by
  intro hb hr
  rw [(h.cleared hb hr e he).1] at hf
  cases hf

theorem offerArrival_account {f : Nat → Device → Walk β Verdict} (hf : Tame f) (d : Device)
    (h : Account b r i) :
    (offerArrival i f d).Ends (fun o r' => Account (b && o.isSome) r' i) r := by
  have hsame : Account (b && true) r i := by rwa [Bool.and_true]
  apply offerArrival_ends
  · intro _
    exact hsame
  · intro _ _ _
    exact hsame
  · intro e he hfl hx hc
    -- A valid registration for both changes is called.
    have hnr := h.not_reclaimed he hfl
    apply Account.fresh (getElem?_update_self r i _ he) (h.valid e he)
    · intro hb
      rw [Entry.calls_of_check (h.valid e he) hb] at hc
      cases hc
    · simpa [Reclaimed] using hnr
  · intro e he hfl hx hc
    have hlt := lt_size_of_getElem? he
    have hnr := h.not_reclaimed he hfl
    have hbal (hb : e.filter.changes = .both) : Balanced true r i e.attached :=
      (h.balanced e he hb).of_calls_eq rfl (by simp [hfl])
    have hnew : ∀ x ∈ e.attached, x.id ≠ d.id := by
      simp only [Entry.expects, Bool.and_eq_true, Bool.not_eq_true'] at hx
      exact Entry.not_has_iff.mp hx.1
    have hentered := r.getElem?_enter i he .arrived d
    have hcalls := r.calls_enter i .arrived d
    apply (hf e.arrivals d _).mono
    intro o s hm
    -- The callback may flag the registration and no more.
    have hu : Untouched i (r.enter i .arrived d) s :=
      hm.spares.untouched (by simpa [enter] using hlt)
    obtain ⟨fl, -, hs⟩ := hu.entry _ hentered
    have hlts := lt_size_of_getElem? hs
    -- Only a sweep reclaims, and there is none on the way.
    have hmoves : Moves (fun _ => True) r s :=
      (Move.enter r .arrived d trivial hlt).moves.trans (hm.mono fun _ _ => trivial)
    have hnever {s' : Registry β} (hs' : Moves (fun _ => True) r s') (hb : (b && true) = true) :
        ¬ s'.Reclaimed i := by
      rw [Bool.and_true] at hb
      exact fun hr => hnr hb (hs'.spares.reclaimed hr)
    rw [← hu.calls] at hcalls
    cases o with
    | none =>
      apply Account.fresh hs (h.valid e he)
      · intro hb
        exact (hbal hb).pass hcalls rfl fun _ => rfl
      · simp
    | some v =>
      cases v with
      | keep =>
        apply Account.fresh (s.getElem?_keep i hs d) (h.valid e he)
        · intro hb
          exact (hbal hb).arrive hnew (calls_keep hcalls d)
        · exact hnever (hmoves.trans (Move.keep s d trivial hlts).moves)
      | deregister =>
        apply Account.fresh (s.getElem?_drop hs d) (h.valid e he)
        · intro hb
          exact (hbal hb).pass (calls_drop hcalls d) rfl fun _ => rfl
        · exact hnever (hmoves.trans (Move.drop s d trivial hlts).moves)

theorem offerLeft_account {f : Nat → Device → Walk β Verdict} (hf : Tame f) (id : DeviceId)
    (h : Account b r i) :
    (offerLeft i f id).Ends (fun o r' => Account (b && o.isSome) r' i) r := by
  have hsame : Account (b && true) r i := by rwa [Bool.and_true]
  apply offerLeft_ends
  · intro _
    exact hsame
  · intro _ _ _
    exact hsame
  · intro e d he hfl hd hc
    -- A valid registration for both changes is called.
    have hnr := h.not_reclaimed he hfl
    apply Account.fresh (getElem?_update_self r i _ he) (h.valid e he)
    · intro hb
      rw [Entry.calls_of_check (h.valid e he) hb] at hc
      cases hc
    · simpa [Reclaimed] using hnr
  · intro e d he hfl hd hc
    have hlt := lt_size_of_getElem? he
    have hnr := h.not_reclaimed he hfl
    obtain ⟨hmem, hid⟩ := Entry.recorded?_eq_some hd
    have hdetached := getElem?_update_self r i (·.detach id) he
    have hentered := (r.update i (·.detach id)).getElem?_enter i hdetached .left d
    have hcalls := (r.update i (·.detach id)).calls_enter i .left d
    rw [calls_update] at hcalls
    -- The device is gone before its removal is reported.
    have hleave {r' : Registry β} {v : Option Verdict} (hb : e.filter.changes = .both)
        (hc : r'.calls i = r.calls i ++ [⟨.left, d, v⟩]) (x' : Bool) :
        Balanced x' r' i (e.attached.filter (·.id != id)) := by
      have hexact : (b || !e.flagged) = true := by simp [hfl]
      exact hid ▸ (h.balanced e he hb).leave hmem hc fun _ => hexact
    apply (hf e.removals d _).mono
    intro o s hm
    have hu : Untouched i ((r.update i (·.detach id)).enter i .left d) s :=
      hm.spares.untouched (by simpa [enter] using hlt)
    obtain ⟨fl, -, hs⟩ := hu.entry _ hentered
    rw [← hu.calls] at hcalls
    cases o with
    | none =>
      apply Account.fresh hs (h.valid e he)
      · intro hb
        exact hleave hb hcalls _
      · simp
    | some v =>
      apply Account.fresh (r := s.record _) hs (h.valid e he)
      · intro hb
        exact hleave hb (calls_answered hcalls .left d v) _
      · intro hb hr
        have hb : b = true := by simpa using hb
        have hs' : s.Reclaimed i := by simpa [Reclaimed] using hr
        have hr' : r.Reclaimed i := by simpa [Reclaimed, enter] using hu.reclaimed hs'
        exact hnr hb hr'

theorem offer_account (d : Device) (c : Change) (h : Account b r i) :
    (offer d c i).Ends (fun o r' => Account (b && o.isSome) r' i) r := by
  have hsame : Account (b && true) r i := by rwa [Bool.and_true]
  apply offer_ends
  · intro _
    exact hsame
  · intro e _ _
    apply (offerArrival_account (tame_run e.onArrived) d h).mono
    intro o r' h'
    cases o <;> exact h'
  · intro e _ _
    exact offerLeft_account (tame_run e.onLeft) d.id h

theorem replay_account {f : Nat → Device → Walk β Verdict} (hf : Tame f) (ds : List Device)
    (h : Account true r i) : (replay i f ds).Ends (fun o r' => Account o.isSome r' i) r := by
  induction ds generalizing r with
  | nil => exact replay_nil_ends.mpr h
  | cons d ds ih =>
    rw [replay_cons_ends]
    apply (offerArrival_account hf d h).mono
    intro o r' h'
    match o with
    | none => exact h'
    | some .dropped => exact h'
    | some .ignored => exact ih h'
    | some .attached => exact ih h'

/-! ## Reclaiming -/

/-- What is true of a registration that is about to be reclaimed. -/
structure Due (b : Bool) (r : Registry β) (i : Nat) : Prop where
  valid : ∀ e : Entry β, r.entries[i]? = some e → e.check = .ok ()
  flagged : ∀ e : Entry β, r.entries[i]? = some e → e.flagged = true
  balanced : ∀ e : Entry β, r.entries[i]? = some e → e.filter.changes = .both →
    Balanced b r i e.attached

theorem Due.weaken (h : Due true r i) : Due false r i where
  valid := h.valid
  flagged := h.flagged
  balanced e he hb := (h.balanced e he hb).of_calls_eq rfl (by simp)

/-- What is due is about the one entry at its place. -/
theorem Due.of_entry {e : Entry β} (he : r.entries[i]? = some e) (hv : e.check = .ok ())
    (hf : e.flagged = true) (hb : e.filter.changes = .both → Balanced b r i e.attached) :
    Due b r i where
  valid e' he' := by
    rw [he] at he'
    cases he'
    exact hv
  flagged e' he' := by
    rw [he] at he'
    cases he'
    exact hf
  balanced e' he' := by
    rw [he] at he'
    cases he'
    exact hb

theorem Due.untouched (h : Due b r i) (hu : Untouched i r r') (hlt : i < r.entries.size) :
    Due b r' i := by
  have he := Array.getElem?_eq_getElem hlt
  obtain ⟨f, hf, he'⟩ := hu.entry _ he
  have hvalid := h.valid _ he
  apply Due.of_entry he' hvalid (hf (h.flagged _ he))
  intro hb
  exact (h.balanced _ he hb).of_calls_eq hu.calls id

/-- After a panic, what is due is no better than an account. -/
theorem Due.account (h : Due false r i) : Account false r i where
  valid := h.valid
  balanced e he hb := (h.balanced e he hb).of_calls_eq rfl (by simp [h.flagged e he])
  cleared hb := by cases hb

/-- A registration without devices, while it is told of those it had. -/
structure Emptied (g : Registration β) (r : Registry β) (i : Nat) : Prop where
  entry : ∃ e : Entry β, r.entries[i]? = some e ∧ e.toRegistration = g ∧ e.flagged = true ∧
    e.attached = []

theorem Emptied.untouched {g : Registration β} (h : Emptied g r i) (hu : Untouched i r r') :
    Emptied g r' i := by
  obtain ⟨e, he, hg, hf, ha⟩ := h.entry
  obtain ⟨f, hff, he'⟩ := hu.entry e he
  exact ⟨_, he', hg, hff hf, ha⟩

/-- Every device that is released is told once. The balance matters only to those with `c`. -/
theorem release_balanced {e : Entry β} {ds : List Device} {c : Prop}
    (he : Emptied e.toRegistration r i) (h : c → Balanced b r i ds) :
    (release i e ds).Ends (fun o r' =>
      Emptied e.toRegistration r' i ∧ (c → Balanced (b && o.isSome) r' i [])) r := by
  induction ds generalizing r with
  | nil =>
    have hdone (hc : c) : Balanced (b && true) r i [] := by
      rw [Bool.and_true]
      exact h hc
    exact ⟨he, hdone⟩
  | cons d ds ih =>
    obtain ⟨e', he', hg, hf, ha⟩ := he.entry
    have hlt := lt_size_of_getElem? he'
    apply release_cons_ends _ rfl
    have hentered := r.getElem?_enter i he' .left d
    have hcalls := r.calls_enter i .left d
    -- The ids differ, so the balance loses this device and keeps those still to be released.
    have hleave {r' : Registry β} {v : Option Verdict} (hc : c)
        (hr' : r'.calls i = r.calls i ++ [⟨.left, d, v⟩]) : Balanced b r' i ds := by
      obtain ⟨hne, -⟩ := DistinctIds.cons_iff.mp (h hc).distinct
      have hrest : (d :: ds).filter (·.id != d.id) = ds := by
        rw [List.filter_cons_of_neg (by simp), List.filter_eq_self]
        simpa using hne
      exact hrest ▸ (h hc).leave (List.mem_cons_self ..) hr' id
    apply (tame_run e.onLeft _ d _).mono
    intro o s hm
    have hu : Untouched i (r.enter i .left d) s :=
      hm.spares.untouched (by simpa [enter] using hlt)
    have hs : Emptied e.toRegistration s i :=
      Emptied.untouched ⟨_, hentered, hg, hf, ha⟩ hu
    rw [← hu.calls] at hcalls
    cases o with
    | none =>
      refine ⟨hs, ?_⟩
      intro hc
      have hlost := (hleave hc hcalls).lose
      simpa using hlost
    | some v =>
      refine ih ⟨hs.entry⟩ ?_
      intro hc
      exact hleave hc (calls_answered hcalls .left d v)

theorem reclaim_account (hlt : i < r.entries.size) (h : Due b r i) :
    (reclaim i).Ends (fun o r' => Account (b && o.isSome) r' i) r := by
  -- Whatever is left of it is flagged and has no devices.
  have hdone {b' : Bool} {s : Registry β} {e : Entry β} (he : r.entries[i]? = some e)
      (hs : Emptied e.toRegistration s i)
      (hb : e.filter.changes = .both → Balanced b' s i []) : Account b' s i := by
    obtain ⟨e', he', hg, hf, ha⟩ := hs.entry
    have hfilter : e'.filter = e.filter := congrArg Registration.filter hg
    apply Account.of_entry he'
    · rw [hg]
      exact h.valid e he
    · intro hboth
      rw [ha]
      exact (hb (hfilter ▸ hboth)).of_calls_eq rfl (by simp [hf])
    · intro _ _
      exact ⟨hf, ha⟩
  have hemptied {e : Entry β} (he : r.entries[i]? = some e) :
      Emptied e.toRegistration (r.update i ({ · with attached := [] })) i :=
    ⟨_, getElem?_update_self r i _ he, rfl, h.flagged e he, rfl⟩
  apply reclaim_ends (Q := fun x r' => Account (b && x) r' i)
  · intro hn
    rw [Array.getElem?_eq_getElem hlt] at hn
    cases hn
  · intro e he hc message
    refine hdone he ⟨(hemptied he).entry⟩ ?_
    intro hb
    rw [Entry.calls_of_check (h.valid e he) hb] at hc
    cases hc
  · intro e he hc
    have hbal (hb : e.filter.changes = .both) :
        Balanced b (r.update i ({ · with attached := [] })) i e.parting :=
      ((h.balanced e he hb).perm e.parting_perm).of_calls_eq rfl id
    apply (release_balanced (hemptied he) hbal).mono
    intro o s hs message
    cases o with
    | none => exact hdone he hs.1 hs.2
    | some u =>
      refine hdone he ⟨hs.1.entry⟩ ?_
      intro hb
      exact (hs.2 hb).of_calls_eq (calls_log s i _ message) id

/-! ## Registering -/

/-- Nothing is known of registrations to come. -/
def Unheard (r : Registry β) : Prop :=
  ∀ i, r.entries.size ≤ i → r.calls i = [] ∧ ¬ r.Reclaimed i

theorem Move.unheard (h : Move p r r') (hr : r.Unheard) : r'.Unheard := by
  intro i hi
  have hs := h.bounded.spares
  have hnot : ¬ (p i ∧ i < r'.entries.size) := by omega
  obtain ⟨hcalls, hrec⟩ := hr i (Nat.le_trans hs.size_le hi)
  exact ⟨(hs.calls_eq hnot).trans hcalls, fun hr' => hrec (hs.reclaimed hr')⟩

/-- What is true of the whole registry as walks go on. -/
structure Sound (r : Registry β) : Prop where
  orderly : r.Orderly
  unheard : r.Unheard

theorem Move.sound (h : Move p r r') (hr : r.Sound) : r'.Sound :=
  ⟨h.orderly hr.orderly, h.unheard hr.unheard⟩

theorem stable_account : Stable (β := β) Sound Account where
  overall := Move.sound
  weaken := Account.weaken
  spared _ hm hi hlt h := h.untouched (hm.spares.untouched hi) hlt

theorem stable_due : Stable (β := β) Sound Due where
  overall := Move.sound
  weaken := Due.weaken
  spared _ hm hi hlt h := h.untouched (hm.spares.untouched hi) hlt

theorem enlist_account {g : Registration β} (hr : r.Unheard) (hg : g.check = .ok ()) :
    Account true (r.enlist g) r.entries.size := by
  obtain ⟨hcalls, hrec⟩ := hr r.entries.size (Nat.le_refl _)
  apply Account.fresh (getElem?_enlist r g) hg
  · intro _
    apply Balanced.start
    simp [enlist, calls_record, noteCall]
    exact hcalls
  · intro _ hr'
    apply hrec
    simpa [Reclaimed, enlist, log] using hr'

theorem registerWith_account {g : Registration β} {f : Nat → Device → Walk β Verdict}
    (hr : r.Sound) (hf : Tame f) : (registerWith g f).Ends
      (fun o r' => r.entries.size < r'.entries.size → Account o.isSome r' r.entries.size) r := by
  have hlisted (hg : g.check = .ok ()) := enlist_account hr.unheard hg
  have hlt : r.entries.size < (r.enlist g).entries.size := by
    rw [size_enlist]
    omega
  have hknown (hg : g.check = .ok ()) :
      Account true (r.enlist g).enumerate.2 r.entries.size :=
    (hlisted hg).untouched ((Move.enumerate _).spares.untouched (p := fun _ => False) id) hlt
  apply registerWith_ends
  · intro _ hlt
    exact absurd hlt (Nat.lt_irrefl _)
  · intro hg _ _
    exact hlisted hg
  · intro hg why _ _
    -- It goes off the list with the flag set, as if it had been deregistered.
    have hfailed (message : String) :
        Account true ((r.enlist g).enumerate.2.log .warn message) r.entries.size :=
      (hknown hg).of_eq rfl (calls_log ..) fun hr' => by simpa [Reclaimed, log] using hr'
    exact ((hfailed _).flag (by simpa using hlt)).of_eq rfl rfl id
  · intro hg _ ds _
    have hbegun : Account true
        ((r.enlist g).enumerate.2.beginReplay r.entries.size r.nextHandle ds) r.entries.size := by
      refine (hknown hg).of_eq rfl ?_ ?_
      · rw [beginReplay, calls_log, calls_record]
        rfl
      · intro hr'
        simpa [Reclaimed, beginReplay, log] using hr'
    apply (replay_account hf ds hbegun).mono
    intro o r' h _
    simpa using h

theorem account_invariant : PlaceInvariant (β := β) Sound Account where
  toStable := stable_account
  made := registerWith_account

/-! ## Turns -/

/-- A happening of no registration in particular: accounts do not change with it. -/
structure Aside (x : Happening) : Prop where
  note : ∀ i cs, noteCall i cs x = cs
  not_reclaimed : ∀ i, x ≠ .reclaimed i

theorem Everywhere.aside (h : Everywhere Sound Account b r) {x : Happening} (hx : Aside x)
    (he : r'.entries = r.entries) (hl : r'.listed = r.listed)
    (hh : r'.history.toList = r.history.toList ++ [x]) : Everywhere Sound Account b r' := by
  have hcalls (i : Nat) : r'.calls i = r.calls i := by
    rw [calls, hh, List.foldl_append]
    exact hx.note i _
  have hrec (i : Nat) (hr : r'.Reclaimed i) : r.Reclaimed i := by
    unfold Reclaimed at *
    rw [hh, List.mem_append, List.mem_singleton] at hr
    exact hr.resolve_right fun heq => hx.not_reclaimed i heq.symm
  have hunheard : r'.Unheard := by
    intro i hi
    obtain ⟨hc, hr⟩ := h.1.unheard i (he ▸ hi)
    exact ⟨(hcalls i).trans hc, fun hr' => hr (hrec i hr')⟩
  refine ⟨⟨h.1.orderly.of_sublist (by rw [he]) (by rw [hl]), hunheard⟩, ?_⟩
  intro i hlt
  exact (h.2 i (he ▸ hlt)).of_eq (by rw [he]) (hcalls i) (hrec i)

theorem dispatch_account (h : Everywhere Sound Account b r) (d : Device) (c : Change) :
    (dispatch d c).Ends (fun o => Everywhere Sound Account (b && o.isSome)) r := by
  have hx : Aside (.dispatched d c) := ⟨fun _ _ => rfl, fun _ => by simp⟩
  have hr : Everywhere Sound Account b (r.record (.dispatched d c)) :=
    h.aside hx rfl rfl (by simp)
  apply dispatch_everywhere account_invariant stable_account id
    (fun _ _ hi => offer_account d c hi) h.1.orderly
  refine ⟨hr.1, ?_, ?_⟩
  · intro i hi
    have hlt : i < r.entries.size := h.1.orderly.taken i (mem_places.mp hi).1
    exact ⟨hlt, hr.2 i hlt⟩
  · intro i hlt _
    exact hr.2 i hlt

theorem sweep_account (h : Everywhere Sound Account b r) :
    sweep.Ends (fun o => Everywhere Sound Account (b && o.isSome)) r := by
  have hcalls (i : Nat) : r.startSweep.calls i = r.calls i := by
    rw [calls, history_startSweep, List.foldl_append]
    have hnone : ∀ (is : List Nat) (cs : List Call),
        (is.map Happening.reclaimed).foldl (noteCall i) cs = cs := by
      intro is
      induction is with
      | nil => exact fun _ => rfl
      | cons j is ih => exact ih
    exact hnone _ _
  have hrec (i : Nat) : r.startSweep.Reclaimed i ↔ r.Reclaimed i ∨ i ∈ r.places (·.flagged) := by
    simp [Reclaimed]
  have htaken (i : Nat) (hi : i ∈ r.places (·.flagged)) : i < r.entries.size :=
    h.1.orderly.taken i (mem_places.mp hi).1
  have hsound : r.startSweep.Sound := by
    refine ⟨h.1.orderly.of_sublist (by simp) (by simp), ?_⟩
    intro i hi
    rw [entries_startSweep] at hi
    obtain ⟨hc, hr⟩ := h.1.unheard i hi
    refine ⟨(hcalls i).trans hc, ?_⟩
    intro hr'
    rcases (hrec i).mp hr' with hr' | hr'
    · exact hr hr'
    · have hlt := htaken i hr'
      omega
  apply sweep_everywhere account_invariant stable_due Due.account
    (fun hlt _ hi => reclaim_account hlt hi) h.1.orderly
  refine ⟨hsound, ?_, ?_⟩
  · -- A registration that is swept is flagged, so its balance need not be exact after a panic.
    intro i hi
    have hlt := htaken i hi
    refine ⟨by simpa using hlt, ?_⟩
    obtain ⟨-, e, he, hf⟩ := mem_places.mp hi
    have hai := h.2 i hlt
    have he' : r.startSweep.entries[i]? = some e := by
      rw [entries_startSweep]
      exact he
    apply Due.of_entry he' (hai.valid e he) hf
    intro hboth
    apply (hai.balanced e he hboth).of_calls_eq (hcalls i)
    intro hx
    rw [hx, Bool.true_or]
  · intro i hlt hi
    rw [entries_startSweep] at hlt
    apply (h.2 i hlt).of_eq (by simp) (hcalls i)
    intro hr
    exact ((hrec i).mp hr).resolve_right hi

theorem turn_account (t : Turn β) (h : Everywhere Sound Account b r) :
    t.walk.Ends (fun o => Everywhere Sound Account (b && o.isSome)) r := by
  have hsame : Everywhere Sound Account (b && true) r := by rwa [Bool.and_true]
  apply turn_ends (Q := fun x => Everywhere Sound Account (b && x)) t
  · intro g _
    exact register_everywhere account_invariant g h
  · intro a _
    exact perform_everywhere stable_account a hsame
  · intro d c _
    exact dispatch_account h d c
  · intro _
    apply next_ends (Q := fun x => Everywhere Sound Account (b && x))
    · intro _
      exact hsame
    · intro mailbox _
      have hx : Aside (.taken .wakeup) := ⟨fun _ _ => rfl, fun _ => by simp⟩
      exact Everywhere.aside hsame hx rfl rfl (by simp)
    · intro d c mailbox _
      have hx : Aside (.taken (.change d c)) := ⟨fun _ _ => rfl, fun _ => by simp⟩
      have htaken : Everywhere Sound Account b
          ({ r with mailbox }.record (.taken (.change d c))) :=
        h.aside hx rfl rfl (by simp)
      exact dispatch_account htaken d c
  · intro _
    exact sweep_account h

/-! ## Sessions -/

/-- At the end of a session, from an empty registry, every registration has its account. -/
theorem afterAll_account (bus : β) (os : List (Operation β)) :
    Everywhere Sound Account (calm { bus } os) (afterAll { bus } os) := by
  have hfresh : Everywhere (β := β) Sound Account true { bus } := by
    refine ⟨⟨⟨List.Pairwise.nil, by simp⟩, ?_⟩, ?_⟩
    · intro i _
      exact ⟨rfl, by simp [Reclaimed]⟩
    · intro i hlt
      exact absurd hlt (Nat.not_lt_zero i)
  have hkeeps := afterAll_keeps (P := Everywhere Sound Account) os
    (fun _ _ t _ _ _ hr => turn_account t hr) hfresh
  rwa [Bool.true_and] at hkeeps

/-- Arrivals and removals of a device alternate, each removal with the device that arrived, for
    every registration that asks for both. If no callback panicked, a removal is missing exactly
    for the devices that are attached, and for none once the registration was reclaimed. -/
theorem told_alternates (bus : β) (os : List (Operation β)) {i : Nat} {e : Entry β}
    (he : (afterAll { bus } os).entries[i]? = some e) (hboth : e.filter.changes = .both)
    (id : DeviceId) :
    let calls := (afterAll { bus } os).told i id
    Alternates calls ∧ (calm { bus } os = true →
      calls.countP (·.change == .arrived) =
        calls.countP (·.change == .left) + (if e.has id then 1 else 0) ∧
      (.reclaimed i ∈ (afterAll { bus } os).history →
        calls.countP (·.change == .arrived) = calls.countP (·.change == .left))) := by
  have hacc := (afterAll_account bus os).2 i (lt_size_of_getElem? he)
  have hbal := hacc.balanced e he hboth
  intro calls
  refine ⟨hbal.alternates id, ?_⟩
  intro hcalm
  rw [hcalm] at hacc hbal
  have hcount := (hbal.alternates id).countP_arrived
  -- What is owed under the id is what is attached under it.
  have howed : (owed calls).isSome = e.has id := by
    rw [Bool.eq_iff_iff, Entry.has_iff]
    constructor
    · intro ho
      obtain ⟨d, hd⟩ := Option.isSome_iff_exists.mp ho
      exact ⟨d, hbal.mem_of_owed rfl id d hd, owed_told hd⟩
    · intro hhas
      obtain ⟨d, hd, rfl⟩ := hhas
      show (owed (told _ i d.id)).isSome = true
      rw [hbal.owed_of_mem d hd]
      rfl
  rw [← howed]
  refine ⟨hcount, ?_⟩
  intro hrec
  -- A reclaimed registration has nothing attached, so nothing is owed either.
  have hnone : e.attached = [] :=
    (hacc.cleared rfl (by simpa [Reclaimed] using hrec) e he).2
  have hhas : e.has id = false := Entry.not_has_iff.mpr (by simp [hnone])
  rw [howed, hhas] at hcount
  simpa using hcount

/-- A device that is there, leaves, comes back and is there when its listener is reclaimed. -/
def replugging : List (Operation MemoryBus) :=
  let d := MemoryBus.sample 1
  [.act (.bus (.plug d)), .register (.listener { enumerate := true }), .dispatch d .left,
    .dispatch d .arrived, .act (.deregister ⟨1⟩), .sweep]

theorem told_alternates_replugging :
    ∃ e : Entry MemoryBus, (afterAll { bus := {} } replugging).entries[0]? = some e ∧
      e.filter.changes = .both ∧
      let calls := (afterAll { bus := ({} : MemoryBus) } replugging).told 0 ⟨1⟩
      Alternates calls ∧ (calm { bus := ({} : MemoryBus) } replugging = true →
        calls.countP (·.change == .arrived) =
          calls.countP (·.change == .left) + (if e.has ⟨1⟩ then 1 else 0) ∧
        (.reclaimed 0 ∈ (afterAll { bus := ({} : MemoryBus) } replugging).history →
          calls.countP (·.change == .arrived) = calls.countP (·.change == .left))) := by
  have hentry : (afterAll { bus := ({} : MemoryBus) } replugging).entries[0]?.any
      (fun e => e.filter.changes == .both) = true := by decide +kernel
  obtain ⟨e, he, hboth⟩ := (Option.any_eq_true ..).mp hentry
  have hboth : e.filter.changes = .both := by simpa using hboth
  exact ⟨e, he, hboth, told_alternates ({} : MemoryBus) replugging he hboth ⟨1⟩⟩

end Registry

end PlugWatch
