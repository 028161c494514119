import PlugWatch.Proofs.Places
import PlugWatch.Proofs.Tracking
import Mathlib.Data.List.DropRight

/-! # What registrations heard

  A registration **heard** of the devices of its replay, as arrivals, and of every change that was
  dispatched since it was made. What it has is a function of this and of the descriptors that its
  filter accepts: an arrival **lasts** if it is accepted and no removal under its id comes later,
  and of the arrivals that last under an id the registration has the first.

  The invariant is that a registration **is attuned**: it has what it is to have after all that it
  heard, once it was told of the change that a dispatch has not offered to it yet, or of what is
  left of its replay.
-/

namespace PlugWatch

/-! ## What lasts -/

/-- Two changes that differ at most in the descriptor of a device that left. -/
structure Alike (a b : Device × Change) : Prop where
  change : a.2 = b.2
  id : a.1.id = b.1.id
  arrived : a.2 = .arrived → a.1 = b.1

namespace Filter

variable {f f' : Filter} {cs cs' : List (Device × Change)} {c : Device × Change} {id : DeviceId}
  {k : Nat} {d : Device} {x : Option Device}

/-- The change at a position is the arrival of a device under an id that a filter accepts, and no
    removal under the id comes later. -/
structure Lasts (f : Filter) (cs : List (Device × Change)) (id : DeviceId) (k : Nat)
    (d : Device) : Prop where
  arrival : cs[k]? = some (d, .arrived)
  under : d.id = id
  accepted : f.accepts d.descriptor = true
  stays : ∀ (j : Nat) (x : Device), k < j → cs[j]? = some (x, .left) → x.id ≠ id

/-- Whether someone has the first of the arrivals that last, or nothing if there is none. -/
inductive Retains (f : Filter) (cs : List (Device × Change)) (id : DeviceId) :
    Option Device → Prop where
  | nothing : (∀ k d, ¬ f.Lasts cs id k d) → Retains f cs id none
  | first {k : Nat} {d : Device} : f.Lasts cs id k d →
      (∀ k' d', f.Lasts cs id k' d' → k ≤ k') → Retains f cs id (some d)

/-- At a position of a list with one element more stands what stood there, or the new one. -/
theorem getElem?_concat_eq_some {α : Type} {as : List α} {a x : α} :
    (as ++ [a])[k]? = some x ↔ as[k]? = some x ∨ k = as.length ∧ a = x := by
  by_cases hlt : k < as.length
  · rw [List.getElem?_append_left hlt]
    constructor
    · exact .inl
    · rintro (hold | ⟨hlast, -⟩)
      · exact hold
      · omega
  · have hnone : as[k]? = none := List.getElem?_eq_none (Nat.not_lt.mp hlt)
    rw [List.getElem?_append_right (Nat.not_lt.mp hlt), List.getElem?_singleton, hnone]
    by_cases hlast : k = as.length
    · simp [hlast]
    · have hsub : ¬ k - as.length = 0 := by omega
      simp [hlast, hsub]

theorem Lasts.lt_length (h : f.Lasts cs id k d) : k < cs.length :=
  (List.getElem?_eq_some_iff.mp h.arrival).1

/-- At a position there is one arrival. -/
theorem Lasts.eq {id' : DeviceId} {d' : Device} (h : f.Lasts cs id k d)
    (h' : f.Lasts cs id' k d') : d' = d := by
  have hsome := h.arrival.symm.trans h'.arrival
  cases hsome
  rfl

/-- With one change more the arrivals last that did, but for those that it is the removal of, and
    the change itself lasts if it is such an arrival. -/
theorem lasts_concat : f.Lasts (cs ++ [c]) id k d ↔
    f.Lasts cs id k d ∧ ¬ (c.2 = .left ∧ c.1.id = id) ∨
      k = cs.length ∧ c = (d, .arrived) ∧ d.id = id ∧ f.accepts d.descriptor = true := by
  constructor
  · intro h
    rcases getElem?_concat_eq_some.mp h.arrival with hold | ⟨hlast, hc⟩
    · left
      have hlt : k < cs.length := (List.getElem?_eq_some_iff.mp hold).1
      refine ⟨⟨hold, h.under, h.accepted, ?_⟩, ?_⟩
      · intro j x hj hx
        exact h.stays j x hj (getElem?_concat_eq_some.mpr (.inl hx))
      · rintro ⟨hleft, hid⟩
        have hpair : c = (c.1, .left) := by rw [← hleft]
        exact h.stays cs.length c.1 hlt (getElem?_concat_eq_some.mpr (.inr ⟨rfl, hpair⟩)) hid
    · exact .inr ⟨hlast, hc, h.under, h.accepted⟩
  · rintro (⟨h, hc⟩ | ⟨rfl, rfl, hid, ha⟩)
    · refine ⟨getElem?_concat_eq_some.mpr (.inl h.arrival), h.under, h.accepted, ?_⟩
      intro j x hj hx hid
      -- A later removal was there before, or is the last change.
      rcases getElem?_concat_eq_some.mp hx with hold | ⟨-, rfl⟩
      · exact h.stays j x hj hold hid
      · exact hc ⟨rfl, hid⟩
    · refine ⟨getElem?_concat_eq_some.mpr (.inr ⟨rfl, rfl⟩), hid, ha, ?_⟩
      intro j x hj hx
      rcases getElem?_concat_eq_some.mp hx with hold | ⟨-, hc⟩
      · have hlt : j < cs.length := (List.getElem?_eq_some_iff.mp hold).1
        omega
      · cases hc

/-- Changes under other ids change nothing. -/
theorem Retains.pass (h : f.Retains cs id x) (hid : c.1.id ≠ id) : f.Retains (cs ++ [c]) id x := by
  have hlasts (k : Nat) (d : Device) : f.Lasts (cs ++ [c]) id k d ↔ f.Lasts cs id k d := by
    rw [lasts_concat]
    constructor
    · rintro (⟨hold, -⟩ | ⟨-, rfl, hid', -⟩)
      · exact hold
      · exact absurd hid' hid
    · intro hold
      exact .inl ⟨hold, fun hleft => hid hleft.2⟩
  cases h with
  | nothing hnone => exact .nothing fun k d hk => hnone k d ((hlasts k d).mp hk)
  | first hk hfirst =>
    exact .first ((hlasts _ _).mpr hk) fun k' d' hk' => hfirst k' d' ((hlasts k' d').mp hk')

/-- After a removal no arrival lasts. -/
theorem retains_left (hid : d.id = id) : f.Retains (cs ++ [(d, .left)]) id none := by
  apply Retains.nothing
  intro k d' hk
  rcases lasts_concat.mp hk with ⟨-, hno⟩ | ⟨-, heq, -⟩
  · exact hno ⟨rfl, hid⟩
  · cases heq

/-- An arrival that is accepted is the first that lasts if none does, and else a later one. -/
theorem Retains.arrived (h : f.Retains cs id x) (hid : d.id = id) :
    f.Retains (cs ++ [(d, .arrived)]) id (f.hear id x (d, .arrived)) := by
  rw [hear_arrived]
  cases h with
  | first hk hfirst =>
    -- There is one already, and it comes first.
    rw [if_neg fun hnew => by cases hnew.2.1]
    refine .first (lasts_concat.mpr (.inl ⟨hk, fun hleft => by cases hleft.1⟩)) ?_
    intro k' d' hk'
    rcases lasts_concat.mp hk' with ⟨hold, -⟩ | ⟨hlast, -⟩
    · exact hfirst k' d' hold
    · rw [hlast]
      exact Nat.le_of_lt hk.lt_length
  | nothing hnone =>
    by_cases ha : f.accepts d.descriptor = true
    · rw [if_pos ⟨hid, rfl, ha⟩]
      refine .first (lasts_concat.mpr (.inr ⟨rfl, rfl, hid, ha⟩)) ?_
      intro k' d' hk'
      rcases lasts_concat.mp hk' with ⟨hold, -⟩ | ⟨hlast, -⟩
      · exact absurd hold (hnone k' d')
      · exact Nat.le_of_eq hlast.symm
    · rw [if_neg fun hnew => ha hnew.2.2]
      refine .nothing fun k d' hk => ?_
      rcases lasts_concat.mp hk with ⟨hold, -⟩ | ⟨-, heq, -, ha'⟩
      · exact hnone k d' hold
      · cases heq
        exact ha ha'

/-- Who has the first arrival that lasts and hears of a change has the first that lasts then. -/
theorem Retains.hear (h : f.Retains cs id x) (c : Device × Change) :
    f.Retains (cs ++ [c]) id (f.hear id x c) := by
  obtain ⟨d, c⟩ := c
  by_cases hid : d.id = id
  · cases c with
    | arrived => exact h.arrived hid
    | left =>
      rw [hear_left, if_pos hid]
      exact retains_left hid
  · rw [hear_of_ne x hid]
    exact h.pass hid

/-- Who had nothing has the first of the arrivals that last of all that was heard. -/
theorem retains_hearAll (f : Filter) (cs : List (Device × Change)) (id : DeviceId) :
    f.Retains cs id (f.hearAll id none cs) := by
  induction cs using List.reverseRecOn with
  | nil => exact .nothing fun k d h => by simpa using h.arrival
  | append_singleton cs c ih =>
    rw [hearAll_concat]
    exact ih.hear c

theorem Retains.isSome (h : f.Retains cs id x) : x.isSome = true ↔ ∃ k d, f.Lasts cs id k d := by
  cases h with
  | nothing hnone => simpa using hnone
  | first hk _ => simpa using ⟨_, _, hk⟩

theorem Retains.eq_some (h : f.Retains cs id x) :
    x = some d ↔ ∃ k, f.Lasts cs id k d ∧ ∀ k' d', f.Lasts cs id k' d' → k ≤ k' := by
  cases h with
  | nothing hnone =>
    constructor
    · intro hx
      cases hx
    · rintro ⟨k, hk, -⟩
      exact absurd hk (hnone k d)
  | first hk hfirst =>
    constructor
    · intro hx
      cases hx
      exact ⟨_, hk, hfirst⟩
    · rintro ⟨k', hk', hfirst'⟩
      -- Two firsts are at one position.
      have heq := Nat.le_antisymm (hfirst k' d hk') (hfirst' _ _ hk)
      subst heq
      rw [hk.eq hk']

/-- What a registration has does not depend on the descriptor of a device that left, nor on more
    of its filter than the descriptors that it accepts. -/
theorem hearAll_alike (hf : ∀ d, f'.accepts d = f.accepts d) (h : List.Forall₂ Alike cs cs')
    (x : Option Device) : f'.hearAll id x cs' = f.hearAll id x cs := by
  induction h generalizing x with
  | nil => rfl
  | @cons a b as bs hab _ ih =>
    have hhear : f'.hear id x b = f.hear id x a := by
      obtain ⟨d, c⟩ := a
      obtain ⟨d', c'⟩ := b
      obtain ⟨hc, hid, harr⟩ := hab
      have hc : c = c' := hc
      have hid : d.id = d'.id := hid
      subst hc
      cases c with
      | left => rw [hear_left, hear_left, hid]
      | arrived =>
        have hd : d = d' := harr rfl
        rw [hear_arrived, hear_arrived, hd, hf]
    show f'.hearAll id (f'.hear id x b) bs = f.hearAll id (f.hear id x a) as
    rw [hhear, ih]

end Filter

/-! ## Entries that hear of a change -/

namespace Entry

variable {β : Type} [Bus β] {e e' e'' : Entry β} {c : Device × Change} {d : Device}

/-- What a registration has is what it had when it heard of a change. -/
structure Hears (e : Entry β) (c : Device × Change) (e' : Entry β) : Prop where
  filter : e'.filter = e.filter
  distinct : DistinctIds e.attached → DistinctIds e'.attached
  recorded : ∀ id, e'.recorded? id = e.filter.hear id (e.recorded? id) c

theorem hears_attach (h : e.expects d = true) : e.Hears (d, .arrived) (e.attach d) where
  filter := rfl
  distinct hd := by
    have hexpects : e.has d.id = false ∧ e.filter.accepts d.descriptor = true := by
      simpa [expects] using h
    exact hd.insertDevice (not_has_iff.mp hexpects.1)
  recorded := recorded?_attach h

theorem hears_detach (e : Entry β) (d : Device) : e.Hears (d, .left) (e.detach d.id) where
  filter := rfl
  distinct hd := hd.filter _
  recorded := recorded?_detach d

theorem hears_of_not_expects (h : e.expects d = false) : e.Hears (d, .arrived) e :=
  ⟨rfl, id, fun id => (hear_of_not_expects h id).symm⟩

theorem hears_of_not_recorded (h : e.recorded? d.id = none) : e.Hears (d, .left) e :=
  ⟨rfl, id, fun id => (hear_of_not_recorded h id).symm⟩

/-- Its flag, its handle and the counts of its calls do not matter. -/
theorem Hears.of_attached (h : e.Hears c e') (hf : e''.filter = e'.filter)
    (ha : e''.attached = e'.attached) : e.Hears c e'' where
  filter := hf.trans h.filter
  distinct hd := by
    rw [ha]
    exact h.distinct hd
  recorded id := by
    rw [recorded?, ha]
    exact h.recorded id

end Entry

/-! ## Since a registration was made -/

/-- What a happening tells the registration at a place: the devices of its replay, as arrivals, or
    a change that is dispatched. -/
def Happening.tells (i : Nat) : Happening → List (Device × Change)
  | .replayed j ds => if j = i then ds.map (·, .arrived) else []
  | .dispatched d c => [(d, c)]
  | _ => []

namespace Registry

open Walk

variable {β : Type} [Bus β] {p : Nat → Prop} {r r' : Registry β} {i : Nat} {b : Bool}
  {d : Device} {c : Change} {cs : List (Device × Change)}

/-- What happened since the registration at a place was put on the list. -/
def since (r : Registry β) (i : Nat) : List Happening :=
  r.history.toList.rtakeWhile (· != .enlisted i)

/-- What the registration at a place heard of, in order. -/
def heard (r : Registry β) (i : Nat) : List (Device × Change) :=
  (r.since i).flatMap (·.tells i)

theorem rtakeWhile_append {as bs : List Happening} (hn : .enlisted i ∉ bs) :
    (as ++ bs).rtakeWhile (· != .enlisted i) = as.rtakeWhile (· != .enlisted i) ++ bs := by
  have hall : ∀ h ∈ bs.reverse, (h != .enlisted i) = true := by
    intro h hmem
    rw [bne_iff_ne]
    rintro rfl
    exact hn (List.mem_reverse.mp hmem)
  unfold List.rtakeWhile
  rw [List.reverse_append, List.takeWhile_append_of_pos hall, List.reverse_append,
    List.reverse_reverse]

/-- What happened since a registration was put on the list stands behind the note of this. -/
theorem since_eq {before after : List Happening}
    (hh : r.history.toList = before ++ .enlisted i :: after) (hn : .enlisted i ∉ after) :
    r.since i = after := by
  rw [since, hh, List.append_cons, rtakeWhile_append hn,
    List.rtakeWhile_concat_neg _ _ _ (by simp), List.nil_append]

theorem heard_append {hs : List Happening}
    (hh : r'.history.toList = r.history.toList ++ hs) (hn : .enlisted i ∉ hs) :
    r'.heard i = r.heard i ++ hs.flatMap (·.tells i) := by
  rw [heard, since, hh, rtakeWhile_append hn, List.flatMap_append]
  rfl

/-- A registration that was just put on the list heard of nothing. -/
theorem heard_enlist (r : Registry β) (g : Registration β) :
    (r.enlist g).heard r.entries.size = [] := by
  obtain ⟨l, hl⟩ := r.history_enlist g
  have hsince := since_eq hl (by simp)
  rw [heard, hsince]
  rfl

/-- What tells a registration nothing leaves it with what it heard of. -/
theorem heard_eq {hs : List Happening} (hh : r'.history.toList = r.history.toList ++ hs)
    (hidle : ∀ h ∈ hs, h ≠ .enlisted i ∧ h.tells i = []) : r'.heard i = r.heard i := by
  have hnone : hs.flatMap (·.tells i) = [] :=
    List.flatMap_eq_nil_iff.mpr fun h hmem => (hidle h hmem).2
  rw [heard_append hh fun hmem => (hidle _ hmem).1 rfl, hnone, List.append_nil]

/-- A registration that is spared heard of nothing more. -/
theorem Spares.heard_eq (h : Spares p r r') (hi : ¬ p i) : r'.heard i = r.heard i := by
  obtain ⟨hs, hh, hw⟩ := h.news
  apply Registry.heard_eq hh
  intro h hmem
  have hwithin := hw h hmem
  cases h with
  | enlisted j => exact ⟨fun heq => hi (by cases heq; exact hwithin), rfl⟩
  | replayed j ds =>
    have hne : j ≠ i := fun heq => hi (heq ▸ hwithin)
    exact ⟨by simp, if_neg hne⟩
  | dispatched d c => cases hwithin
  | _ => exact ⟨by simp, rfl⟩

@[simp] theorem heard_update (r : Registry β) (i j : Nat) (f : Entry β → Entry β) :
    (r.update j f).heard i = r.heard i := rfl

@[simp] theorem heard_enter (r : Registry β) (i j : Nat) (c : Change) (d : Device) :
    (r.enter j c d).heard i = r.heard i :=
  heard_eq (history_record _ _) (by simp [Happening.tells])

@[simp] theorem heard_answered (r : Registry β) (i j : Nat) (c : Change) (d : Device)
    (v : Verdict) : (r.record (.answered j c d v)).heard i = r.heard i :=
  heard_eq (history_record _ _) (by simp [Happening.tells])

@[simp] theorem heard_dismiss (r : Registry β) (i j : Nat) (id : DeviceId) :
    (r.dismiss j id).heard i = r.heard i := by
  obtain ⟨hs, hh, hidle⟩ := r.history_dismiss j id
  apply heard_eq hh
  intro h hmem
  rcases hidle h hmem with rfl | ⟨l, rfl⟩
  · exact ⟨by simp, rfl⟩
  · exact ⟨by simp, rfl⟩

/-! ## Offers -/

/-- An entry is flagged, or hears of a change, unless there was a panic. -/
def Heeds (e : Entry β) (c : Device × Change) (i : Nat) (b : Bool) (r : Registry β) : Prop :=
  b = true → ∀ e', r.entries[i]? = some e' → e'.flagged = false → e.Hears c e'

/-- An arrival that is offered is heard of, and a callback tells its registration nothing else. -/
theorem offerArrival_hears {f : Nat → Device → Walk β Verdict} (hf : Tame f) {e : Entry β}
    (he : r.entries[i]? = some e) (d : Device) :
    (offerArrival i f d).Ends (fun o r' => (o = some .dropped → r'.IsFlagged i) ∧
      r'.heard i = r.heard i ∧ Heeds e (d, .arrived) i o.isSome r') r := by
  have hentry {s : Registry β} {e' e'' : Entry β} (h : s.entries[i]? = some e')
      (h' : s.entries[i]? = some e'') : e'' = e' := Option.some.inj (h'.symm.trans h)
  apply offerArrival_ends
  · intro hnone
    rw [hnone] at he
    cases he
  · intro e₁ he₁ hp
    cases hentry he he₁
    refine ⟨by simp, rfl, ?_⟩
    intro _ e' he' hflag
    cases hentry he he'
    exact Entry.hears_of_not_expects (hp.resolve_left (by simp [hflag]))
  · intro e₁ he₁ hflag hx hc
    cases hentry he he₁
    refine ⟨by simp, rfl, ?_⟩
    intro _ e' he' _
    cases hentry (getElem?_update_self r i _ he) he'
    exact Entry.hears_attach hx
  · intro e₁ he₁ hflag hx hc
    cases hentry he he₁
    have hentered := getElem?_enter r i he .arrived d
    have hlt := lt_size_of_getElem? hentered
    apply (hf e.arrivals d (r.enter i .arrived d)).mono
    intro o s hm
    -- Whatever the callback does, its registration has the devices that it had.
    obtain ⟨g, hes, -⟩ := hm.spares.spared i _ (Nat.not_le.mpr hlt) hentered
    have hheard : s.heard i = r.heard i :=
      (hm.spares.heard_eq (Nat.not_le.mpr hlt)).trans (heard_enter r i i .arrived d)
    match o with
    | none => exact ⟨by simp, hheard, fun hb => by cases hb⟩
    | some .deregister =>
      have hflagged : (s.drop i d).IsFlagged i := ⟨_, getElem?_drop s hes d, rfl⟩
      refine ⟨fun _ => hflagged, ?_, ?_⟩
      · show ((s.record _).dismiss i d.id).heard i = _
        rw [heard_dismiss, heard_answered, hheard]
      · intro _ e' he' hflag'
        cases hentry (getElem?_drop s hes d) he'
        cases hflag'
    | some .keep =>
      refine ⟨by simp, ?_, ?_⟩
      · show ((s.record _).update i _).heard i = _
        rw [heard_update, heard_answered, hheard]
      · intro _ e' he' _
        cases hentry (getElem?_keep s i hes d) he'
        exact (Entry.hears_attach hx).of_attached rfl rfl

/-- A removal that is offered is heard of. -/
theorem offerLeft_hears {f : Nat → Device → Walk β Verdict} (hf : Tame f) {e : Entry β}
    (he : r.entries[i]? = some e) (d : Device) :
    (offerLeft i f d.id).Ends (fun o r' =>
      r'.heard i = r.heard i ∧ Heeds e (d, .left) i o.isSome r') r := by
  have hentry {s : Registry β} {e' e'' : Entry β} (h : s.entries[i]? = some e')
      (h' : s.entries[i]? = some e'') : e'' = e' := Option.some.inj (h'.symm.trans h)
  apply offerLeft_ends
  · intro hnone
    rw [hnone] at he
    cases he
  · intro e₁ he₁ hp
    cases hentry he he₁
    refine ⟨rfl, ?_⟩
    intro _ e' he' hflag
    cases hentry he he'
    exact Entry.hears_of_not_recorded (hp.resolve_left (by simp [hflag]))
  · intro e₁ x he₁ hflag hx hc
    cases hentry he he₁
    refine ⟨rfl, ?_⟩
    intro _ e' he' _
    cases hentry (getElem?_update_self r i _ he) he'
    exact e.hears_detach d
  · intro e₁ x he₁ hflag hx hc
    cases hentry he he₁
    have hdetached := getElem?_update_self r i (·.detach d.id) he
    have hentered := getElem?_enter (r.update i (·.detach d.id)) i hdetached .left x
    have hlt := lt_size_of_getElem? hentered
    apply (hf e.removals x _).mono
    intro o s hm
    obtain ⟨g, hes, -⟩ := hm.spares.spared i _ (Nat.not_le.mpr hlt) hentered
    have hheard : s.heard i = r.heard i :=
      (hm.spares.heard_eq (Nat.not_le.mpr hlt)).trans (heard_enter _ i i .left x)
    cases o with
    | none => exact ⟨hheard, fun hb => by cases hb⟩
    | some v =>
      refine ⟨(heard_answered s i i .left x v).trans hheard, ?_⟩
      intro _ e' he' _
      cases hentry hes he'
      exact (e.hears_detach d).of_attached rfl rfl

/-- A change that is offered is heard of. -/
theorem offer_hears {e : Entry β} (he : r.entries[i]? = some e) (d : Device) (c : Change) :
    (offer d c i).Ends (fun o r' =>
      r'.heard i = r.heard i ∧ Heeds e (d, c) i o.isSome r') r := by
  apply offer_ends
  · intro hnone
    rw [hnone] at he
    cases he
  · intro e₁ _ hc
    subst hc
    apply (offerArrival_hears (tame_run e₁.onArrived) he d).mono
    intro o r' h
    cases o <;> exact h.2
  · intro e₁ _ hc
    subst hc
    exact offerLeft_hears (tame_run e₁.onLeft) he d

/-- A property of registrations that are to be told of some changes, as long as a property of the
    whole registry holds. Nothing is said of those that are flagged, or after a panic; a
    registration that hears of the first of the changes is to be told of the others. -/
structure Awaiting (G : Registry β → Prop)
    (P : List (Device × Change) → Bool → Registry β → Nat → Prop) : Prop where
  overall : ∀ {p : Nat → Prop} {r r' : Registry β}, Moves p r r' → G r → G r'
  of_false : ∀ {cs : List (Device × Change)} {r : Registry β} {i : Nat}, P cs false r i
  of_flagged : ∀ {cs : List (Device × Change)} {b : Bool} {r : Registry β} {i : Nat},
    r.IsFlagged i → P cs b r i
  heed : ∀ {p : Nat → Prop} {cs : List (Device × Change)} {c : Device × Change} {b x : Bool}
    {r r' : Registry β} {i : Nat} {e : Entry β}, G r → Moves p r r' → r.entries[i]? = some e →
      r'.heard i = r.heard i → Heeds e c i x r' → P (c :: cs) b r i → P cs (b && x) r' i

section Awaiting

variable {G : Registry β → Prop} {P : List (Device × Change) → Bool → Registry β → Nat → Prop}

/-- A change is offered to a registration that is to be told of it. -/
theorem Awaiting.offer (hP : Awaiting G P) (hlt : i < r.entries.size) (hG : G r)
    (h : P ((d, c) :: cs) b r i) :
    (offer d c i).Ends (fun o r' => P cs (b && o.isSome) r' i) r := by
  have he := Array.getElem?_eq_getElem hlt
  have hmoves := offer_moves (p := fun _ => True) (fun _ _ => trivial)
    (Nat.le_refl r.entries.size) (i := i) trivial d c
  apply ((offer_hears he d c).and hmoves).mono
  intro o r' h'
  obtain ⟨⟨hheard, hheeds⟩, hm⟩ := h'
  exact hP.heed hG hm he hheard hheeds h

/-- Devices are replayed to a registration that is to be told of them. -/
theorem Awaiting.replay (hP : Awaiting G P) {f : Nat → Device → Walk β Verdict} (hf : Tame f)
    (ds : List Device) (hlt : i < r.entries.size) (hG : G r)
    (h : P (ds.map (·, .arrived)) b r i) :
    (replay i f ds).Ends (fun o r' => P [] (b && o.isSome) r' i) r := by
  -- The induction is on the devices that are left, which are what it is still to be told of.
  induction ds generalizing b r with
  | nil =>
    rw [replay_nil_ends, Option.isSome_some, Bool.and_true]
    exact h
  | cons d ds ih =>
    have he := Array.getElem?_eq_getElem hlt
    have hmoves := offerArrival_moves (i := i) hf (p := fun _ => True) (fun _ _ => trivial)
      (Nat.le_refl r.entries.size) trivial d
    rw [replay_cons_ends]
    apply ((offerArrival_hears hf he d).and hmoves).mono
    intro o r' h'
    obtain ⟨⟨hdropped, hheard, hheeds⟩, hm⟩ := h'
    have hrest : P (ds.map (·, .arrived)) (b && o.isSome) r' i :=
      hP.heed hG hm he hheard hheeds h
    have hlt' : i < r'.entries.size := Nat.lt_of_lt_of_le hlt hm.spares.size_le
    match o with
    | none =>
      show P [] (b && false) r' i
      rw [Bool.and_false]
      exact hP.of_false
    -- Whoever is dropped is not told of the rest.
    | some .dropped => exact hP.of_flagged (hdropped rfl)
    | some .ignored =>
      rw [Option.isSome_some, Bool.and_true] at hrest
      exact ih hlt' (hP.overall hm hG) hrest
    | some .attached =>
      rw [Option.isSome_some, Bool.and_true] at hrest
      exact ih hlt' (hP.overall hm hG) hrest

end Awaiting

/-! ## Being attuned -/

/-- A registration that is to be told of `cs` has then what it is to have after all that it heard
    of, unless it was flagged, or is not held. -/
def Attuned (cs : List (Device × Change)) (b : Bool) (r : Registry β) (i : Nat) : Prop :=
  b = true → ∀ e, r.entries[i]? = some e → e.flagged = false → i ∈ r.listed →
    DistinctIds e.attached ∧
      ∀ id, e.filter.hearAll id (e.recorded? id) cs = e.filter.hearAll id none (r.heard i)

theorem Attuned.of_false : Attuned cs false r i := by
  intro hb
  cases hb

theorem Attuned.of_flagged (h : r.IsFlagged i) : Attuned cs b r i := by
  intro _ e he hf
  obtain ⟨e', he', hf'⟩ := h
  rw [he] at he'
  cases he'
  rw [hf] at hf'
  cases hf'

/-- What is noted aside leaves registrations attuned. -/
theorem Attuned.aside (h : Attuned cs b r i) (he : r'.entries = r.entries)
    (hl : i ∈ r'.listed → i ∈ r.listed) (hheard : r'.heard i = r.heard i) :
    Attuned cs b r' i := by
  intro hb e he' hf hi
  rw [he] at he'
  rw [hheard]
  exact h hb e he' hf (hl hi)

/-- What does not call a registration leaves it attuned. -/
theorem Attuned.spared (h : Attuned cs b r i) (hs : Spares p r r') (hi : ¬ p i)
    (hlt : i < r.entries.size) : Attuned cs b r' i := by
  intro hb e' he' hf hl
  have he := Array.getElem?_eq_getElem hlt
  obtain ⟨g, heg, -⟩ := hs.spared i _ hi he
  obtain ⟨e'', he'', hages⟩ := hs.ages i _ he
  cases Option.some.inj (he''.symm.trans he')
  cases Option.some.inj (heg.symm.trans he')
  rw [hs.heard_eq hi]
  have hbefore := h hb _ he (hages.unflagged hf) (hs.listed i hl hlt)
  exact hbefore

theorem attuned_stable (cs : List (Device × Change)) : Stable (β := β) Orderly (Attuned cs) where
  overall hm hr := hm.orderly hr
  weaken _ := .of_false
  spared _ hm hi hlt h := h.spared hm.spares hi hlt

theorem attuned_awaiting : Awaiting (β := β) Orderly Attuned where
  overall hm hr := hm.keeps Move.orderly hr
  of_false := .of_false
  of_flagged := .of_flagged
  heed {p cs c b x r r' i e} _ hm he hheard hx h := by
    intro hb e' he' hf hl
    rw [Bool.and_eq_true] at hb
    obtain ⟨e'', he'', hages⟩ := hm.spares.ages i e he
    cases Option.some.inj (he''.symm.trans he')
    have hears := hx hb.2 e' he' hf
    -- It was held and not flagged before, so it was attuned.
    have hheld := hm.spares.listed i hl (lt_size_of_getElem? he)
    obtain ⟨hdistinct, hrecorded⟩ := h hb.1 e he (hages.unflagged hf) hheld
    refine ⟨hears.distinct hdistinct, ?_⟩
    intro id
    rw [hears.filter, hears.recorded, hheard]
    exact hrecorded id

theorem heard_replaying (r : Registry β) (g : Registration β) (h : Handle) (ds : List Device) :
    ((r.enlist g).enumerate.2.beginReplay r.entries.size h ds).heard r.entries.size =
      ds.map (·, .arrived) := by
  have hm : Move (fun _ => False) (r.enlist g) (r.enlist g).enumerate.2 := .enumerate _
  have hlisting := (hm.spares.heard_eq id).trans (heard_enlist r g)
  obtain ⟨l, hl⟩ := (r.enlist g).enumerate.2.history_beginReplay r.entries.size h ds
  rw [heard_append hl (by simp), hlisting]
  simp [Happening.tells]

/-- When a replay begins, the registration has nothing, and is to be told of all that it heard. -/
theorem replaying_attuned (r : Registry β) (g : Registration β) (ds : List Device) :
    Attuned (ds.map (·, .arrived)) true
      ((r.enlist g).enumerate.2.beginReplay r.entries.size r.nextHandle ds) r.entries.size := by
  intro _ e he _ _
  have hentry : (r.enlist g).enumerate.2.entries[r.entries.size]? = some e := he
  rw [getElem?_enlist_enumerate] at hentry
  cases hentry
  rw [heard_replaying]
  exact ⟨DistinctIds.nil, fun _ => rfl⟩

/-- A registration that is made is attuned. -/
theorem registerWith_attuned (hr : r.Orderly) {g : Registration β}
    {f : Nat → Device → Walk β Verdict} (hf : Tame f) :
    (registerWith g f).Ends (fun o r' => r.entries.size < r'.entries.size →
      Attuned [] o.isSome r' r.entries.size) r := by
  apply registerWith_ends
  · intro why hlt
    omega
  · intro _ _ _ _ e he _ _
    rw [getElem?_enlist] at he
    cases he
    rw [heard_enlist]
    exact ⟨DistinctIds.nil, fun _ => rfl⟩
  · intro _ why _ _
    have hentry := getElem?_enlist_enumerate r g
    exact .of_flagged ⟨_, ((r.enlist g).enumerate.2.log _ _).getElem?_flag _ hentry, rfl⟩
  · intro hg _ ds _
    have hmoves := opening_moves (r := r) (p := fun _ => True) hg trivial r.nextHandle ds
    have hlt := lt_size_replaying r g r.nextHandle ds
    have hr' := attuned_awaiting.overall hmoves hr
    apply (attuned_awaiting.replay hf ds hlt hr' (replaying_attuned r g ds)).mono
    intro o r' h _
    cases o <;> exact h

theorem attuned_invariant : PlaceInvariant (β := β) Orderly (Attuned []) where
  toStable := attuned_stable []
  made hr hf := registerWith_attuned hr hf

/-! ## Turns -/

/-- When a change is dispatched, every registration heard of it and is to be told of it. -/
theorem Attuned.dispatched (h : Attuned [] b r i) (d : Device) (c : Change) :
    Attuned [(d, c)] b (r.record (.dispatched d c)) i := by
  intro hb e he hf hl
  obtain ⟨hdistinct, hrecorded⟩ := h hb e he hf hl
  have hheard : (r.record (.dispatched d c)).heard i = r.heard i ++ [(d, c)] :=
    heard_append (history_record r _) (by simp)
  refine ⟨hdistinct, ?_⟩
  intro id
  rw [hheard, Filter.hearAll_concat, ← hrecorded id]
  rfl

theorem dispatch_attuned (d : Device) (c : Change) (h : Everywhere Orderly (Attuned []) b r) :
    (dispatch d c).Ends (fun o => Everywhere Orderly (Attuned []) (b && o.isSome)) r := by
  obtain ⟨hr, hall⟩ := h
  apply dispatch_everywhere attuned_invariant (attuned_stable [(d, c)])
    (fun _ => .of_false) (fun hlt hr h => attuned_awaiting.offer hlt hr h) hr
  refine ⟨hr.of_sublist rfl (List.Sublist.refl _), ?_, ?_⟩
  · intro i hi
    have hlt := hr.taken i (mem_places.mp hi).1
    exact ⟨hlt, (hall i hlt).dispatched d c⟩
  · -- Whoever is not offered the change is flagged, or not held.
    intro i hlt hi _ e he hf hl
    have hactive : e.active = true := by simp [Entry.active, hf]
    exact absurd (mem_places.mpr ⟨hl, e, he, hactive⟩) hi

/-- That a message is taken is no news to any registration. -/
theorem Attuned.taken (h : Attuned cs b r i) (mailbox : Mailbox) (m : Message) :
    Attuned cs b ({ r with mailbox }.record (.taken m)) i :=
  h.aside rfl id (heard_eq (history_record { r with mailbox } _) (by simp [Happening.tells]))

theorem next_attuned (h : Everywhere Orderly (Attuned []) b r) :
    next.Ends (fun o => Everywhere Orderly (Attuned []) (b && o.isSome)) r := by
  have htaken (mailbox : Mailbox) (m : Message) :
      Everywhere Orderly (Attuned []) b ({ r with mailbox }.record (.taken m)) :=
    ⟨h.1.of_sublist rfl (List.Sublist.refl _), fun i hlt => (h.2 i hlt).taken mailbox m⟩
  apply next_ends (Q := fun x => Everywhere Orderly (Attuned []) (b && x))
  · intro _
    rwa [Bool.and_true]
  · intro mailbox _
    rw [Bool.and_true]
    exact htaken mailbox .wakeup
  · intro d c mailbox _
    exact dispatch_attuned d c (htaken mailbox (.change d c))

/-- A sweep calls only registrations that are flagged, of which nothing is said. -/
theorem sweep_attuned (h : Everywhere Orderly (Attuned []) b r) :
    sweep.Ends (fun o => Everywhere Orderly (Attuned []) (b && o.isSome)) r := by
  obtain ⟨hr, hall⟩ := h
  have hflagged : Stable (β := β) Orderly fun _ r i => r.IsFlagged i :=
    ⟨fun hm hr => hm.orderly hr, fun h => h, fun _ hm _ _ h => hm.spares.isFlagged h⟩
  have hlisted : r.startSweep.listed.toList.Sublist r.listed.toList := by
    rw [listed_startSweep, Array.toList_filter]
    exact List.filter_sublist
  have hsame (i : Nat) : r.startSweep.heard i = r.heard i :=
    heard_eq (history_startSweep r) (by simp [Happening.tells])
  apply sweep_everywhere attuned_invariant hflagged (fun h => .of_flagged h) _ hr
  · refine ⟨hr.of_sublist (by rw [entries_startSweep]) hlisted, ?_, ?_⟩
    · intro i hi
      have hlt := hr.taken i (mem_places.mp hi).1
      obtain ⟨-, e, he, hf⟩ := mem_places.mp hi
      rw [entries_startSweep]
      exact ⟨hlt, e, by rwa [entries_startSweep], hf⟩
    · intro i hlt _
      rw [entries_startSweep] at hlt
      refine (hall i hlt).aside (by rw [entries_startSweep]) ?_ (hsame i)
      intro hl
      exact Array.mem_toList_iff.mp (hlisted.subset (Array.mem_toList_iff.mpr hl))
  · intro b r i hlt _ h
    have hmoves := reclaim_moves (i := i) (p := fun _ => True) (fun _ _ => trivial) trivial
      (Nat.le_refl r.entries.size)
    apply hmoves.mono
    intro o r' hm
    exact .of_flagged (hm.spares.isFlagged h)

theorem turn_attuned (t : Turn β) (h : Everywhere Orderly (Attuned []) b r) :
    t.walk.Ends (fun o => Everywhere Orderly (Attuned []) (b && o.isSome)) r := by
  apply turn_ends (Q := fun x => Everywhere Orderly (Attuned []) (b && x)) t
  · intro g _
    exact register_everywhere attuned_invariant g h
  · intro a _
    rw [Bool.and_true]
    exact perform_everywhere (attuned_stable []) a h
  · intro d c _
    exact dispatch_attuned d c h
  · intro _
    exact next_attuned h
  · intro _
    exact sweep_attuned h

/-! ## Sessions -/

theorem afterAll_attuned (bus : β) (os : List (Operation β)) :
    Everywhere Orderly (Attuned []) (calm { bus } os) (afterAll { bus } os) := by
  have hfresh : Everywhere (β := β) Orderly (Attuned []) true { bus } :=
    ⟨⟨List.Pairwise.nil, by simp⟩, fun i hlt => by simp at hlt⟩
  have hkeeps := afterAll_keeps (P := Everywhere Orderly (Attuned [])) os
    (fun _ _ t _ _ _ hr => turn_attuned t hr) hfresh
  rwa [Bool.true_and] at hkeeps

/-- If no callback panics, a held registration that was never flagged has what it is to have after
    all that it heard of. -/
theorem recorded?_heard (bus : β) (os : List (Operation β)) (hcalm : calm { bus } os = true)
    {e : Entry β} (he : (afterAll { bus } os).entries[i]? = some e) (hf : e.flagged = false)
    (hl : i ∈ (afterAll { bus } os).listed) : DistinctIds e.attached ∧ ∀ id,
      e.recorded? id = e.filter.hearAll id none ((afterAll { bus } os).heard i) := by
  obtain ⟨-, hall⟩ := afterAll_attuned bus os
  exact hall i (lt_size_of_getElem? he) hcalm e he hf hl

/-- If no callback panics, what a held registration that was never flagged has is decided by what
    it heard of: it has a device under an id if the arrival of an accepted one lasts, and of those
    the first. Any other such registration, of any session, with a filter that accepts the same
    devices has the same devices if it heard of the same, whatever the changes that it asks for and
    whatever the descriptors of the devices that left. -/
theorem attached_iff_lasts (bus : β) (os : List (Operation β)) (hcalm : calm { bus } os = true)
    {i : Nat} {e : Entry β} (he : (afterAll { bus } os).entries[i]? = some e)
    (hf : e.flagged = false) (hl : i ∈ (afterAll { bus } os).listed) :
    let cs := (afterAll { bus } os).heard i
    DistinctIds e.attached ∧
      (∀ id, id ∈ e.attached.map (·.id) ↔ ∃ k d, e.filter.Lasts cs id k d) ∧
      (∀ d, d ∈ e.attached ↔
        ∃ k, e.filter.Lasts cs d.id k d ∧ ∀ k' d', e.filter.Lasts cs d.id k' d' → k ≤ k') ∧
      ∀ (bus' : β) (os' : List (Operation β)) (i' : Nat) (e' : Entry β),
        calm { bus := bus' } os' = true →
          (afterAll { bus := bus' } os').entries[i']? = some e' → e'.flagged = false →
            i' ∈ (afterAll { bus := bus' } os').listed →
              (∀ d, e'.filter.accepts d = e.filter.accepts d) →
                List.Forall₂ Alike cs ((afterAll { bus := bus' } os').heard i') →
                  ∀ d, d ∈ e'.attached ↔ d ∈ e.attached := by
  intro cs
  -- All follows from what it has under each id, which is the first arrival that lasts.
  obtain ⟨hdistinct, hrecorded⟩ := recorded?_heard bus os hcalm he hf hl
  have hretains (id : DeviceId) : e.filter.Retains cs id (e.recorded? id) := by
    rw [hrecorded id]
    exact Filter.retains_hearAll _ _ _
  refine ⟨hdistinct, ?_, ?_, ?_⟩
  · intro id
    have hhas : e.has id = true ↔ ∃ d ∈ e.attached, d.id = id := Entry.has_iff
    rw [List.mem_map, ← hhas]
    exact (hretains id).isSome
  · intro d
    rw [← hdistinct.find?_eq_some]
    exact (hretains d.id).eq_some
  · intro bus' os' i' e' hcalm' he' hf' hl' hsame halike d
    obtain ⟨hdistinct', hrecorded'⟩ := recorded?_heard bus' os' hcalm' he' hf' hl'
    have heq : e'.recorded? d.id = e.recorded? d.id := by
      rw [hrecorded', hrecorded, Filter.hearAll_alike hsame halike]
    rw [← hdistinct'.find?_eq_some, ← hdistinct.find?_eq_some]
    exact Iff.of_eq (congrArg (· = some d) heq)

/-- The first numbered device, with a class. -/
def classed (k : UInt8) : Device :=
  { MemoryBus.sample 1 with descriptor := { (MemoryBus.sample 1).descriptor with classCode := k } }

/-- A registration that asks for arrivals makes one that asks for removals whenever it is called,
    first in its replay. Then the device leaves, under another descriptor, and two of its kind
    arrive. -/
def turnover : List (Operation MemoryBus) :=
  let f : Filter := { product := .exactly 0x2001, enumerate := true }
  let guest : Registration MemoryBus := Registration.listener { f with changes := .only .left }
  let host : Registration MemoryBus :=
    { Registration.listener { f with changes := .only .arrived } with
      onArrived _ _ :=
        .register guest.filter guest.provided guest.onArrived guest.onLeft fun _ => .finish .keep }
  [.act (.bus (.plug (classed 0))), .register host, .act (.notify (classed 3) .left),
    .handlePending, .dispatch (classed 1) .arrived, .dispatch (classed 2) .arrived]

theorem attached_iff_lasts_turnover :
    ∃ e e' : Entry MemoryBus,
      (afterAll { bus := ({} : MemoryBus) } turnover).entries[0]? = some e ∧
        (afterAll { bus := ({} : MemoryBus) } turnover).entries[1]? = some e' ∧
          classed 1 ∈ e.attached ∧ ∀ d, d ∈ e'.attached ↔ d ∈ e.attached := by
  let f : Filter := { product := .exactly 0x2001, enumerate := true }
  let cs : List (Device × Change) := [(classed 0, .arrived), (classed 3, .left),
    (classed 1, .arrived), (classed 2, .arrived)]
  have hcalm : calm { bus := ({} : MemoryBus) } turnover = true := by decide +kernel
  have hlisted : (afterAll { bus := ({} : MemoryBus) } turnover).listed = #[0, 1, 2] := by
    decide +kernel
  have hheard : (afterAll { bus := ({} : MemoryBus) } turnover).heard 0 = cs := by decide +kernel
  have hheard' : (afterAll { bus := ({} : MemoryBus) } turnover).heard 1 = cs := by
    decide +kernel
  have hentry : (afterAll { bus := ({} : MemoryBus) } turnover).entries[0]?.any
      (fun e => e.filter == { f with changes := .only .arrived } && e.active) = true := by
    decide +kernel
  have hentry' : (afterAll { bus := ({} : MemoryBus) } turnover).entries[1]?.any
      (fun e => e.filter == { f with changes := .only .left } && e.active) = true := by
    decide +kernel
  obtain ⟨e, he, hprops⟩ := (Option.any_eq_true ..).mp hentry
  obtain ⟨e', he', hprops'⟩ := (Option.any_eq_true ..).mp hentry'
  have hboth : e.filter = { f with changes := .only .arrived } ∧ e.flagged = false := by
    simpa [Entry.active] using hprops
  have hboth' : e'.filter = { f with changes := .only .left } ∧ e'.flagged = false := by
    simpa [Entry.active] using hprops'
  obtain ⟨-, -, hattached, hother⟩ := attached_iff_lasts ({} : MemoryBus) turnover hcalm he hboth.2
    (by simp [hlisted])
  refine ⟨e, e', he, he', ?_, ?_⟩
  · rw [hattached, hheard, hboth.1]
    refine ⟨2, ⟨rfl, rfl, by decide, ?_⟩, ?_⟩
    · intro j x hj hx
      have hlt : j < cs.length := (List.getElem?_eq_some_iff.mp hx).1
      have hlast : j = 3 := by
        have hlen : cs.length = 4 := rfl
        omega
      subst hlast
      cases hx
    · -- The first arrival does not last, and the second change is none.
      intro k' d' h
      by_contra hlt
      have hcases : k' = 0 ∨ k' = 1 := by omega
      rcases hcases with rfl | rfl
      · exact h.stays 1 (classed 3) (by decide) rfl rfl
      · cases h.arrival
  · refine hother ({} : MemoryBus) turnover 1 e' hcalm he' hboth'.2 (by simp [hlisted]) ?_ ?_
    · intro d
      rw [hboth.1, hboth'.1]
      rfl
    · rw [hheard, hheard']
      exact List.forall₂_same.mpr fun c _ => ⟨rfl, rfl, fun _ => rfl⟩

end Registry

end PlugWatch
