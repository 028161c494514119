import PlugWatch.Proofs.Frame
import Mathlib.Logic.Relation

/-! # What walks do

  Whatever callbacks ask for, a walk does nothing but a series of **moves**: a callback is entered
  or returns, a registration gets or loses a device, a registration is made, an action is carried
  out. Calls go only to the registrations that the walk was sent to, and to those made on the way.
  Every invariant of the registry is therefore a statement about single moves.

  The first such statement is that a walk **spares** the registrations it was not sent to: they
  keep their devices and are not called; at most they are flagged, if they are held, or taken off
  the list.
-/

namespace PlugWatch

/-! ## Moves -/

namespace Registry

variable {β : Type} [Bus β]

/-- A single thing that a walk does, if it calls only registrations at places with `p`. -/
inductive Move (p : Nat → Prop) : Registry β → Registry β → Prop where
  /-- A callback is entered. -/
  | enter (r : Registry β) {i : Nat} (c : Change) (d : Device) :
      p i → i < r.entries.size → Move p r (r.enter i c d)
  /-- A callback that was told of a removal returns. -/
  | finish (r : Registry β) {i : Nat} (d : Device) (v : Verdict) :
      p i → i < r.entries.size → Move p r (r.record (.answered i .left d v))
  /-- A callback that was told of an arrival returns and keeps the registration. -/
  | keep (r : Registry β) {i : Nat} (d : Device) :
      p i → i < r.entries.size → Move p r (r.keep i d)
  /-- A callback that was told of an arrival returns and drops the registration. -/
  | drop (r : Registry β) {i : Nat} (d : Device) :
      p i → i < r.entries.size → Move p r (r.drop i d)
  /-- A registration gets a device without a call. -/
  | adopt (r : Registry β) {i : Nat} (d : Device) :
      p i → i < r.entries.size → Move p r (r.update i (·.attach d))
  /-- A registration loses a device. -/
  | detach (r : Registry β) {i : Nat} (id : DeviceId) :
      p i → i < r.entries.size → Move p r (r.update i (·.detach id))
  /-- A registration loses all devices. -/
  | clear (r : Registry β) {i : Nat} :
      p i → i < r.entries.size → Move p r (r.update i ({ · with attached := [] }))
  /-- A registration is made. -/
  | enlist (r : Registry β) (g : Registration β) :
      g.check = .ok () → p r.entries.size → Move p r (r.enlist g)
  /-- The bus is asked for its devices on behalf of a new registration. -/
  | enumerate (r : Registry β) : Move p r r.enumerate.2
  /-- A new registration is taken off the list again. -/
  | rollBack (r : Registry β) {i : Nat} {e : Entry β} (why : Failure) :
      p i → r.entries[i]? = some e → Move p r (r.rollBack i e.handle why)
  /-- The devices present are about to be replayed. -/
  | beginReplay (r : Registry β) {i : Nat} (h : Handle) (ds : List Device) :
      p i → i < r.entries.size → Move p r (r.beginReplay i h ds)
  /-- Something is written to the log. -/
  | log (r : Registry β) (level : LogLevel) (message : String) : Move p r (r.log level message)
  /-- A callback asks for an action. -/
  | perform (r : Registry β) (a : Action β) : Move p r (r.perform a).2

/-- A series of moves. -/
def Moves (p : Nat → Prop) : Registry β → Registry β → Prop :=
  Relation.ReflTransGen (Move p)

variable {p q : Nat → Prop} {r r' r'' : Registry β}

theorem Moves.refl (r : Registry β) : Moves p r r :=
  Relation.ReflTransGen.refl

theorem Move.moves (h : Move p r r') : Moves p r r' :=
  Relation.ReflTransGen.single h

theorem Moves.trans (h : Moves p r r') (h' : Moves p r' r'') : Moves p r r'' :=
  Relation.ReflTransGen.trans h h'

theorem Move.mono (hpq : ∀ i, p i → q i) (h : Move p r r') : Move q r r' := by
  cases h with
  | enter c d hi hlt => exact .enter r c d (hpq _ hi) hlt
  | finish d v hi hlt => exact .finish r d v (hpq _ hi) hlt
  | keep d hi hlt => exact .keep r d (hpq _ hi) hlt
  | drop d hi hlt => exact .drop r d (hpq _ hi) hlt
  | adopt d hi hlt => exact .adopt r d (hpq _ hi) hlt
  | detach id hi hlt => exact .detach r id (hpq _ hi) hlt
  | clear hi hlt => exact .clear r (hpq _ hi) hlt
  | enlist g hg hi => exact .enlist r g hg (hpq _ hi)
  | enumerate => exact .enumerate r
  | rollBack why hi he => exact .rollBack r why (hpq _ hi) he
  | beginReplay h ds hi hlt => exact .beginReplay r h ds (hpq _ hi) hlt
  | log level message => exact .log r level message
  | perform a => exact .perform r a

theorem Moves.mono (hpq : ∀ i, p i → q i) (h : Moves p r r') : Moves q r r' :=
  Relation.ReflTransGen.mono (fun _ _ => Move.mono hpq) _ _ h

/-- What every single move keeps, a series keeps. -/
theorem Moves.keeps {P : Registry β → Prop} (hP : ∀ {r r'}, Move p r r' → P r → P r')
    (h : Moves p r r') (hr : P r) : P r' := by
  induction h with
  | refl => exact hr
  | tail _ hm ih => exact hP hm ih

/-- A relation that joins up and holds of every single move holds of a series. -/
theorem Moves.relates {R : Registry β → Registry β → Prop} (hrefl : ∀ r, R r r)
    (htrans : ∀ {r r' r''}, R r r' → R r' r'' → R r r'') (hR : ∀ {r r'}, Move p r r' → R r r')
    (h : Moves p r r') : R r r' := by
  induction h with
  | refl => exact hrefl r
  | tail _ hm ih => exact htrans ih (hR hm)

end Registry

/-! ## Sparing -/

namespace Happening

/-- Whether something can happen while only registrations at places with `p` are called. -/
def Within (p : Nat → Prop) : Happening → Prop
  | enlisted i => p i
  | replayed i _ => p i
  | called i _ _ => p i
  | answered i _ _ _ => p i
  | reclaimed _ => False
  | dispatched _ _ => False
  | taken _ => False
  | flagged _ => True
  | destroyed _ => True
  | changed _ _ => True
  | notified _ _ => True
  | discarded _ => True
  | logged _ => True
  | printed _ => True

theorem Within.mono {p q : Nat → Prop} (hpq : ∀ i, p i → q i) {h : Happening} (hh : h.Within p) :
    h.Within q := by
  cases h <;> first | exact hh | exact hpq _ hh

end Happening

/-- An entry later on: the registration and its handle stay, and so does the flag once it is set. -/
structure Entry.Ages {β : Type} [Bus β] (e e' : Entry β) : Prop where
  registration : e'.toRegistration = e.toRegistration
  handle : e'.handle = e.handle
  flagged : e.flagged = true → e'.flagged = true

theorem Entry.Ages.unflagged {β : Type} [Bus β] {e e' : Entry β} (h : e.Ages e')
    (hf : e'.flagged = false) : e.flagged = false := by
  by_cases hset : e.flagged = true
  · have hset' := h.flagged hset
    rw [hf] at hset'
    cases hset'
  · simpa using hset

namespace Registry

variable {β : Type} [Bus β]

/-- What happens between two states of a registry when only registrations at places with `p` are
    called. -/
structure Spares (p : Nat → Prop) (r r' : Registry β) : Prop where
  /-- No registration is forgotten. -/
  size_le : r.entries.size ≤ r'.entries.size
  /-- The history grows by what can happen then. -/
  news : ∃ hs, r'.history.toList = r.history.toList ++ hs ∧ ∀ h ∈ hs, h.Within p
  /-- Every registration ages. -/
  ages : ∀ (i : Nat) (e : Entry β), r.entries[i]? = some e →
    ∃ e', r'.entries[i]? = some e' ∧ e.Ages e'
  /-- A registration that is not called changes at most its flag, and that only while held. -/
  spared : ∀ (i : Nat) (e : Entry β), ¬ p i → r.entries[i]? = some e →
    ∃ b, r'.entries[i]? = some { e with flagged := b } ∧ (i ∉ r.listed → b = e.flagged)
  /-- No registration is listed again. -/
  listed : ∀ i ∈ r'.listed, i < r.entries.size → i ∈ r.listed

end Registry

theorem Entry.Ages.refl {β : Type} [Bus β] (e : Entry β) : e.Ages e :=
  ⟨rfl, rfl, id⟩

theorem Entry.Ages.trans {β : Type} [Bus β] {e e' e'' : Entry β} (h : e.Ages e')
    (h' : e'.Ages e'') : e.Ages e'' :=
  ⟨h'.registration.trans h.registration, h'.handle.trans h.handle, fun hf =>
    h'.flagged (h.flagged hf)⟩

namespace Registry

variable {β : Type} [Bus β] {p q : Nat → Prop} {r r' r'' : Registry β}

theorem lt_size_of_getElem? {i : Nat} {e : Entry β} (h : r.entries[i]? = some e) :
    i < r.entries.size := by
  obtain ⟨hi, -⟩ := Array.getElem?_eq_some_iff.mp h
  exact hi

/-- There is one registration at a place. -/
theorem entry_eq {i : Nat} {e e' : Entry β} (he : r.entries[i]? = some e)
    (he' : r.entries[i]? = some e') : e' = e :=
  Option.some.inj (he'.symm.trans he)

namespace Spares

theorem refl (r : Registry β) : Spares p r r where
  size_le := Nat.le_refl _
  news := ⟨[], by simp⟩
  ages i e he := ⟨e, he, .refl e⟩
  spared i e _ he := ⟨e.flagged, he, fun _ => rfl⟩
  listed i hi _ := hi

theorem trans (h : Spares p r r') (h' : Spares p r' r'') : Spares p r r'' where
  size_le := Nat.le_trans h.size_le h'.size_le
  news := by
    obtain ⟨hs, hr, hw⟩ := h.news
    obtain ⟨hs', hr', hw'⟩ := h'.news
    refine ⟨hs ++ hs', by rw [hr', hr, List.append_assoc], ?_⟩
    intro x hx
    rcases List.mem_append.mp hx with hx | hx
    · exact hw x hx
    · exact hw' x hx
  ages i e he := by
    obtain ⟨e', he', ha⟩ := h.ages i e he
    obtain ⟨e'', he'', ha'⟩ := h'.ages i e' he'
    exact ⟨e'', he'', ha.trans ha'⟩
  spared i e hi he := by
    obtain ⟨b, he', hb⟩ := h.spared i e hi he
    obtain ⟨b', he'', hb'⟩ := h'.spared i _ hi he'
    refine ⟨b', he'', ?_⟩
    intro hl
    -- What is off the list stays off it, so the second half may not set the flag either.
    have hl' : i ∉ r'.listed := fun hm => hl (h.listed i hm (lt_size_of_getElem? he))
    exact (hb' hl').trans (hb hl)
  listed i hi hlt :=
    h.listed i (h'.listed i hi (Nat.lt_of_lt_of_le hlt h.size_le)) hlt

/-- What only adds to the history spares everything. -/
theorem of_notes (hs : List Happening) (he : r'.entries = r.entries)
    (hl : ∀ i ∈ r'.listed, i ∈ r.listed) (hh : r'.history.toList = r.history.toList ++ hs)
    (hw : ∀ h ∈ hs, h.Within p) : Spares p r r' where
  size_le := Nat.le_of_eq (by rw [he])
  news := ⟨hs, hh, hw⟩
  ages i e hi := ⟨e, he ▸ hi, .refl e⟩
  spared i e _ hi := ⟨e.flagged, he ▸ hi, fun _ => rfl⟩
  listed i hi _ := hl i hi

theorem record (r : Registry β) (h : Happening) (hw : h.Within p) : Spares p r (r.record h) :=
  of_notes [h] rfl (fun _ hi => hi) (by simp [Registry.record]) (by simpa using hw)

theorem log (r : Registry β) (level : LogLevel) (message : String) :
    Spares p r (r.log level message) :=
  record r (.logged _) trivial

/-- What changes a single registration, which is to be called or only gets flagged. -/
theorem update (r : Registry β) {i : Nat} {f : Entry β → Entry β} (hf : ∀ e : Entry β, e.Ages (f e))
    (hi : ¬ p i → i ∈ r.listed ∧ ∀ e, f e = { e with flagged := true }) :
    Spares p r (r.update i f) where
  size_le := by simp [Registry.update]
  news := ⟨[], by simp [Registry.update]⟩
  ages j e he := by
    by_cases hij : i = j
    · exact ⟨f e, by simp [Registry.update, Array.getElem?_modify, hij, he], hf e⟩
    · exact ⟨e, by simp [Registry.update, Array.getElem?_modify, hij, he], .refl e⟩
  spared j e hj he := by
    by_cases hij : i = j
    · subst hij
      obtain ⟨hl, hf⟩ := hi hj
      -- It is not called, so all that happens to it is the flag.
      refine ⟨true, ?_, fun hn => absurd hl hn⟩
      simp [Registry.update, Array.getElem?_modify, he, hf]
    · refine ⟨e.flagged, ?_, fun _ => rfl⟩
      simp [Registry.update, Array.getElem?_modify, hij, he]
  listed j hj _ := hj

theorem update_of (r : Registry β) {i : Nat} {f : Entry β → Entry β}
    (hf : ∀ e : Entry β, e.Ages (f e)) (hi : p i) : Spares p r (r.update i f) :=
  update r hf fun hn => absurd hi hn

theorem flag (r : Registry β) {i : Nat} (hi : ¬ p i → i ∈ r.listed) : Spares p r (r.flag i) := by
  have h : Spares p r (r.update i ({ · with flagged := true })) :=
    update r (fun _ => ⟨rfl, rfl, fun _ => rfl⟩) fun hn => ⟨hi hn, fun _ => rfl⟩
  exact h.trans (record _ (.flagged i) trivial)

theorem wake (r : Registry β) : Spares p r r.wake := by
  unfold Registry.wake
  split
  · exact of_notes [] rfl (fun _ hi => hi) (by simp) (by simp)
  · next m _ =>
    have h : Spares p r { r with mailbox := m } :=
      of_notes [] rfl (fun _ hi => hi) (by simp) (by simp)
    exact h.trans (log _ _ _)

theorem deregister (r : Registry β) (h : Handle) : Spares p r (r.deregister h) := by
  unfold Registry.deregister
  split
  · split
    · exact log r _ _
    · next i hi =>
      have hl : i ∈ r.listed := Array.mem_of_find?_eq_some hi
      exact ((flag r fun _ => hl).trans (log _ _ _)).trans (wake _)
  · exact refl r

theorem dismiss (r : Registry β) {i : Nat} (hi : p i) (id : DeviceId) :
    Spares p r (r.dismiss i id) := by
  unfold Registry.dismiss
  split
  · exact refl r
  · split
    · exact refl r
    · exact ((flag r fun hn => absurd hi hn).trans (log _ _ _)).trans (wake _)

theorem unlist (r : Registry β) (t : Entry β → Bool) : Spares p r (r.unlist t) :=
  of_notes [] rfl (fun i hi => (Array.mem_filter.mp hi).1) (by simp [Registry.unlist])
    (by simp)

theorem deregisterAll (r : Registry β) : Spares p r r.deregisterAll.2 := by
  have hl : Spares p r { r with listed := #[] } :=
    of_notes [] rfl (by simp) (by simp) (by simp)
  have h := hl.trans (record _ (.destroyed r.listed.toList) trivial)
  unfold Registry.deregisterAll
  simp only
  split
  · exact h
  · exact h.trans (log _ _ _)

theorem teardown (r : Registry β) : Spares p r r.teardown := by
  unfold Registry.teardown
  have h : Spares p r.deregisterAll.2
      { r.deregisterAll.2 with mailbox := r.deregisterAll.2.mailbox.drain } :=
    of_notes [] rfl (fun _ hi => hi) (by simp) (by simp)
  exact ((deregisterAll r).trans h).trans (record _ (.discarded _) trivial)

theorem notify (r : Registry β) (d : Device) (c : Change) : Spares p r (r.notify d c).2 := by
  unfold Registry.notify
  split
  · next m _ =>
    have h : Spares p r { r with mailbox := m } :=
      of_notes [] rfl (fun _ hi => hi) (by simp) (by simp)
    exact h.trans (record _ (.notified d c) trivial)
  · exact of_notes [] rfl (fun _ hi => hi) (by simp) (by simp)

theorem enumerate (r : Registry β) : Spares p r r.enumerate.2 := by
  rw [enumerate_eq]
  refine of_notes ((Bus.enumerate r.bus).log.map Happening.logged) rfl (fun _ hi => hi) (by simp) ?_
  intro h hh
  obtain ⟨e, -, rfl⟩ := List.mem_map.mp hh
  exact trivial

theorem recordChanges (cs : List (Device × Change)) (r : Registry β) :
    Spares p r (r.recordChanges cs) := by
  refine of_notes _ (by simp) (by simp) (history_recordChanges r cs) ?_
  intro h hh
  obtain ⟨x, -, rfl⟩ := List.mem_map.mp hh
  exact trivial

theorem perform (r : Registry β) (a : Action β) : Spares p r (r.perform a).2 := by
  cases a with
  | deregister h => exact deregister r h
  | isRegistered h => exact refl r
  | attached h => exact refl r
  | count => exact refl r
  | deregisterAll => exact deregisterAll r
  | teardown => exact teardown r
  | notify d c => exact notify r d c
  | enumerate => exact enumerate r
  | bus c =>
    refine trans ?_ (recordChanges _ _)
    exact of_notes [] rfl (fun _ hi => hi) (by simp) (by simp)
  | log e => exact record r (.logged e) trivial
  | print line => exact record r (.printed line) trivial

theorem enlist (r : Registry β) (g : Registration β) (hi : p r.entries.size) :
    Spares p r (r.enlist g) := by
  let e : Entry β := { toRegistration := g, handle := r.nextHandle }
  have h : Spares p r
      { r with entries := r.entries.push e, listed := r.listed.push r.entries.size } := by
    refine ⟨by simp, ⟨[], by simp⟩, ?_, ?_, ?_⟩
    -- The new registration goes to the end, so the others stay at their places.
    · intro i e he
      have hlt := lt_size_of_getElem? he
      exact ⟨e, by simp [Array.getElem?_push, Nat.ne_of_lt hlt, he], .refl e⟩
    · intro i e _ he
      have hlt := lt_size_of_getElem? he
      exact ⟨e.flagged, by simp [Array.getElem?_push, Nat.ne_of_lt hlt, he], fun _ => rfl⟩
    · intro i hl hlt
      rcases Array.mem_push.mp hl with hl | hl
      · exact hl
      · omega
  exact (h.trans (record _ (.enlisted r.entries.size) hi)).trans (log _ _ _)

end Spares

/-- A move spares the registrations that it does not call. -/
theorem Move.spares (h : Move p r r') : Spares p r r' := by
  cases h with
  | @enter i c d hi hlt =>
    -- Counting the call changes the entry, but nothing that ages.
    have hages (e : Entry β) : e.Ages (e.countCall c) := by
      cases c <;> exact ⟨rfl, rfl, id⟩
    exact (Spares.update_of r hages hi).trans (Spares.record _ (.called i c d) hi)
  | finish d v hi hlt => exact Spares.record r (.answered _ _ d v) hi
  | keep d hi hlt =>
    exact (Spares.record r (.answered _ _ d _) hi).trans
      (Spares.update_of _ (fun e => ⟨rfl, rfl, id⟩) hi)
  | drop d hi hlt => exact (Spares.record r (.answered _ _ d _) hi).trans (Spares.dismiss _ hi _)
  | adopt d hi hlt => exact Spares.update_of r (fun e => ⟨rfl, rfl, id⟩) hi
  | detach id hi hlt => exact Spares.update_of r (fun e => ⟨rfl, rfl, fun h => h⟩) hi
  | clear hi hlt => exact Spares.update_of r (fun e => ⟨rfl, rfl, id⟩) hi
  | enlist g hg hi => exact Spares.enlist r g hi
  | enumerate => exact Spares.enumerate r
  | rollBack why hi he =>
    exact ((Spares.log r _ _).trans (Spares.flag _ fun hn => absurd hi hn)).trans
      (Spares.unlist _ _)
  | beginReplay h ds hi hlt => exact (Spares.record r (.replayed _ ds) hi).trans (Spares.log _ _ _)
  | log level message => exact Spares.log r level message
  | perform a => exact Spares.perform r a

/-- A move is about registrations that are there when it is done. -/
theorem Move.bounded (h : Move p r r') : Move (fun i => p i ∧ i < r'.entries.size) r r' := by
  have hle := h.spares.size_le
  cases h with
  | enter c d hi hlt => exact .enter r c d ⟨hi, Nat.lt_of_lt_of_le hlt hle⟩ hlt
  | finish d v hi hlt => exact .finish r d v ⟨hi, Nat.lt_of_lt_of_le hlt hle⟩ hlt
  | keep d hi hlt => exact .keep r d ⟨hi, Nat.lt_of_lt_of_le hlt hle⟩ hlt
  | drop d hi hlt => exact .drop r d ⟨hi, Nat.lt_of_lt_of_le hlt hle⟩ hlt
  | adopt d hi hlt => exact .adopt r d ⟨hi, Nat.lt_of_lt_of_le hlt hle⟩ hlt
  | detach id hi hlt => exact .detach r id ⟨hi, Nat.lt_of_lt_of_le hlt hle⟩ hlt
  | clear hi hlt => exact .clear r ⟨hi, Nat.lt_of_lt_of_le hlt hle⟩ hlt
  | enlist g hg hi => exact .enlist r g hg ⟨hi, by simp [Registry.enlist]⟩
  | enumerate => exact .enumerate r
  | rollBack why hi he =>
    exact .rollBack r why ⟨hi, Nat.lt_of_lt_of_le (lt_size_of_getElem? he) hle⟩ he
  | beginReplay h ds hi hlt => exact .beginReplay r h ds ⟨hi, Nat.lt_of_lt_of_le hlt hle⟩ hlt
  | log level message => exact .log r level message
  | perform a => exact .perform r a

/-- A series of moves spares the registrations that it does not call. -/
theorem Moves.spares (h : Moves p r r') : Spares p r r' :=
  h.relates Spares.refl Spares.trans Move.spares

theorem Moves.news (h : Moves p r r') : r.history.toList <+: r'.history.toList := by
  obtain ⟨hs, hh, -⟩ := h.spares.news
  exact ⟨hs, hh.symm⟩

theorem Move.news (h : Move p r r') : r.history.toList <+: r'.history.toList :=
  h.moves.news

/-! ## Flags -/

/-- The registration at a place is flagged. -/
def IsFlagged (r : Registry β) (i : Nat) : Prop :=
  ∃ e, r.entries[i]? = some e ∧ e.flagged = true

/-- A flag is never taken back. -/
theorem Spares.isFlagged (h : Spares p r r') {i : Nat} (hi : r.IsFlagged i) : r'.IsFlagged i := by
  obtain ⟨e, he, hf⟩ := hi
  obtain ⟨e', he', hage⟩ := h.ages i e he
  exact ⟨e', he', hage.flagged hf⟩

end Registry

end PlugWatch
