import PlugWatch.Proofs.Places
import Mathlib.Data.List.Chain
import Mathlib.Data.List.ModifyLast

/-! # Calls

  The history tells which callbacks of a registration were called, in which order, and what they
  returned. A call **stands** if it reported a removal, or an arrival that its callback kept; an
  arrival callback that panicked or asked to be dropped has not taken the device.

  Under one device id, the calls that stand are meant to **alternate**: first an arrival, then the
  removal of the same device, and so on. After an arrival the removal is **owed**.
-/

namespace PlugWatch

/-! ## Calls -/

/-- A call of a callback of one registration. -/
structure Call where
  change : Change
  device : Device
  /-- What the callback returned, if it did. -/
  answer : Option Verdict := none
  deriving DecidableEq, Repr

namespace Call

/-- Whether it is a removal, or an arrival that was kept. -/
def stands (c : Call) : Bool :=
  c.change == .left || c.answer == some .keep

/-- Whether it stands and is about the device under an id. -/
def under (c : Call) (id : DeviceId) : Bool :=
  c.stands && c.device.id == id

/-- Whether one call may come right after another: the removal of the device that arrived, or an
    arrival after a removal. -/
def Follows (a b : Call) : Prop :=
  match a.change, b.change with
  | .arrived, .left => b.device = a.device
  | .left, .arrived => True
  | _, _ => False

end Call

/-- The calls of a registration, with what one more happening adds. -/
def noteCall (i : Nat) (cs : List Call) : Happening → List Call
  | .called j change device => if j = i then cs ++ [{ change, device }] else cs
  | .answered j _ _ v => if j = i then cs.modifyLast ({ · with answer := some v }) else cs
  | _ => cs

namespace Registry

variable {β : Type} [Bus β]

/-- The calls of the callbacks of a registration, in order. -/
def calls (r : Registry β) (i : Nat) : List Call :=
  r.history.toList.foldl (noteCall i) []

/-- The calls of a registration that stand and are about the device under an id. -/
def told (r : Registry β) (i : Nat) (id : DeviceId) : List Call :=
  (r.calls i).filter (·.under id)

end Registry

/-! ## Alternation -/

/-- Calls that alternate, starting with an arrival, each removal with the device that arrived. -/
structure Alternates (cs : List Call) : Prop where
  head : ∀ c ∈ cs.head?, c.change = .arrived
  chain : cs.IsChain Call.Follows

/-- The device whose removal is owed after some calls. -/
def owed (cs : List Call) : Option Device :=
  (cs.getLast?.filter (·.change == .arrived)).map (·.device)

theorem owed_concat (cs : List Call) (c : Call) :
    owed (cs ++ [c]) = if c.change = .arrived then some c.device else none := by
  simp only [owed, List.getLast?_concat]
  cases hc : c.change <;> simp [Option.filter, hc]

namespace Alternates

theorem nil : Alternates [] where
  head := by simp
  chain := List.IsChain.nil

theorem concat {cs : List Call} {c : Call} (h : Alternates cs)
    (hhead : cs = [] → c.change = .arrived) (hlast : ∀ a ∈ cs.getLast?, a.Follows c) :
    Alternates (cs ++ [c]) where
  head := by
    intro a ha
    cases cs with
    | nil =>
      have hac : c = a := by simpa using ha
      exact hac ▸ hhead rfl
    | cons b cs => exact h.head a (by simpa using ha)
  chain := List.isChain_append.mpr ⟨h.chain, List.IsChain.singleton c, by simpa using hlast⟩

/-- An arrival may come when nothing is owed. -/
theorem arrive {cs : List Call} {c : Call} (h : Alternates cs) (howed : owed cs = none)
    (hc : c.change = .arrived) : Alternates (cs ++ [c]) := by
  apply h.concat (fun _ => hc)
  intro a ha
  -- Had the last call been an arrival, its removal would be owed.
  have hleft : a.change = .left := by
    cases hac : a.change with
    | left => rfl
    | arrived =>
      have hsome : owed cs = some a.device := by
        rw [Option.mem_def] at ha
        simp [owed, ha, Option.filter, hac]
      rw [hsome] at howed
      cases howed
  simp [Call.Follows, hleft, hc]

/-- The removal that is owed may come. -/
theorem leave {cs : List Call} {c : Call} (h : Alternates cs) (howed : owed cs = some c.device)
    (hc : c.change = .left) : Alternates (cs ++ [c]) := by
  apply h.concat
  · intro hnil
    rw [hnil] at howed
    cases howed
  · intro a ha
    rw [Option.mem_def] at ha
    have harr : a.change = .arrived ∧ a.device = c.device := by
      cases hac : a.change with
      | left =>
        simp [owed, ha, Option.filter, hac] at howed
      | arrived =>
        refine ⟨rfl, ?_⟩
        simpa [owed, ha, Option.filter, hac] using howed
    simp [Call.Follows, harr.1, hc, harr.2]

/-- Arrivals and removals are equally many, but for the removal that is owed. -/
theorem countP_arrived {cs : List Call} (h : Alternates cs) :
    cs.countP (·.change == .arrived) =
      cs.countP (·.change == .left) + if (owed cs).isSome then 1 else 0 := by
  -- The calls are taken from the end, where the next one is added.
  induction cs using List.reverseRecOn with
  | nil => rfl
  | append_singleton cs c ih =>
    have hcs : Alternates cs := by
      refine ⟨?_, (List.isChain_append.mp h.chain).1⟩
      intro a ha
      apply h.head a
      cases cs with
      | nil => simp at ha
      | cons b cs => simpa using ha
    have hprev := ih hcs
    have hfollows : ∀ a ∈ cs.getLast?, a.Follows c := by
      simpa using (List.isChain_append.mp h.chain).2.2
    -- What came before decides which of the two calls this one is.
    cases hl : cs.getLast? with
    | none =>
      have hnil : cs = [] := List.getLast?_eq_none_iff.mp hl
      subst hnil
      have hc : c.change = .arrived := h.head c (by simp)
      rw [owed_concat]
      simp [hc]
    | some a =>
      have hf := hfollows a hl
      have howed : (owed cs).isSome = (a.change == .arrived) := by
        cases hac : a.change <;> simp [owed, hl, Option.filter, hac]
      rw [howed] at hprev
      rw [owed_concat]
      cases hac : a.change <;> cases hc : c.change <;>
        simp [Call.Follows, hac, hc, List.countP_append] at hf hprev ⊢ <;> omega

end Alternates

/-! ## How the history adds to the calls -/

namespace Registry

variable {β : Type} [Bus β] {p : Nat → Prop} {r r' : Registry β} {i : Nat}

theorem noteCall_of_within {h : Happening} (hw : h.Within p) (hi : ¬ p i) (cs : List Call) :
    noteCall i cs h = cs := by
  cases h with
  | called j c d =>
    have hne : j ≠ i := fun hji => hi (hji ▸ hw)
    simp [noteCall, hne]
  | answered j c d v =>
    have hne : j ≠ i := fun hji => hi (hji ▸ hw)
    simp [noteCall, hne]
  | _ => rfl

/-- A registration that is spared is not called. -/
theorem Spares.calls_eq (h : Spares p r r') (hi : ¬ p i) : r'.calls i = r.calls i := by
  obtain ⟨hs, hr, hw⟩ := h.news
  -- None of the news is about this registration; the induction is on the news.
  have hnone : ∀ (hs : List Happening), (∀ h ∈ hs, h.Within p) → ∀ cs : List Call,
      hs.foldl (noteCall i) cs = cs := by
    intro hs
    induction hs with
    | nil => exact fun _ _ => rfl
    | cons x xs ih =>
      intro hw cs
      rw [List.foldl_cons, noteCall_of_within (hw x (by simp)) hi]
      exact ih (fun h hh => hw h (by simp [hh])) cs
  unfold calls
  rw [hr, List.foldl_append]
  exact hnone hs hw _

theorem calls_record (r : Registry β) (i : Nat) (h : Happening) :
    (r.record h).calls i = noteCall i (r.calls i) h := by
  simp [calls, List.foldl_append]

@[simp] theorem calls_update (r : Registry β) (i j : Nat) (f : Entry β → Entry β) :
    (r.update j f).calls i = r.calls i := rfl

@[simp] theorem calls_log (r : Registry β) (i : Nat) (level : LogLevel) (message : String) :
    (r.log level message).calls i = r.calls i :=
  calls_record r i _

theorem calls_enter (r : Registry β) (i : Nat) (c : Change) (d : Device) :
    (r.enter i c d).calls i = r.calls i ++ [⟨c, d, none⟩] := by
  simp [enter, calls_record, noteCall]

/-- The answer to the latest call. -/
theorem calls_answered {cs : List Call} {c : Call} (h : r.calls i = cs ++ [c]) (change : Change)
    (d : Device) (v : Verdict) :
    (r.record (.answered i change d v)).calls i = cs ++ [{ c with answer := some v }] := by
  rw [calls_record, h]
  simp [noteCall, List.modifyLast_concat]

@[simp] theorem calls_flag (r : Registry β) (i j : Nat) : (r.flag j).calls i = r.calls i :=
  calls_record _ i _

@[simp] theorem calls_wake (r : Registry β) (i : Nat) : r.wake.calls i = r.calls i := by
  unfold wake
  split
  · rfl
  · exact calls_log _ i _ _

@[simp] theorem calls_dismiss (r : Registry β) (i j : Nat) (id : DeviceId) :
    (r.dismiss j id).calls i = r.calls i := by
  rcases r.dismiss_cases j id with ⟨hr, -⟩ | ⟨_, _, _, _, _, hr⟩ <;> simp [hr]

theorem calls_keep {cs : List Call} {c : Call} (h : r.calls i = cs ++ [c]) (d : Device) :
    (r.keep i d).calls i = cs ++ [{ c with answer := some .keep }] :=
  calls_answered h .arrived d .keep

theorem calls_drop {cs : List Call} {c : Call} (h : r.calls i = cs ++ [c]) (d : Device) :
    (r.drop i d).calls i = cs ++ [{ c with answer := some .deregister }] := by
  rw [drop, calls_dismiss]
  exact calls_answered h .arrived d .deregister

/-- One more call. -/
theorem told_of_calls {c : Call} (h : r'.calls i = r.calls i ++ [c])
    (id : DeviceId) :
    r'.told i id = r.told i id ++ [c].filter (·.under id) := by
  unfold told
  rw [h, List.filter_append]

theorem told_under {id : DeviceId} {c : Call} (h : c ∈ r.told i id) : c.device.id = id := by
  have hu := (List.mem_filter.mp h).2
  simp [Call.under] at hu
  exact hu.2

/-- What is owed under an id is a device with this id. -/
theorem owed_told {id : DeviceId} {d : Device} (h : owed (r.told i id) = some d) : d.id = id := by
  obtain ⟨c, hc, rfl⟩ := Option.map_eq_some_iff.mp h
  have hlast := (Option.filter_eq_some_iff.mp hc).1
  exact told_under (List.mem_of_getLast? hlast)

end Registry

end PlugWatch
