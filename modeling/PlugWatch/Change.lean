/-! # Changes of the bus

  A device **arrives** or has **left**. A registration asks for a set of these two, its change mask.
-/

namespace PlugWatch

/-- What can happen to a device. -/
inductive Change where
  /-- The device was plugged in. -/
  | arrived
  /-- The device was unplugged. -/
  | left
  deriving DecidableEq, Repr

/-- The word that names a change in log lines. -/
def Change.word : Change → String
  | .arrived => "Arrived"
  | .left => "Left"

/-- A set of changes. -/
structure ChangeMask where
  arrived : Bool := false
  left : Bool := false
  deriving DecidableEq, Repr

namespace ChangeMask

/-- No change. -/
def none : ChangeMask :=
  ⟨false, false⟩

/-- Both changes. -/
def both : ChangeMask :=
  ⟨true, true⟩

/-- The set of one change. -/
def only : Change → ChangeMask
  | .arrived => ⟨true, false⟩
  | .left => ⟨false, true⟩

/-- Whether a change is in the set. -/
def has (m : ChangeMask) : Change → Bool
  | .arrived => m.arrived
  | .left => m.left

/-- The changes of either set. -/
def union (a b : ChangeMask) : ChangeMask :=
  ⟨a.arrived || b.arrived, a.left || b.left⟩

instance : Union ChangeMask := ⟨union⟩

/-- Whether no change is in the set. -/
def isEmpty (m : ChangeMask) : Bool :=
  !m.arrived && !m.left

/-- Whether `b` is a non-empty part of `a`. -/
def covers (a b : ChangeMask) : Bool :=
  !b.isEmpty && (a.arrived || !b.arrived) && (a.left || !b.left)

/-- The set of the changes in a list. -/
def ofList (cs : List Change) : ChangeMask :=
  cs.foldl (fun m c => m ∪ only c) none

/-- The set as a number: one for arrivals, two for removals. -/
def bits (m : ChangeMask) : Nat :=
  m.arrived.toNat + 2 * m.left.toNat

/-- The set that a number stands for, if it has no other bits. -/
def ofBits? : Nat → Option ChangeMask
  | 0 => some none
  | 1 => some (only .arrived)
  | 2 => some (only .left)
  | 3 => some both
  | _ => Option.none

/-- Writing a set as a number keeps it. -/
theorem ofBits?_bits (m : ChangeMask) : ofBits? m.bits = some m := by
  obtain ⟨a, l⟩ := m
  cases a <;> cases l <;> rfl

/-- A set covers the set of one change exactly if it has that change. -/
theorem covers_only (m : ChangeMask) (c : Change) : m.covers (only c) = m.has c := by
  obtain ⟨a, l⟩ := m
  cases a <;> cases l <;> cases c <;> rfl

end ChangeMask

end PlugWatch
