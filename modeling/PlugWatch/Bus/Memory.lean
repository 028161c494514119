import PlugWatch.Bus

/-! # A bus in memory

  A bus whose devices are a list that its owner edits. It can be told not to report changes, and not
  to give out its list; it counts how often it was asked for the list.
-/

namespace PlugWatch

/-- The state of a bus in memory. -/
structure MemoryBus where
  devices : List Device := []
  supported : Bool := true
  /-- Whether asking for the list fails. -/
  failing : Bool := false
  /-- How often the list was asked for, with or without success. -/
  enumerations : Nat := 0
  deriving DecidableEq, Repr

namespace MemoryBus

/-- Appends devices. -/
def plugAll (b : MemoryBus) (ds : List Device) : MemoryBus :=
  { b with devices := b.devices ++ ds }

/-- Appends a device. -/
def plug (b : MemoryBus) (d : Device) : MemoryBus :=
  b.plugAll [d]

/-- Removes the first device under an id. -/
def unplug (b : MemoryBus) (id : DeviceId) : Option Device × MemoryBus :=
  (b.devices.find? (·.id == id), { b with devices := b.devices.eraseP (·.id == id) })

/-- A numbered device for trying things out: vendor and product count along with the id. -/
def sample (n : Nat) : Device :=
  ⟨⟨UInt32.ofNat n⟩, ⟨0x1000 + UInt16.ofNat n, 0x2000 + UInt16.ofNat n, 0⟩⟩

/-- So many numbered devices, from number one on. There are none if the numbers of products run
    out. -/
def samples? (count : Nat) : Option (List Device) :=
  if 0x2000 + count < 0x10000 then some ((List.range count).map fun k => sample (k + 1)) else none

/-- What the owner of the bus can do to it. -/
inductive Command where
  | plug (device : Device)
  | plugAll (devices : List Device)
  | unplug (id : DeviceId)
  | setSupported (value : Bool)
  | setFailing (value : Bool)
  deriving DecidableEq, Repr

/-- What a command answers. -/
def Command.Answer : Command → Type
  | .unplug _ => Option Device
  | _ => Unit

/-- Carries out a command. -/
def perform : (c : Command) → MemoryBus → c.Answer × MemoryBus
  | .plug d, b => ((), b.plug d)
  | .plugAll ds, b => ((), b.plugAll ds)
  | .unplug id, b => b.unplug id
  | .setSupported v, b => ((), { b with supported := v })
  | .setFailing v, b => ((), { b with failing := v })

/-- What a command does to the list, device by device. -/
def changes : Command → MemoryBus → List (Device × Change)
  | .plug d, _ => [(d, .arrived)]
  | .plugAll ds, _ => ds.map (·, .arrived)
  | .unplug id, b => (b.unplug id).1.toList.map (·, .left)
  | .setSupported _, _ => []
  | .setFailing _, _ => []

/-- Gives out the list, unless it is told not to. -/
def list (b : MemoryBus) : Enumeration MemoryBus where
  devices :=
    if b.failing then .error (.enumerationFailed "mock device list unavailable")
    else .ok b.devices
  bus := { b with enumerations := b.enumerations + 1 }

instance : Bus MemoryBus where
  Command := Command
  Answer := Command.Answer
  perform := perform
  changes := changes
  hasHotplug := supported
  enumerate := list

end MemoryBus

end PlugWatch
