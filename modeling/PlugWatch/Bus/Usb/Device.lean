import PlugWatch.Device
import PlugWatch.Failure
import PlugWatch.Text.Units

/-! # What is plugged in

  A peripheral as a bus sees it: its address, its descriptor, which may become unreadable after some
  readings, and the strings that it tells about itself once it is opened. Strings are asked for by
  index and language; index zero stands for no string.
-/

namespace PlugWatch

/-! ## Speed -/

/-- How fast a peripheral talks. -/
inductive UsbSpeed where
  | unknown
  | low
  | full
  | high
  | super
  | superPlus
  deriving DecidableEq, Repr

namespace UsbSpeed

/-- The speed of a number. -/
def ofNumber : Nat → UsbSpeed
  | 1 => low
  | 2 => full
  | 3 => high
  | 4 => super
  | 5 => superPlus
  | _ => unknown

/-- The name of a speed in listings. -/
def name : UsbSpeed → String
  | unknown => "Unknown"
  | low => "Low"
  | full => "Full"
  | high => "High"
  | super => "Super"
  | superPlus => "SuperPlus"

end UsbSpeed

/-! ## Peripherals -/

/-- A string that a peripheral holds. -/
structure UsbString where
  index : UInt8
  language : UInt16
  /-- Why it cannot be read. -/
  error : Option UsbError := none
  /-- The text in sixteen-bit units. -/
  content : List UInt16
  deriving DecidableEq, Repr

/-- A peripheral. -/
structure UsbDevice where
  /-- Number of the bus it sits on. -/
  bus : UInt8 := 1
  /-- Its address on that bus. -/
  address : UInt8 := 1
  descriptor : Descriptor := ⟨0, 0, 0⟩
  speed : UsbSpeed := .unknown
  /-- How many readings of the descriptor succeed, if that is bounded. -/
  readable : Option Nat := none
  /-- Why the readings after those fail. -/
  readError : UsbError := .inputOutput
  /-- Why it cannot be opened. -/
  openError : Option UsbError := none
  /-- Index of the string that names its maker. -/
  manufacturer : UInt8 := 0
  /-- Index of the string that names it. -/
  product : UInt8 := 0
  /-- Why its languages cannot be read. -/
  languageError : Option UsbError := none
  /-- The languages of its strings, the preferred one first. -/
  languages : List UInt16 := []
  strings : List UsbString := []
  deriving DecidableEq, Repr

namespace UsbDevice

/-- Bus and address as an id. -/
def id (u : UsbDevice) : DeviceId :=
  .ofBusAddress u.bus u.address

/-- Bus and address in log lines. -/
def place (u : UsbDevice) : String :=
  s!"bus={u.bus} addr={u.address}"

/-- Reads the descriptor. A reading that succeeds is one less that will. -/
def read (u : UsbDevice) : Except UsbError Descriptor × UsbDevice :=
  match u.readable with
  | none => (.ok u.descriptor, u)
  | some 0 => (.error u.readError, u)
  | some (n + 1) => (.ok u.descriptor, { u with readable := some n })

/-- The language in which strings are read. -/
def language? (u : UsbDevice) : Option UInt16 :=
  match u.languageError with
  | some _ => none
  | none => u.languages.head?

/-- The string under an index. -/
def string? (u : UsbDevice) (language : UInt16) (index : UInt8) : Option String :=
  if index = 0 then none
  else
    match u.strings.find? fun s => s.index == index && s.language == language with
    | none => none
    | some s =>
      match s.error with
      | some _ => none
      | none => (Text.ofUnits? s.content).map String.ofList

/-- The names of the maker and of the peripheral, as far as they can be read. The peripheral is
    opened, its descriptor is read once more, and then its languages. -/
def names (u : UsbDevice) : (Option String × Option String) × UsbDevice :=
  match u.openError with
  | some _ => ((none, none), u)
  | none =>
    match u.read with
    | (.error _, u) => ((none, none), u)
    | (.ok _, u) =>
      match u.language? with
      | none => ((none, none), u)
      | some l => ((u.string? l u.manufacturer, u.string? l u.product), u)

end UsbDevice

end PlugWatch
