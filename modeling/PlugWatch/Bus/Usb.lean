import PlugWatch.Bus
import PlugWatch.Bus.Usb.Device

/-! # The USB bus

  A bus with numbered **slots**, each of which holds a peripheral, and the list of the slots that
  are attached. Listing the bus reads the descriptor of every attached peripheral; one that cannot
  be read is left out. **Listeners** are told of arrivals and removals; the bus only counts them,
  since all of them do the same.
-/

namespace PlugWatch

/-- The state of a USB bus. -/
structure UsbBus where
  /-- What the slots hold. -/
  slots : Nat → UsbDevice := fun _ => {}
  /-- The attached slots, in the order in which they are listed. -/
  attached : List Nat := []
  /-- Whether changes are reported. -/
  hotplug : Bool := true
  /-- Why the bus cannot be opened. -/
  openError : Option UsbError := none
  /-- Why the bus cannot be listed. -/
  listError : Option UsbError := none
  /-- Why nobody can begin to listen. -/
  listenError : Option UsbError := none
  /-- Number of those who listen. -/
  listeners : Nat := 0

namespace UsbBus

/-! ## What happens to a bus -/

/-- Something that happens to a bus. -/
inductive Command where
  /-- A slot holds another peripheral from now on. -/
  | define (slot : Nat) (device : UsbDevice)
  /-- A slot comes at the end of the list. -/
  | attach (slot : Nat)
  /-- A slot goes from its first place on the list. -/
  | detach (slot : Nat)
  | setHotplug (value : Bool)
  | setOpenError (error : Option UsbError)
  | setListError (error : Option UsbError)
  | setListenError (error : Option UsbError)

/-- Puts a peripheral into a slot. -/
def define (b : UsbBus) (slot : Nat) (u : UsbDevice) : UsbBus :=
  { b with slots := fun i => if i = slot then u else b.slots i }

/-- Carries out a command. -/
def apply (b : UsbBus) : Command → UsbBus
  | .define slot u => b.define slot u
  | .attach slot => { b with attached := b.attached ++ [slot] }
  | .detach slot => { b with attached := b.attached.erase slot }
  | .setHotplug v => { b with hotplug := v }
  | .setOpenError e => { b with openError := e }
  | .setListError e => { b with listError := e }
  | .setListenError e => { b with listenError := e }

/-! ## Listening -/

/-- Adds a listener. -/
def listen (b : UsbBus) : Except UsbError Unit × UsbBus :=
  match b.listenError with
  | some e => (.error e, b)
  | none => (.ok (), { b with listeners := b.listeners + 1 })

/-- Takes a listener off. -/
def unlisten (b : UsbBus) : UsbBus :=
  { b with listeners := b.listeners - 1 }

/-! ## Listing -/

/-- A device with the slot in which it was seen. -/
structure Sighting where
  slot : Nat
  device : Device
  deriving DecidableEq, Repr

/-- Reads the descriptor in a slot. -/
def sight (b : UsbBus) (slot : Nat) : Except UsbError Device × UsbBus :=
  let (r, u) := (b.slots slot).read
  (r.map fun d => ⟨u.id, d⟩, b.define slot u)

/-- Reads the names in a slot. -/
def names (b : UsbBus) (slot : Nat) : (Option String × Option String) × UsbBus :=
  let (r, u) := (b.slots slot).names
  (r, b.define slot u)

/-- The log entry of a peripheral that is left out of a list. -/
def skippedEntry (u : UsbDevice) (e : UsbError) : LogEntry where
  level := .warn
  source := .listing
  message := s!"Skipping device {u.place}: failed to read descriptor: {e.message}"

/-- Reads the descriptors in slots, one after the other. -/
def sightAll (b : UsbBus) : List Nat → List Sighting × List LogEntry × UsbBus
  | [] => ([], [], b)
  | i :: is =>
    match b.sight i with
    | (.ok d, b) =>
      let (found, log, b) := b.sightAll is
      (⟨i, d⟩ :: found, log, b)
    | (.error e, b) =>
      let entry := skippedEntry (b.slots i) e
      let (found, log, b) := b.sightAll is
      (found, entry :: log, b)

/-- The outcome of looking at a bus. -/
structure Survey where
  /-- What is attached, in order. -/
  found : Except UsbError (List Sighting)
  /-- What there is to say about it. -/
  log : List LogEntry := []
  /-- The bus afterwards. -/
  bus : UsbBus

/-- Looks at what is attached. -/
def survey (b : UsbBus) : Survey :=
  match b.listError with
  | some e => { found := .error e, bus := b }
  | none =>
    let (found, log, b) := b.sightAll b.attached
    let last : LogEntry :=
      { level := .debug, source := .listing, message := s!"Enumerated {found.length} devices" }
    { found := .ok found, log := log ++ [last], bus := b }

/-- The refusal of a bus that cannot be listed. -/
def refusal (e : UsbError) : Failure :=
  .enumerationFailed e.message

/-- Lists the devices attached. -/
def list (b : UsbBus) : Enumeration UsbBus :=
  let s := b.survey
  { devices := (s.found.mapError refusal).map fun found => found.map (·.device)
    bus := s.bus
    log := s.log }

instance : Bus UsbBus where
  Command := Command
  Answer := fun _ => Unit
  perform := fun c b => ((), b.apply c)
  hasHotplug := hotplug
  enumerate := list

end UsbBus

end PlugWatch
