import PlugWatch.Script

/-! # The registry

  The registrations of one client, the bus they listen to, and the mailbox of device changes.
  Every registration ever accepted has a **place**, which names it for good, also while a walk over
  the registrations is under way. Those that clients see are **held**: the registry lists their
  places in the order in which they were made. A registration that was reclaimed or destroyed is no
  longer listed.

  A registration is **flagged** when it was deregistered; it hears of no further change and stays
  held until a sweep reclaims it. Its **attached** devices are those that it was offered and that
  have not left.

  The **history** records what happened, in order. It only grows.
-/

namespace PlugWatch

/-! ## Registrations -/

/-- One registration with what became of it. -/
structure Entry (β : Type) [Bus β] extends Registration β where
  /-- The handle its client knows it by. -/
  handle : Handle
  /-- Whether it was deregistered. Never unset. -/
  flagged : Bool := false
  /-- The devices it has, by ascending id. -/
  attached : List Device := []
  /-- How often its arrival callback was called. -/
  arrivals : Nat := 0
  /-- How often its removal callback was called. -/
  removals : Nat := 0

/-- Puts a device in front of the first one with a greater id. -/
def insertDevice (d : Device) : List Device → List Device
  | [] => [d]
  | e :: es => if d.id.val < e.id.val then d :: e :: es else e :: insertDevice d es

namespace Entry

variable {β : Type} [Bus β]

/-- Whether a client knows it by a handle. -/
def isNamed (e : Entry β) (h : Handle) : Bool :=
  e.handle == h

/-- Whether it hears of changes, as long as it is held. -/
def active (e : Entry β) : Bool :=
  !e.flagged

/-- The device it has under an id. -/
def recorded? (e : Entry β) (id : DeviceId) : Option Device :=
  e.attached.find? (·.id == id)

/-- Whether it has a device under an id. -/
def has (e : Entry β) (id : DeviceId) : Bool :=
  (e.recorded? id).isSome

/-- Records a device. -/
def attach (e : Entry β) (d : Device) : Entry β :=
  { e with attached := insertDevice d e.attached }

/-- Forgets the device under an id. -/
def detach (e : Entry β) (id : DeviceId) : Entry β :=
  { e with attached := e.attached.filter (·.id != id) }

/-- The devices it has, in the order in which it is told that they are gone. -/
def parting (e : Entry β) : List Device :=
  e.order.arrange e.attached

/-- Whether a callback is called for a change. -/
def calls (e : Entry β) (c : Change) : Bool :=
  e.filter.wants c && e.provided.has c

/-- One call more of the callback for a change. -/
def countCall (e : Entry β) : Change → Entry β
  | .arrived => { e with arrivals := e.arrivals + 1 }
  | .left => { e with removals := e.removals + 1 }

end Entry

/-! ## History -/

/-- Something that happened. Registrations are named by their place on the list. -/
inductive Happening where
  /-- A registration was put on the list. -/
  | enlisted (place : Nat)
  /-- Devices present are about to be offered to a new registration. -/
  | replayed (place : Nat) (devices : List Device)
  /-- A registration was flagged. -/
  | flagged (place : Nat)
  /-- A flagged registration was taken off the list. -/
  | reclaimed (place : Nat)
  /-- Registrations were taken off the list without being told. -/
  | destroyed (places : List Nat)
  /-- A callback was entered. -/
  | called (place : Nat) (change : Change) (device : Device)
  /-- A callback returned. -/
  | answered (place : Nat) (change : Change) (device : Device) (verdict : Verdict)
  /-- A device was put on the bus or taken off it by a command. -/
  | changed (device : Device) (change : Change)
  /-- A change was offered to the active registrations. -/
  | dispatched (device : Device) (change : Change)
  /-- A change was queued. -/
  | notified (device : Device) (change : Change)
  /-- A message was taken from the mailbox to be acted on. -/
  | taken (message : Message)
  /-- Messages were taken from the mailbox and dropped. -/
  | discarded (messages : List Message)
  | logged (entry : LogEntry)
  | printed (line : String)
  deriving DecidableEq, Repr

namespace Happening

/-- The entry, if something was logged. -/
def entry? : Happening → Option LogEntry
  | logged e => some e
  | _ => none

/-- The line, if something was printed. -/
def line? : Happening → Option String
  | printed l => some l
  | _ => none

end Happening

/-! ## State -/

/-- The state of a registry and of the bus below it. -/
structure Registry (β : Type) [Bus β] where
  bus : β
  /-- Every registration ever accepted, each at its place. -/
  entries : Array (Entry β) := #[]
  /-- The places of those that are held, in order. -/
  listed : Array Nat := #[]
  mailbox : Mailbox := {}
  /-- What happened so far, oldest first. -/
  history : Array Happening := #[]

namespace Registry

variable {β : Type} [Bus β]

/-- Adds to the history. -/
def record (r : Registry β) (h : Happening) : Registry β :=
  { r with history := r.history.push h }

/-- Writes to the log. -/
def log (r : Registry β) (level : LogLevel) (message : String) : Registry β :=
  r.record (.logged { level, source := .registry, message })

/-- Writes several entries to the log. -/
def logAll (r : Registry β) (entries : List LogEntry) : Registry β :=
  entries.foldl (fun r e => r.record (.logged e)) r

/-- Notes what a command did to the devices of the bus. -/
def recordChanges (r : Registry β) (changes : List (Device × Change)) : Registry β :=
  changes.foldl (fun r x => r.record (.changed x.1 x.2)) r

/-- Changes the registration at a place. -/
def update (r : Registry β) (i : Nat) (f : Entry β → Entry β) : Registry β :=
  { r with entries := r.entries.modify i f }

/-- Whether the registration at a place has a property. -/
def satisfies (r : Registry β) (p : Entry β → Bool) (i : Nat) : Bool :=
  r.entries[i]?.any p

/-- The places of the held registrations that have a property, in order. -/
def places (r : Registry β) (p : Entry β → Bool) : List Nat :=
  (r.listed.filter (r.satisfies p)).toList

/-- Takes the registrations that have a property off the list. -/
def unlist (r : Registry β) (p : Entry β → Bool) : Registry β :=
  { r with listed := r.listed.filter fun i => !r.satisfies p i }

/-- The registrations that clients see, in order. -/
def held (r : Registry β) : List (Entry β) :=
  r.listed.toList.filterMap (r.entries[·]?)

/-- The place of the first held registration with a handle. -/
def find? (r : Registry β) (h : Handle) : Option Nat :=
  r.listed.find? (r.satisfies (·.isNamed h))

/-- The handle of the next registration: handles count from one and wrap. -/
def nextHandle (r : Registry β) : Handle :=
  ⟨UInt32.ofNat (r.entries.size + 1)⟩

/-! ### Questions -/

/-- Whether a registration is held and not flagged. -/
def isRegistered (r : Registry β) (h : Handle) : Bool :=
  r.listed.any (r.satisfies fun e => e.active && e.isNamed h)

/-- The ids of the devices that a held registration has, ascending. -/
def attached? (r : Registry β) (h : Handle) : Option (List DeviceId) :=
  ((r.find? h).bind (r.entries[·]?)).map fun e => e.attached.map (·.id)

/-- Number of registrations held. -/
def count (r : Registry β) : Nat :=
  r.listed.size

/-! ### Changes -/

/-- Asks the event loop for a sweep. -/
def wake (r : Registry β) : Registry β :=
  match r.mailbox.wake with
  | (.ok (), m) => { r with mailbox := m }
  | (.error e, m) =>
    { r with mailbox := m }.log .warn s!"Error writing hotplug wakeup: {e.message}"

/-- Flags the registration at a place. -/
def flag (r : Registry β) (i : Nat) : Registry β :=
  (r.update i ({ · with flagged := true })).record (.flagged i)

/-- Flags a registration and asks for a sweep. Unknown handles are ignored, and so is everything
    while the bus reports no changes. -/
def deregister (r : Registry β) (h : Handle) : Registry β :=
  if Bus.hasHotplug r.bus then
    match r.find? h with
    | none => r.log .debug s!"Deregister of unknown hotplug handle {h.text}"
    | some i => ((r.flag i).log .info s!"Deregistered hotplug callback {h.text}").wake
  else r

/-- Flags a registration at the wish of its arrival callback. If it is flagged already, whoever
    flagged it has asked for the sweep. -/
def dismiss (r : Registry β) (i : Nat) (id : DeviceId) : Registry β :=
  match r.entries[i]? with
  | none => r
  | some e =>
    if e.flagged then r
    else
      ((r.flag i).log .info
        s!"Hotplug callback {e.handle.text} asked to be deregistered on device {id.text}").wake

/-- Destroys every registration without a call. Walks under way go on with those that are not
    flagged. -/
def deregisterAll (r : Registry β) : Nat × Registry β :=
  let n := r.count
  let r' := { r with listed := #[] }.record (.destroyed r.listed.toList)
  (n, if n = 0 then r' else r'.log .info s!"Destroying {n} hotplug registrations")

/-- Destroys every registration and drops what is queued. -/
def teardown (r : Registry β) : Registry β :=
  let r' := r.deregisterAll.2
  { r' with mailbox := r'.mailbox.drain }.record (.discarded r'.mailbox.messages)

/-- The end of the registry: nobody will read the mailbox any more. -/
def close (r : Registry β) : Registry β :=
  let r' := r.teardown
  { r' with mailbox := { r'.mailbox with closed := true } }

/-- Queues a device change. -/
def notify (r : Registry β) (d : Device) (c : Change) : Except Failure Unit × Registry β :=
  match r.mailbox.post d c with
  | (.ok (), m) => (.ok (), { r with mailbox := m }.record (.notified d c))
  | (.error e, m) => (.error e, { r with mailbox := m })

/-- Lists the devices of the bus. -/
def enumerate (r : Registry β) : Except Failure (List Device) × Registry β :=
  let e := Bus.enumerate r.bus
  (e.devices, { r with bus := e.bus }.logAll e.log)

/-- Carries out an action. -/
def perform (r : Registry β) : (a : Action β) → a.Reply × Registry β
  | .deregister h => ((), r.deregister h)
  | .isRegistered h => (r.isRegistered h, r)
  | .attached h => (r.attached? h, r)
  | .count => (r.count, r)
  | .deregisterAll => r.deregisterAll
  | .teardown => ((), r.teardown)
  | .notify d c => r.notify d c
  | .enumerate => r.enumerate
  | .bus c =>
    let (answer, bus) := Bus.perform c r.bus
    (answer, { r with bus }.recordChanges (Bus.changes c r.bus))
  | .log e => ((), r.record (.logged e))
  | .print line => ((), r.record (.printed line))

end Registry

end PlugWatch
