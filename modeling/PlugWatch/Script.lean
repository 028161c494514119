import PlugWatch.Bus
import PlugWatch.Mailbox

/-! # Scripts

  What a callback does when it is called. A callback may act on the registry that called it, so a
  **script** is a tree: an action, and for each reply the script that goes on. The tree is well
  founded, hence every call comes to an end: with a verdict, or in a panic.

  Actions answer at once. Registering is set apart, because it may call the callbacks of the new
  registration before it answers. Dispatching and sweeping are no actions: callbacks must not do
  them.
-/

namespace PlugWatch

/-! ## Actions -/

/-- What can be asked of a registry without calling anyone back. -/
inductive Action (β : Type) [Bus β] where
  /-- Flag a registration; a later sweep reclaims it. -/
  | deregister (handle : Handle)
  /-- Is it held and not flagged? -/
  | isRegistered (handle : Handle)
  /-- The ids of the devices it has, if it is held. -/
  | attached (handle : Handle)
  /-- Number of registrations held. -/
  | count
  /-- Destroy every registration. -/
  | deregisterAll
  /-- Destroy every registration and empty the mailbox. -/
  | teardown
  /-- Queue a device change. -/
  | notify (device : Device) (change : Change)
  /-- List the devices of the bus. -/
  | enumerate
  /-- Do something to the bus. -/
  | bus (command : Bus.Command β)
  /-- Write an entry to the log. -/
  | log (entry : LogEntry)
  /-- Print a line. -/
  | print (line : String)

/-- What an action answers. -/
def Action.Reply {β : Type} [Bus β] : Action β → Type
  | .deregister _ => Unit
  | .isRegistered _ => Bool
  | .attached _ => Option (List DeviceId)
  | .count => Nat
  | .deregisterAll => Nat
  | .teardown => Unit
  | .notify _ _ => Except Failure Unit
  | .enumerate => Except Failure (List Device)
  | .bus c => Bus.Answer c
  | .log _ => Unit
  | .print _ => Unit

/-! ## Scripts -/

/-- What an arrival callback asks the registry to do with its registration. -/
inductive Verdict where
  /-- Keep it; the device counts as attached. -/
  | keep
  /-- Drop it; the device does not count as attached. -/
  | deregister
  deriving DecidableEq, Repr

/-- What a callback does. The callbacks of a registration are functions of the number of the call,
    counted from zero, and of the device reported. -/
inductive Script (β : Type) [Bus β] where
  /-- Return. -/
  | finish (verdict : Verdict)
  /-- Give up; everything that led here is abandoned. -/
  | panic
  /-- Ask the registry something and go on with its reply. -/
  | act (action : Action β) (next : action.Reply → Script β)
  /-- Register a filter with callbacks and go on with the handle or the refusal. -/
  | register (filter : Filter) (provided : ChangeMask)
      (onArrived onLeft : Nat → Device → Script β) (next : Except Failure Handle → Script β)
      (order : Device.Order := .asListed)

/-- A filter with the callbacks that are to be told. -/
structure Registration (β : Type) [Bus β] where
  filter : Filter
  /-- The changes for which a callback is there. -/
  provided : ChangeMask
  /-- Called with a device that arrived. -/
  onArrived : Nat → Device → Script β
  /-- Called with a device that left, as it was recorded at its arrival. -/
  onLeft : Nat → Device → Script β
  /-- The order in which it is told of the devices that it still has when it is reclaimed. This is
      no wish of the client: a registration keeps its devices in no order, so it may be any. -/
  order : Device.Order := .asListed

namespace Registration

variable {β : Type} [Bus β]

/-- Every change asked for needs its callback; the arrival callback is looked for first. -/
def checkCallbacks (r : Registration β) : Except ParameterFault Unit :=
  if r.filter.wants .arrived && !r.provided.has .arrived then
    .error (.callbackMissing .arrived)
  else if r.filter.wants .left && !r.provided.has .left then
    .error (.callbackMissing .left)
  else .ok ()

/-- Which callbacks are there, for developers. -/
def debugCallbacks (provided : ChangeMask) : String :=
  s!"Callbacks \x7b on_arrived: {provided.arrived}, on_left: {provided.left} \x7d"

/-- The filter is valid, and no callback that it needs is missing. -/
def check (r : Registration β) : Except ParameterFault Unit := do
  r.filter.validate.mapError .filter
  r.checkCallbacks

end Registration

end PlugWatch
