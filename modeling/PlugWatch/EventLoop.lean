import PlugWatch.Bus.Usb
import PlugWatch.Registry.Delivery

/-! # The event loop

  Connects the USB bus to a registry. A **listener** queues what the bus reports; the loop lets the
  bus report, then has the registry act on what was queued, pass by pass, until it is told to stop.

  What happens in a pass is up to the surroundings: a **pass** is a computation in a monad that can
  walk the registry, and says how the bus fared and whether the loop is to stop.
-/

namespace PlugWatch

namespace EventLoop

/-! ## Listening -/

/-- Writes to the log. -/
def log (source : LogSource) (level : LogLevel) (message : String) : Walk UsbBus Unit :=
  modify (·.record (.logged { level, source, message }))

/-- Begins to listen to the bus. -/
def listen : Walk UsbBus (Except UsbError Unit) := do
  match ← modifyGet fun r => let (a, bus) := r.bus.listen; (a, { r with bus }) with
  | .error e => return .error e
  | .ok () =>
    log .listener .debug "libusb hot-plug callbacks registered"
    return .ok ()

/-- Stops listening. -/
def unlisten : Walk UsbBus Unit :=
  modify fun r => { r with bus := r.bus.unlisten }

/-- What a listener writes when it is told of a change. -/
def noticed : Change → String
  | .arrived => "libusb: device arrived"
  | .left => "libusb: device left"

/-- A listener is told that the peripheral in a slot arrived or left, and queues that. The change is
    dropped if the descriptor cannot be read. -/
def forward (slot : Nat) (c : Change) : Walk UsbBus Unit := do
  log .listener .debug (noticed c)
  let place := ((← get).bus.slots slot).place
  match ← modifyGet fun r => let (a, bus) := r.bus.sight slot; (a, { r with bus }) with
  | .error e =>
    log .listener .warn
      s!"Dropping hot-plug event for {place}: failed to read descriptor: {e.message}"
  | .ok d =>
    match ← modifyGet (·.notify d c) with
    | .error e => log .listener .error s!"Failed to queue hot-plug event for {place}: {e.message}"
    | .ok () => return ()

/-- Tells so many listeners in turn. -/
def tell (slot : Nat) (c : Change) : (listeners : Nat) → Walk UsbBus Unit
  | 0 => return ()
  | n + 1 => do
    forward slot c
    tell slot c n

/-- The bus reports a change to everyone who listens. -/
def report (slot : Nat) (c : Change) : Walk UsbBus Unit := do
  tell slot c (← get).bus.listeners

/-! ## The loop -/

/-- Gets ready: begins to listen, if the bus reports changes. Tells whether it does. -/
def start : Walk UsbBus (Except UsbError Bool) := do
  if (← get).bus.hotplug then
    return (← listen).map fun _ => true
  else
    log .eventLoop .warn "libusb reports no hot-plug support on this platform"
    return .ok false

/-- How a pass went. -/
structure Pass (ρ : Type) where
  result : ρ
  /-- Why the bus could not report. -/
  error : Option UsbError := none
  /-- Whether the loop was told to stop meanwhile. -/
  stop : Bool := false

/-- Acts on what was queued during a pass. -/
def settle (error : Option UsbError) : Walk UsbBus Unit := do
  match error with
  | none => pure ()
  | some .interrupted => log .eventLoop .debug "USB event handling interrupted"
  | some e => log .eventLoop .warn s!"Error handling USB events: {e.message}"
  let n ← Registry.handlePending
  if n > 0 then
    log .eventLoop .debug s!"Event pass processed {n} hotplug messages"

variable {m : Type → Type} [Monad m] [MonadLiftT (Walk UsbBus) m] {ρ : Type}

/-- Makes passes until one of them is told to stop. After the last the loop is told to stop. -/
def passes : List (m (Pass ρ)) → m (List ρ)
  | [] => return []
  | p :: ps => do
    let pass ← p
    settle pass.error
    if pass.stop then return [pass.result]
    return pass.result :: (← passes ps)

/-- Ends the loop: stops listening, and acts on what is still queued. -/
def finish (listening : Bool) : Walk UsbBus Unit := do
  log .eventLoop .info "Hotplug event thread shutting down"
  if listening then unlisten
  discard Registry.handlePending
  log .eventLoop .info "Hotplug event thread stopped"

/-- Runs the loop. -/
def run (listening : Bool) (ps : List (m (Pass ρ))) : m (List ρ) := do
  log .eventLoop .info "Hotplug event thread started"
  let results ← passes ps
  finish listening
  return results

/-! ## The thread -/

/-- The name of the thread on which the loop runs. -/
def threadName : String :=
  "hotplug-events"

/-- What is reported when the loop cannot start on its thread. -/
def startReport (e : UsbError) : Report where
  contexts := [s!"Thread '{threadName}' failed to start"]
  cause := .usb e

end EventLoop

end PlugWatch
