import PlugWatch.Registry

/-! # Delivery

  How changes reach callbacks. A **walk** is a computation on the registry that may be cut short by
  a panic in a callback; the state reached until then stays.

  - *Offering*: one change to one registration. An arrival is taken if the registration is not
    flagged, does not have the device yet and accepts it; a removal, if it is not flagged and has
    the device.
  - *Registering*, with the replay of the devices present to the new registration alone.
  - *Dispatching*: one change to every registration that is active at the start.
  - *Sweeping*: the flagged registrations are reclaimed and told of the devices they still have.
-/

namespace PlugWatch

/-- A callback gave up. -/
inductive Panic where
  | unwound
  deriving DecidableEq, Repr

/-- A computation on the registry that a panic may cut short. -/
abbrev Walk (β : Type) [Bus β] :=
  EStateM Panic (Registry β)

namespace Registry

variable {β : Type} [Bus β]

/-! ## Offering -/

/-- What became of an arrival offered to a registration. -/
inductive Offer where
  /-- It was not for this registration. -/
  | ignored
  /-- The registration has the device now. -/
  | attached
  /-- The registration asked to be dropped. -/
  | dropped
  deriving DecidableEq, Repr

/-- Calls a callback of a registration and records the call. -/
def call (i : Nat) (c : Change) (d : Device) (body : Walk β Verdict) : Walk β Verdict := do
  modify fun r => (r.update i (·.countCall c)).record (.called i c d)
  let verdict ← body
  modify (·.record (.answered i c d verdict))
  return verdict

/-- Offers an arrival to the registration at a place. -/
def offerArrival (i : Nat) (onArrived : Nat → Device → Walk β Verdict) (d : Device) :
    Walk β Offer := do
  match (← get).entries[i]? with
  | none => return .ignored
  | some e =>
    if e.flagged || e.has d.id || !e.filter.accepts d.descriptor then
      return .ignored
    let verdict ←
      if e.calls .arrived then call i .arrived d (onArrived e.arrivals d) else pure .keep
    match verdict with
    | .keep =>
      modify (·.update i (·.attach d))
      return .attached
    | .deregister =>
      modify (·.dismiss i d.id)
      return .dropped

/-- Offers a removal to the registration at a place; tells whether it had the device. -/
def offerLeft (i : Nat) (onLeft : Nat → Device → Walk β Verdict) (id : DeviceId) :
    Walk β Bool := do
  match (← get).entries[i]? with
  | none => return false
  | some e =>
    if e.flagged then
      return false
    match e.recorded? id with
    | none => return false
    | some d =>
      modify (·.update i (·.detach id))
      if e.calls .left then
        discard <| call i .left d (onLeft e.removals d)
      return true

/-! ## Registering -/

/-- Offers devices in turn until the registration asks to be dropped. -/
def replay (i : Nat) (onArrived : Nat → Device → Walk β Verdict) : List Device → Walk β Unit
  | [] => return ()
  | d :: ds => do
    match ← offerArrival i onArrived d with
    | .dropped => return ()
    | _ => replay i onArrived ds

/-- Puts a registration at the end of the list. -/
def enlist (r : Registry β) (g : Registration β) : Registry β :=
  let i := r.entries.size
  let h := r.nextHandle
  let entries := r.entries.push { toRegistration := g, handle := h }
  ({ r with entries, listed := r.listed.push i }.record (.enlisted i)).log .info
    s!"Registered hotplug callback {h.text} for {g.filter.text}"

/-- Takes the registration at a place off again, because the devices present are not known. -/
def rollBack (r : Registry β) (i : Nat) (h : Handle) (why : Failure) : Registry β :=
  ((r.log .warn s!"Enumeration failed while registering {h.text}, rolling back: {why.message}").flag
    i).unlist (·.isNamed h)

/-- Registers a filter with callbacks. With `onArrived` the devices present are replayed, if the
    filter asks for them; it stands for the arrival callback of `g`. -/
def registerWith (g : Registration β) (onArrived : Nat → Device → Walk β Verdict) :
    Walk β (Except Failure Handle) := do
  let r ← get
  if !Bus.hasHotplug r.bus then
    return .error .unsupported
  match g.check with
  | .error fault => return .error (.invalidParameter fault)
  | .ok () =>
    let i := r.entries.size
    let h := r.nextHandle
    modify (·.enlist g)
    if !g.filter.enumerate then
      return .ok h
    match ← modifyGet (·.enumerate) with
    | .error why =>
      modify (·.rollBack i h why)
      return .error why
    | .ok devices =>
      modify fun r =>
        (r.record (.replayed i devices)).log .debug
          s!"Replaying {devices.length} devices to {h.text}"
      replay i onArrived devices
      return .ok h

/-! ## Running scripts -/

/-- Runs a script. -/
def run : Script β → Walk β Verdict
  | .finish verdict => return verdict
  | .panic => throw .unwound
  | .act action next => do
    let reply ← modifyGet (·.perform action)
    run (next reply)
  | .register filter provided onArrived onLeft next order => do
    let g : Registration β := { filter, provided, onArrived, onLeft, order }
    let reply ← registerWith g fun n d => run (onArrived n d)
    run (next reply)

/-- Registers a filter with callbacks. -/
def register (g : Registration β) : Walk β (Except Failure Handle) :=
  registerWith g fun n d => run (g.onArrived n d)

/-! ## Dispatching -/

/-- Offers a change to the registration at a place; tells whether its devices changed or it asked
    to be dropped. -/
def offer (d : Device) (c : Change) (i : Nat) : Walk β Bool := do
  match (← get).entries[i]? with
  | none => return false
  | some e =>
    match c with
    | .arrived => return (← offerArrival i (fun n d => run (e.onArrived n d)) d) != .ignored
    | .left => offerLeft i (fun n d => run (e.onLeft n d)) d.id

/-- Offers a change to registrations in turn; counts those that took it. -/
def offerAll (d : Device) (c : Change) : List Nat → Walk β Nat
  | [] => return 0
  | i :: is => do
    let taken ← offer d c i
    let n ← offerAll d c is
    return taken.toNat + n

/-- Offers a change to every registration that is active now; counts those that took it. -/
def dispatch (d : Device) (c : Change) : Walk β Nat := do
  modify (·.record (.dispatched d c))
  let snapshot := (← get).places (·.active)
  let n ← offerAll d c snapshot
  modify (·.log .debug
    s!"Dispatched {c.word} for device {d.id.text} to {n} of {snapshot.length} registrations")
  return n

/-! ## Sweeping -/

/-- Tells a reclaimed registration that devices are gone. -/
def release (i : Nat) (e : Entry β) : List Device → Walk β Unit
  | [] => return ()
  | d :: ds => do
    let n := ((← get).entries[i]?.map (·.removals)).getD 0
    discard <| call i .left d (run (e.onLeft n d))
    release i e ds

/-- Takes the devices from a reclaimed registration and tells it, in its order, if it asks for
    removals. -/
def reclaim (i : Nat) : Walk β Unit := do
  match (← get).entries[i]? with
  | none => return ()
  | some e =>
    modify (·.update i ({ · with attached := [] }))
    if e.calls .left then
      release i e e.parting
    modify (·.log .debug
      s!"Swept hotplug callback {e.handle.text} ({e.attached.length} attached devices released)")

/-- Reclaims registrations in turn. -/
def reclaimAll : List Nat → Walk β Unit
  | [] => return ()
  | i :: is => do
    reclaim i
    reclaimAll is

/-- Reclaims every flagged registration that is held; counts them. -/
def sweep : Walk β Nat := do
  let swept := (← get).places (·.flagged)
  modify fun r => swept.foldl (fun r i => r.record (.reclaimed i)) (r.unlist (·.flagged))
  reclaimAll swept
  return swept.length

/-! ## The mailbox -/

/-- Takes the oldest message. -/
def take? : Walk β (Option Message) :=
  modifyGet fun r =>
    match r.mailbox.take? with
    | none => (none, r)
    | some (m, mailbox) => (some m, { r with mailbox }.record (.taken m))

/-- Acts on a message. -/
def process : Message → Walk β Unit
  | .wakeup => return ()
  | .change d c => discard <| dispatch d c

/-- Acts on at most so many messages; counts them. -/
def processUpTo : Nat → Walk β Nat
  | 0 => return 0
  | n + 1 => do
    match ← take? with
    | none => return 0
    | some m =>
      process m
      return (← processUpTo n) + 1

/-- Acts on as many messages as wait now, then sweeps; counts the messages. -/
def handlePending : Walk β Nat := do
  let n ← processUpTo (← get).mailbox.size
  discard sweep
  return n

/-- Waits for a message and acts on it, then on those that wait; counts the messages. Nothing if
    there is none to wait for. -/
def handleEvents : Walk β (Option Nat) := do
  match ← take? with
  | none => return none
  | some m =>
    process m
    return some (1 + (← handlePending))

end Registry

end PlugWatch
