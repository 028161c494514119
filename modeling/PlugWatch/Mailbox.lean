import PlugWatch.Change
import PlugWatch.Device
import PlugWatch.Failure

/-! # The mailbox

  The queue between those who notice something and the event loop that acts on it. It carries device
  changes and **wakeups**; a wakeup asks for a sweep and says nothing else, so at most one of them
  waits at a time. Its view is the list of messages, oldest first.
-/

namespace PlugWatch

/-- What is queued for the event loop. -/
inductive Message where
  /-- A request to sweep. -/
  | wakeup
  /-- A change of the bus. -/
  | change (device : Device) (change : Change)
  deriving DecidableEq, Repr

/-- The queue, with a mark for a wakeup that waits in it. -/
structure Mailbox where
  /-- Messages not yet taken, oldest first. -/
  messages : List Message := []
  /-- Whether a wakeup waits. -/
  awaited : Bool := false
  /-- Whether nobody will read any more. -/
  closed : Bool := false
  deriving DecidableEq, Repr

namespace Mailbox

/-- Number of messages that wait. -/
def size (m : Mailbox) : Nat :=
  m.messages.length

/-- Queues a wakeup unless one waits already. A closed mailbox takes none. -/
def wake (m : Mailbox) : Except Failure Unit × Mailbox :=
  if m.awaited then (.ok (), m)
  else if m.closed then (.error (.channelWriteFailed "sending into a closed channel"), m)
  else (.ok (), { m with messages := m.messages ++ [.wakeup], awaited := true })

/-- Queues a device change. A closed mailbox takes none. -/
def post (m : Mailbox) (d : Device) (c : Change) : Except Failure Unit × Mailbox :=
  if m.closed then (.error (.channelWriteFailed "sending into a closed channel"), m)
  else (.ok (), { m with messages := m.messages ++ [.change d c] })

/-- Takes the oldest message; taking a wakeup allows the next one to be queued. -/
def take? (m : Mailbox) : Option (Message × Mailbox) :=
  match m.messages with
  | [] => none
  | .wakeup :: rest => some (.wakeup, { m with messages := rest, awaited := false })
  | .change d c :: rest => some (.change d c, { m with messages := rest })

/-- Takes and drops every message. -/
def drain (m : Mailbox) : Mailbox :=
  { m with messages := [], awaited := m.awaited && !m.messages.contains .wakeup }

end Mailbox

end PlugWatch
