import PlugWatch.Change
import PlugWatch.Device
import PlugWatch.Failure
import PlugWatch.Log

/-! # Buses

  What the registry asks of the layer that knows the devices: whether changes are reported at all,
  and the list of the devices present. Everything else that can be done to a bus is its own; it is
  named by the **commands** of the bus, each with the type of its answer.
-/

namespace PlugWatch

/-- The outcome of asking a bus for its devices. -/
structure Enumeration (β : Type) where
  /-- The devices present, in bus order. -/
  devices : Except Failure (List Device)
  /-- The bus afterwards. -/
  bus : β
  /-- What the bus had to say. -/
  log : List LogEntry := []

/-- A layer that knows the devices. -/
class Bus (β : Type) where
  /-- What can be done to the bus. -/
  Command : Type
  /-- What is answered. -/
  Answer : Command → Type
  /-- Carries out a command. -/
  perform : (c : Command) → β → Answer c × β
  /-- The devices that a command puts on the bus or takes off it, in order, if the bus tells. -/
  changes : Command → β → List (Device × Change) := fun _ _ => []
  /-- Whether the bus reports changes. -/
  hasHotplug : β → Bool
  /-- Lists the devices present. -/
  enumerate : β → Enumeration β

end PlugWatch
