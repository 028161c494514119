import PlugWatch.Registry.Delivery
import PlugWatch.Watch

/-! # Registering watches

  A watch is registered with two callbacks that log and print the line of the device. They ask
  nothing of the registry.
-/

namespace PlugWatch

namespace Watch

variable {β : Type} [Bus β]

/-- What a watch does with a device: an entry in the log, then a line. -/
def tell (w : Watch) (word sign : String) (d : Device) : Script β :=
  let entry : LogEntry :=
    { level := .info, source := .watch, message := s!"{word}: {d.line}", watch := some w.name }
  .act (.log entry) fun _ => .act (.print s!"[{w.name}] {sign} {d.line}") fun _ => .finish .keep

/-- The registration of a watch with this filter. -/
def registration (w : Watch) (f : Filter) : Registration β where
  filter := f
  provided := .both
  onArrived := fun _ d => w.tell "arrived" "+" d
  onLeft := fun _ d => w.tell "left" "-" d

/-- The log entry of a watch that was registered. -/
def startedEntry (w : Watch) (f : Filter) (h : Handle) : LogEntry where
  level := .info
  source := .watch
  message := s!"Watching '{w.name}' ({f.text}) as {h.text}"

/-- Why a watch was not registered. -/
inductive RegisterError where
  | filter (watch : Watch) (why : FilterError)
  | refused (watch : Watch) (why : Failure)
  deriving DecidableEq, Repr

/-- What is reported when a watch was not registered. -/
def RegisterError.report : RegisterError → Report
  | .filter w why => why.report w
  | .refused w why =>
    { contexts := [s!"Failed to register watch '{w.name}'"], cause := .failure why }

/-! ## From outside -/

/-- Registers a watch. -/
def register (w : Watch) : Walk β (Except RegisterError Handle) :=
  match w.toFilter with
  | .error why => return .error (.filter w why)
  | .ok f => do
    match ← Registry.register (w.registration f) with
    | .error why => return .error (.refused w why)
    | .ok h =>
      modify (·.record (.logged (w.startedEntry f h)))
      return .ok h

/-- Registers watches in turn, up to the first that is refused. Those before it stay. -/
def registerAll : List Watch → Walk β (Except RegisterError (List Handle))
  | [] => return .ok []
  | w :: ws => do
    match ← w.register with
    | .error why => return .error why
    | .ok h => return (← registerAll ws).map (h :: ·)

/-! ## From inside a callback -/

/-- A script that registers a watch and goes on with the outcome. -/
def registerThen (w : Watch) (next : Except RegisterError Handle → Script β) : Script β :=
  match w.toFilter with
  | .error why => next (.error (.filter w why))
  | .ok f =>
    let g : Registration β := w.registration f
    let goOn : Except Failure Handle → Script β
      | .error why => next (.error (.refused w why))
      | .ok h => .act (.log (w.startedEntry f h)) fun _ => next (.ok h)
    .register g.filter g.provided g.onArrived g.onLeft goOn g.order

/-- A script that registers watches in turn and goes on with the outcome. -/
def registerAllThen :
    List Watch → (Except RegisterError (List Handle) → Script β) → Script β
  | [], next => next (.ok [])
  | w :: ws, next => w.registerThen fun
    | .error why => next (.error why)
    | .ok h => registerAllThen ws fun r => next (r.map (h :: ·))

end Watch

end PlugWatch
