import PlugWatch.Config
import PlugWatch.Toml.Library

/-! # Configurations as documents

  A configuration is written as a TOML document: the table `monitor` and an array of tables `watch`.
  Reading is more generous than writing. Entries that are not known do not count; a table may be
  given as an array of the values of its fields in order, in which those at the end that have
  defaults may be missing; a change may be given as a table whose only entry is named for it and
  empty.

  TOML itself is left to a library, which is the last argument of what writes and reads.
-/

namespace PlugWatch

open Toml (Value Table)

/-! ## Reading -/

/-- The items of an array, or the tables of an array of tables. -/
def Toml.Value.items? : Value → Option (List Value)
  | .array vs => some vs
  | .tables ts => some (ts.map (.table .header))
  | _ => none

/-- Whether a value is a table or an array with nothing in it. -/
def Toml.Value.isVoid : Value → Bool
  | .table _ [] => true
  | .array [] => true
  | .tables [] => true
  | _ => false

namespace Config.Read

/-- A text. -/
def text : Value → Option String
  | .string s => some s
  | _ => none

/-- A truth value. -/
def flag : Value → Option Bool
  | .boolean b => some b
  | _ => none

/-- A number of milliseconds. -/
def millis : Value → Option UInt64
  | .integer n => if 0 ≤ n then some (UInt64.ofNat n.toNat) else none
  | _ => none

/-- The change of a name. -/
def changeNamed : String → Option Change
  | "arrived" => some .arrived
  | "left" => some .left
  | _ => none

/-- A change: its name, or a table with a void entry of that name. -/
def change : Value → Option Change
  | .string s => changeNamed s
  | .table _ [(name, v)] => if v.isVoid then changeNamed name else none
  | _ => none

/-- A list of changes. -/
def changes (v : Value) : Option (List Change) := do
  (← v.items?).mapM change

/-- The fields of a table, found by name or by place: `names` are the names in order. -/
def fields (names : List String) : Value → Option (List (Option Value))
  | .table _ t => some (names.map fun k => t.lookup k)
  | v => do
    let vs ← v.items?
    return (List.range names.length).map (vs[·]?)

/-- A field that must be there. -/
def required {α : Type} (read : Value → Option α) (v : Option Value) : Option α :=
  v.bind read

/-- A field that has a default. -/
def optional {α : Type} (read : Value → Option α) (default : α) : Option Value → Option α
  | none => some default
  | some v => read v

/-- The settings. -/
def settings (v : Value) : Option Settings := do
  match ← fields ["log_level", "poll_interval_ms"] v with
  | [level, poll] =>
    return { logLevel := ← required text level, pollMillis := ← optional millis 100 poll }
  | _ => none

/-- A watch. -/
def watch (v : Value) : Option Watch := do
  match ← fields ["name", "filter", "events", "enumerate"] v with
  | [name, filter, events, enumerate] =>
    return { name := ← required text name
             filter := ← optional text "*:*" filter
             changes := ← optional changes [.arrived, .left] events
             enumerate := ← optional flag false enumerate }
  | _ => none

/-- A list of watches. -/
def watches (v : Value) : Option (List Watch) := do
  (← v.items?).mapM watch

end Config.Read

namespace Config

/-- The configuration in a table. -/
def ofTable? (t : Table) : Option Config :=
  return { settings := ← Read.required Read.settings (t.get? "monitor")
           watches := ← Read.optional Read.watches [] (t.get? "watch") }

/-- The configuration in a text. -/
def parse? (s : String) (toml : Toml.Library := .checked) : Option Config :=
  (toml.read s).bind ofTable?

/-! ## Writing -/

/-- An entry under a key of one part. -/
def entry (name : String) (v : Value) : Toml.Key × Value :=
  ({ name }, v)

/-- The name of a change. -/
def changeName : Change → String
  | .arrived => "arrived"
  | .left => "left"

/-- The section of the settings. -/
def settingsSection (s : Settings) : Toml.Section where
  header := .table { name := "monitor" }
  entries := [entry "log_level" (.string s.logLevel),
    entry "poll_interval_ms" (.integer s.pollMillis.toNat)]

/-- The section of a watch. -/
def watchSection (w : Watch) : Toml.Section where
  header := .element { name := "watch" }
  entries := [entry "name" (.string w.name), entry "filter" (.string w.filter),
    entry "events" (.array (w.changes.map fun c => .string (changeName c))),
    entry "enumerate" (.boolean w.enumerate)]

/-- The entries above the settings. An empty list of watches stands there. -/
def topEntries (c : Config) : List (Toml.Key × Value) :=
  if c.watches = [] then [entry "watch" (.array [])] else []

/-- The document of a configuration. -/
def document (c : Config) : Toml.Document where
  entries := c.topEntries
  sections := settingsSection c.settings :: c.watches.map watchSection

/-- The text of a configuration. -/
def write (c : Config) (toml : Toml.Library := .checked) : Except Toml.WriteError String :=
  toml.write c.document

end Config

end PlugWatch
