import PlugWatch.Toml.Value

/-! # Building tables

  How keys and headers put values into tables. A key is a path: all but its last part name tables,
  which come into being on the way. **Dotted keys** may pass through tables that were only implied,
  and the table in which they end must itself come from dotted keys; **headers** may pass through
  every table that has no braces, and through the last table of an array of tables. Nothing is
  defined twice.
-/

namespace PlugWatch.Toml

/-- The path of a key: the names of the tables on the way, and the name at the end. -/
structure Key where
  path : List String := []
  name : String
  deriving DecidableEq, Repr

namespace Table

/-! ## Entries -/

/-- Adds an entry to a table in which nothing stands under its name. -/
def define (name : String) (v : Value) (t : Table) : Option Table :=
  match t.get? name with
  | none => some (t.put name v)
  | some _ => none

/-- Adds an entry under a dotted key. `inside` says whether the table at hand was come to by such a
    key, and whether it comes from dotted keys alone. -/
def defineAt (v : Value) (name : String) : (path : List String) → Table → Option Table
  | [], t => t.define name v
  | p :: ps, t =>
    match t.get? p with
    | none => (defineAt v name ps []).map fun sub => t.put p (.table .dotted sub)
    | some (.table .dotted sub) =>
      (defineAt v name ps sub).map fun sub => t.put p (.table .dotted sub)
    | some (.table .implied sub) =>
      if ps = [] then none
      else (defineAt v name ps sub).map fun sub => t.put p (.table .implied sub)
    | some (.tables ts) =>
      if ps = [] then none
      else
        match ts.getLast? with
        | none => none
        | some last =>
          (defineAt v name ps last).map fun last => t.put p (.tables (ts.dropLast ++ [last]))
    | some _ => none

/-- Adds entries in turn. -/
def defineAll (t : Table) (entries : List (Key × Value)) : Option Table :=
  entries.foldlM (fun t (k, v) => t.defineAt v k.name k.path) t

/-! ## Headers -/

/-- Changes the table at the end of a path of headers. -/
def change (f : Table → Option Table) : (path : List String) → Table → Option Table
  | [], t => f t
  | p :: ps, t =>
    match t.get? p with
    | none => (change f ps []).map fun sub => t.put p (.table .implied sub)
    | some (.table .braces _) => none
    | some (.table origin sub) => (change f ps sub).map fun sub => t.put p (.table origin sub)
    | some (.tables ts) =>
      match ts.getLast? with
      | none => none
      | some last => (change f ps last).map fun last => t.put p (.tables (ts.dropLast ++ [last]))
    | some _ => none

/-- Opens a table under a name and fills it. A table that was implied by headers may be opened
    once; its entries stay. -/
def openTable (name : String) (entries : List (Key × Value)) (t : Table) : Option Table :=
  match t.get? name with
  | none => (defineAll [] entries).map fun sub => t.put name (.table .header sub)
  | some (.table .implied sub) =>
    (defineAll sub entries).map fun sub => t.put name (.table .header sub)
  | some _ => none

/-- Adds a table to the array of tables under a name and fills it. -/
def openElement (name : String) (entries : List (Key × Value)) (t : Table) : Option Table :=
  match t.get? name with
  | none => (defineAll [] entries).map fun sub => t.put name (.tables [sub])
  | some (.tables ts) => (defineAll [] entries).map fun sub => t.put name (.tables (ts ++ [sub]))
  | some _ => none

end Table

end PlugWatch.Toml
