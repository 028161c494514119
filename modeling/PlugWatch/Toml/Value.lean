/-! # Values

  What a TOML document says: scalars, arrays, tables, and arrays of tables. A table remembers how it
  came about, because that decides what may still be added to it. Numbers with a fraction, and
  dates, are kept as they are written.
-/

namespace PlugWatch.Toml

/-- How a table came about. -/
inductive Origin where
  /-- Written between braces. Nothing can be added. -/
  | braces
  /-- Opened by a header of its own. -/
  | header
  /-- Implied by the header of a table inside it. -/
  | implied
  /-- Implied by a dotted key. -/
  | dotted
  deriving DecidableEq, Repr

/-- Integers reach from minus this number up to, but not including, it. -/
def integerBound : Nat :=
  0x8000000000000000

/-- A value. -/
inductive Value where
  | string (text : String)
  | integer (n : Int)
  | float (text : String)
  | boolean (b : Bool)
  | dateTime (text : String)
  | array (items : List Value)
  | table (origin : Origin) (entries : List (String × Value))
  /-- An array of tables, each opened by a header. -/
  | tables (items : List (List (String × Value)))
  deriving Repr

/-- The entries of a table, in the order in which they were made. -/
abbrev Table := List (String × Value)

namespace Table

/-- The value under a key. -/
def get? (t : Table) (key : String) : Option Value :=
  t.lookup key

/-- Puts a value under a key: in the place of the old one, or at the end. -/
def put (key : String) (v : Value) : Table → Table
  | [] => [(key, v)]
  | (k, w) :: t => if k = key then (k, v) :: t else (k, w) :: put key v t

end Table

end PlugWatch.Toml
