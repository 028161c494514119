import PlugWatch.Toml.Writer

/-! # Libraries

  TOML is written and read by a **library**, and the program is made for any. It hands over a
  document and gets a text, and for a text it gets the table that is described. A document with an
  integer out of range is refused.

  The writer and the reader of this project make up the `standard` library. The `checked` one is
  the same, except that it keeps an account of the quotes in a text: those that stand side by side
  are counted in a byte, and it stops the program rather than let the byte run over.
-/

namespace PlugWatch.Toml

/-- Why no text comes of a document. -/
inductive WriteError where
  /-- The document is refused. -/
  | unwritable
  /-- The library stops the program. -/
  | aborted
  deriving DecidableEq, Repr

/-- What writes and reads TOML. -/
structure Library where
  write : Document → Except WriteError String
  read : String → Option Table

/-! ## Scalars of a document -/

mutual

/-- The values in a value that have no values within them. -/
def Value.scalars : Value → List Value
  | .array items => scalarsOf items
  | .table _ entries => scalarsOfTable entries
  | .tables items => scalarsOfTables items
  | v => [v]

/-- The scalars in a list of values. -/
def scalarsOf : List Value → List Value
  | [] => []
  | v :: vs => v.scalars ++ scalarsOf vs

/-- The scalars in the entries of a table. -/
def scalarsOfTable : List (String × Value) → List Value
  | [] => []
  | (_, v) :: es => v.scalars ++ scalarsOfTable es

/-- The scalars in a list of tables. -/
def scalarsOfTables : List (List (String × Value)) → List Value
  | [] => []
  | t :: ts => scalarsOfTable t ++ scalarsOfTables ts

end

/-- The scalars in a document, section by section. -/
def Document.scalars (d : Document) : List Value :=
  (d.entries ++ d.sections.flatMap (·.entries)).flatMap (·.2.scalars)

/-- Whether an integer is in range; other values always are. -/
def Value.fits : Value → Bool
  | .integer n => -integerBound ≤ n && n < integerBound
  | _ => true

/-- Whether all integers in a document are in range. -/
def Document.fits (d : Document) : Bool :=
  d.scalars.all Value.fits

/-! ## Two libraries -/

/-- The longest run of quotes that a byte can count. -/
def runLimit : Nat :=
  255

/-- Whether the quotes in a text can be counted; other values have none. -/
def Value.isCountable : Value → Bool
  | .string text =>
    longestRun '\'' 0 text.toList ≤ runLimit && longestRun '"' 0 text.toList ≤ runLimit
  | _ => true

namespace Library

/-- The library made of this project's writer and reader. -/
def standard : Library where
  write d := if d.fits then .ok d.write else .error .unwritable
  read := Table.parse

/-- The same with quotes counted in a byte. Integers are looked at first. -/
def checked : Library where
  write d :=
    match standard.write d with
    | .ok text => if d.scalars.all Value.isCountable then .ok text else .error .aborted
    | .error why => .error why
  read := standard.read

end Library

end PlugWatch.Toml
