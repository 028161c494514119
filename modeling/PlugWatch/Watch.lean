import PlugWatch.Failure

/-! # Watches

  A named filter as it is configured. The filter is a text of two or three field patterns between
  colons: vendor, product and, if it is there, class.
-/

namespace PlugWatch

/-- A configured watch. -/
structure Watch where
  /-- The label of its lines. -/
  name : String
  filter : String := "*:*"
  changes : List Change := [.arrived, .left]
  /-- Whether devices already present count as arrivals. -/
  enumerate : Bool := false
  deriving DecidableEq, Repr

namespace Watch

/-- A field of a filter text. -/
inductive Label where
  | vendor
  | product
  | classCode
  deriving DecidableEq, Repr

/-- The name of a field in messages. -/
def Label.text : Label → String
  | .vendor => "VID"
  | .product => "PID"
  | .classCode => "CLASS"

/-- Why a watch has no filter. -/
inductive FilterError where
  /-- Not two or three fields. -/
  | fieldCount
  /-- A field is no pattern. -/
  | field (label : Label) (why : Pattern.ParseError)
  /-- The patterns make no valid filter. -/
  | invalid (why : Filter.Invalid)
  deriving DecidableEq, Repr

/-- Reads the pattern of a field. -/
def readField (label : Label) (cs : List Char) : Except FilterError Pattern :=
  (Pattern.parse (String.ofList cs)).mapError (.field label)

/-- The fields of a filter text. -/
def fields (w : Watch) : List (List Char) :=
  w.filter.toList.splitOn ':'

/-- The set of changes asked for. -/
def mask (w : Watch) : ChangeMask :=
  .ofList w.changes

/-- The patterns of the fields, read from left to right. -/
def readFields : List (List Char) → Except FilterError (Pattern × Pattern × Pattern)
  | [v, p] => return (← readField .vendor v, ← readField .product p, .any)
  | [v, p, c] => return (← readField .vendor v, ← readField .product p, ← readField .classCode c)
  | _ => .error .fieldCount

/-- The filter that a watch stands for. -/
def toFilter (w : Watch) : Except FilterError Filter := do
  let (vendor, product, classCode) ← readFields w.fields
  let f : Filter := { vendor, product, classCode, changes := w.mask, enumerate := w.enumerate }
  f.validate.mapError .invalid
  return f

/-- What is reported when a watch has no filter. -/
def FilterError.report (w : Watch) : FilterError → Report
  | .fieldCount =>
    { cause := .plain (s!"Invalid filter '{w.filter}' in watch '{w.name}', " ++
        "expected VID:PID[:CLASS] (e.g., '0x1234:*' or '*:*:0x03')") }
  | .field label why =>
    { contexts := [s!"Invalid {label.text} in watch '{w.name}'"]
      cause := .failure (.invalidParameter (.pattern why)) }
  | .invalid why =>
    { contexts := [s!"Invalid filter '{w.filter}' in watch '{w.name}'"]
      cause := .failure (.invalidParameter (.filter why)) }

end Watch

end PlugWatch
