import PlugWatch.Change
import PlugWatch.Device
import PlugWatch.Pattern

/-! # Filters

  What a registration asks for: a pattern for each field of the descriptor, the changes to report,
  and whether the devices already present are to be reported as arrivals. A filter is **valid** if
  its exact values fit the width of their fields and it asks for some change.
-/

namespace PlugWatch

/-- The matching criteria of a registration. -/
structure Filter where
  vendor : Pattern := .any
  product : Pattern := .any
  classCode : Pattern := .any
  changes : ChangeMask := .both
  /-- Whether devices already present count as arrivals. -/
  enumerate : Bool := false
  deriving DecidableEq, Repr

namespace Filter

/-! ## Matching -/

/-- Whether a device with this descriptor fits: each field passes its own pattern. -/
def accepts (f : Filter) (d : Descriptor) : Bool :=
  f.vendor.accepts d.vendor.toUInt32 && f.product.accepts d.product.toUInt32 &&
    f.classCode.accepts d.classCode.toUInt32

/-- Whether the filter asks for a change. -/
def wants (f : Filter) (c : Change) : Bool :=
  f.changes.covers (.only c)

/-- The three patterns, parted by colons. -/
def text (f : Filter) : String :=
  s!"{f.vendor.text}:{f.product.text}:{f.classCode.text}"

/-! ## Validity -/

/-- A field of the descriptor. -/
inductive Field where
  | vendor
  | product
  | classCode
  deriving DecidableEq, Repr

/-- The name of a field in messages. -/
def Field.name : Field → String
  | .vendor => "vendor_id"
  | .product => "product_id"
  | .classCode => "class_code"

/-- The greatest value that fits a field. -/
def Field.limit : Field → UInt32
  | .vendor => 0xFFFF
  | .product => 0xFFFF
  | .classCode => 0xFF

/-- Why a filter is refused. -/
inductive Invalid where
  /-- An exact value is wider than its field. -/
  | outOfRange (field : Field) (value : UInt32)
  /-- No change is asked for. -/
  | noChange
  deriving DecidableEq, Repr

/-- The wording of a refusal. -/
def Invalid.message : Invalid → String
  | .outOfRange f v =>
    s!"{f.name} 0x{Numeral.hex 1 v.toNat} out of range (max 0x{Numeral.hex 1 f.limit.toNat})"
  | .noChange => "event mask is empty"

/-- The pattern of a field. -/
def pattern (f : Filter) : Field → Pattern
  | .vendor => f.vendor
  | .product => f.product
  | .classCode => f.classCode

/-- Refuses an exact value above the limit of its field. -/
def checkField (f : Filter) (field : Field) : Except Invalid Unit :=
  match f.pattern field with
  | .any => .ok ()
  | .exactly v => if v > field.limit then .error (.outOfRange field v) else .ok ()

/-- Vendor, product and class in range, in this order, and then a change asked for. -/
def validate (f : Filter) : Except Invalid Unit := do
  f.checkField .vendor
  f.checkField .product
  f.checkField .classCode
  if f.changes.isEmpty then .error .noChange else .ok ()

/-! ## Drafts -/

/-- A filter under construction. Fields left alone keep their values here; the changes left open
    become those for which callbacks are given. -/
structure Draft where
  vendor : Pattern := .any
  product : Pattern := .any
  classCode : Pattern := .any
  changes : Option ChangeMask := none
  enumerate : Bool := false
  deriving DecidableEq, Repr

/-- The finished filter, for callbacks that serve the changes `provided`. -/
def Draft.finish (d : Draft) (provided : ChangeMask) : Filter where
  vendor := d.vendor
  product := d.product
  classCode := d.classCode
  changes := d.changes.getD provided
  enumerate := d.enumerate

end Filter

end PlugWatch
