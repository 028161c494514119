/-! # Sixteen-bit units

  Text as a sequence of sixteen-bit units: a character below 65536 is one unit, any other is a
  **pair** of a high and a low unit. A high unit without a low one after it, and a low unit without
  a high one before it, stand for nothing.
-/

namespace PlugWatch.Text

/-- Whether a unit is the first of a pair. -/
def isHighUnit (u : UInt16) : Bool :=
  0xD800 ≤ u && u < 0xDC00

/-- Whether a unit is the second of a pair. -/
def isLowUnit (u : UInt16) : Bool :=
  0xDC00 ≤ u && u < 0xE000

/-- The character of a pair. -/
def pairChar (high low : UInt16) : Char :=
  Char.ofNat (0x10000 + (high.toNat - 0xD800) * 0x400 + (low.toNat - 0xDC00))

/-- The units of a character. -/
def unitsOfChar (c : Char) : List UInt16 :=
  if c.toNat < 0x10000 then [UInt16.ofNat c.toNat]
  else
    let n := c.toNat - 0x10000
    [UInt16.ofNat (0xD800 + n / 0x400), UInt16.ofNat (0xDC00 + n % 0x400)]

/-- The units of a text. -/
def units (cs : List Char) : List UInt16 :=
  cs.flatMap unitsOfChar

/-- The text of units, if every pair is complete. -/
def ofUnits? : List UInt16 → Option (List Char)
  | [] => some []
  | u :: us =>
    if isLowUnit u then none
    else if isHighUnit u then
      match us with
      | [] => none
      | v :: vs => if isLowUnit v then (ofUnits? vs).map (pairChar u v :: ·) else none
    else (ofUnits? us).map (Char.ofNat u.toNat :: ·)

end PlugWatch.Text
