/-! # Numerals

  Writing a number with a least count of digits, and reading digits back. Letters are written in
  lower case and read in either case.
-/

namespace PlugWatch.Numeral

/-! ## Writing -/

/-- The digits of `n` in `base`, with zeros in front up to `width` digits. -/
def padded (base width n : Nat) : List Char :=
  let digits := Nat.toDigits base n
  List.replicate (width - digits.length) '0' ++ digits

/-- Decimal digits, at least `width` of them. -/
def decimal (width n : Nat) : String :=
  String.ofList (padded 10 width n)

/-- Hexadecimal digits, at least `width` of them. -/
def hex (width n : Nat) : String :=
  String.ofList (padded 16 width n)

/-! ## Reading -/

/-- The value of a digit: decimal digits, then the letters `a` to `z` in either case. -/
def digitValue (c : Char) : Option Nat :=
  if '0' ≤ c ∧ c ≤ '9' then some (c.toNat - '0'.toNat)
  else if 'a' ≤ c ∧ c ≤ 'z' then some (c.toNat - 'a'.toNat + 10)
  else if 'A' ≤ c ∧ c ≤ 'Z' then some (c.toNat - 'A'.toNat + 10)
  else none

/-- The value of a digit of `base`. -/
def digitOf (base : Nat) (c : Char) : Option Nat :=
  (digitValue c).filter (· < base)

/-- Whether a character is a digit of `base`. -/
def isDigitOf (base : Nat) (c : Char) : Bool :=
  (digitOf base c).isSome

/-- The number that digits stand for when `acc` is already read; nothing if one is no digit. -/
def readFrom (base acc : Nat) : List Char → Option Nat
  | [] => some acc
  | c :: cs =>
    match digitOf base c with
    | some d => readFrom base (acc * base + d) cs
    | none => none

/-- The number that a non-empty run of digits stands for. -/
def read (base : Nat) : List Char → Option Nat
  | [] => none
  | c :: cs => readFrom base 0 (c :: cs)

/-! ## Numbers with a fraction -/

/-- The text behind a sign, if there is one. -/
def unsigned : List Char → List Char
  | '+' :: cs => cs
  | '-' :: cs => cs
  | cs => cs

/-- Whether a text is nothing, or an exponent of ten. -/
def isExponent : List Char → Bool
  | [] => true
  | c :: cs =>
    let digits := unsigned cs
    (c == 'e' || c == 'E') && digits ≠ [] && digits.all (isDigitOf 10)

/-- Whether a text is decimal digits, perhaps with a point among them or at either end and with an
    exponent behind them. -/
def isDecimal (cs : List Char) : Bool :=
  let whole := cs.takeWhile (isDigitOf 10)
  match cs.dropWhile (isDigitOf 10) with
  | '.' :: rest =>
    let fraction := rest.takeWhile (isDigitOf 10)
    (whole ≠ [] || fraction ≠ []) && isExponent (rest.dropWhile (isDigitOf 10))
  | rest => whole ≠ [] && isExponent rest

/-- Whether a text stands for what is infinite or no number, in any case. -/
def isSpecial (cs : List Char) : Bool :=
  ["inf", "infinity", "nan"].contains (String.ofList (cs.map Char.toLower))

/-- Whether a text is a real number; a sign may stand in front. -/
def isReal (cs : List Char) : Bool :=
  let cs := unsigned cs
  isDecimal cs || isSpecial cs

end PlugWatch.Numeral
