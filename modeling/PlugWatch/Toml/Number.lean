import PlugWatch.Text.Numeral
import PlugWatch.Toml.Value

/-! # Numbers and dates

  The scalars that start with a digit or a sign. Integers are those of 64 bits with sign. Digits may
  be parted by single underscores. A number with a fraction or an exponent is refused if it lies
  above all finite numbers of double precision; below them it is not refused.
-/

namespace PlugWatch.Toml

/-! ## Digits -/

/-- The digits that follow a digit, and what is left. An underscore needs a digit behind it. -/
def moreDigits (base : Nat) : List Char → Option (List Char × List Char)
  | [] => some ([], [])
  | '_' :: [] => none
  | '_' :: c :: cs =>
    if Numeral.isDigitOf base c then
      (moreDigits base cs).map fun (ds, rest) => (c :: ds, rest)
    else none
  | c :: cs =>
    if Numeral.isDigitOf base c then
      (moreDigits base cs).map fun (ds, rest) => (c :: ds, rest)
    else some ([], c :: cs)

/-- One digit or more, and what is left. -/
def digits? (base : Nat) : List Char → Option (List Char × List Char)
  | [] => none
  | c :: cs =>
    if Numeral.isDigitOf base c then
      (moreDigits base cs).map fun (ds, rest) => (c :: ds, rest)
    else none

/-- Decimal digits without a zero in front of others, and what is left. -/
def plainDigits? : List Char → Option (List Char × List Char)
  | '0' :: cs => some (['0'], cs)
  | cs => digits? 10 cs

/-- A sign, if there is one, and what is left: whether it is a minus. -/
def sign : List Char → Bool × List Char
  | '-' :: cs => (true, cs)
  | '+' :: cs => (false, cs)
  | cs => (false, cs)

/-! ## Integers -/

/-- An integer, if 64 bits hold it. -/
def integer? (negative : Bool) (n : Nat) : Option Value :=
  if negative then
    if n ≤ integerBound then some (.integer (-n)) else none
  else if n < integerBound then some (.integer n)
  else none

/-- An integer in another base, behind its mark, and what is left. -/
def based? (base : Nat) (cs : List Char) : Option (Value × List Char) := do
  let (ds, rest) ← digits? base cs
  let n ← Numeral.read base ds
  let v ← integer? false n
  return (v, rest)

/-! ## Fractions -/

/-- The least number that rounds to more than any finite number of double precision. -/
def overflowBound : Nat :=
  (Nat.pow 2 54 - 1) * Nat.pow 2 970

/-- Whether `m * 10 ^ k` reaches the bound. Numbers of a plainly different length are not worked
    out. -/
def overflows (m : Nat) (k : Int) : Bool :=
  let length : Int := (Nat.toDigits 10 m).length
  if m = 0 then false
  else if length + k > 320 then true
  else if length + k < 300 then false
  else if 0 ≤ k then decide (overflowBound ≤ m * Nat.pow 10 k.toNat)
  else decide (overflowBound * Nat.pow 10 (-k).toNat ≤ m)

/-- The digits behind a point, if there is one, and what is left. -/
def fraction? : List Char → Option (List Char × List Char)
  | '.' :: cs => digits? 10 cs
  | cs => some ([], cs)

/-- The exponent, if there is one, and what is left. -/
def exponent? : List Char → Option (Int × List Char)
  | c :: cs =>
    if c = 'e' ∨ c = 'E' then do
      let (negative, cs) := sign cs
      let (ds, rest) ← digits? 10 cs
      let n ← Numeral.read 10 ds
      return (if negative then -(n : Int) else n, rest)
    else some (0, c :: cs)
  | [] => some (0, [])

/-- The characters of `cs` up to its end `rest`. -/
def upTo (cs rest : List Char) : String :=
  String.ofList (cs.take (cs.length - rest.length))

/-- A decimal number, and what is left: an integer unless a fraction or an exponent follows. -/
def decimal? (cs : List Char) : Option (Value × List Char) := do
  let (negative, body) := sign cs
  let (whole, afterWhole) ← plainDigits? body
  let (part, afterPart) ← fraction? afterWhole
  let (power, rest) ← exponent? afterPart
  if rest.length = afterWhole.length then
    let n ← Numeral.read 10 whole
    let v ← integer? negative n
    return (v, rest)
  else
    let m ← Numeral.read 10 (whole ++ part)
    if !negative && overflows m (power - part.length) then none
    else return (.float (upTo cs rest), rest)

/-- Infinity and not-a-number, behind a sign if there is one, and what is left. -/
def special? (cs : List Char) : Option (Value × List Char) :=
  match (sign cs).2 with
  | 'i' :: 'n' :: 'f' :: rest => some (.float (upTo cs rest), rest)
  | 'n' :: 'a' :: 'n' :: rest => some (.float (upTo cs rest), rest)
  | _ => none

/-! ## Dates and times -/

/-- A number of exactly so many decimal digits, and what is left. -/
def fixed? (count : Nat) (cs : List Char) : Option (Nat × List Char) := do
  let n ← Numeral.read 10 (cs.take count)
  if (cs.take count).length = count then some (n, cs.drop count) else none

/-- The days of a month. -/
def daysIn (year month : Nat) : Nat :=
  let leap := year % 4 = 0 ∧ (year % 100 ≠ 0 ∨ year % 400 = 0)
  if month = 2 then (if leap then 29 else 28)
  else if month = 4 ∨ month = 6 ∨ month = 9 ∨ month = 11 then 30
  else 31

/-- The text behind a certain character. -/
def expect (c : Char) : List Char → Option (List Char)
  | d :: cs => if d = c then some cs else none
  | [] => none

/-- What is left behind a date. -/
def date? (cs : List Char) : Option (List Char) := do
  let (year, cs) ← fixed? 4 cs
  let cs ← expect '-' cs
  let (month, cs) ← fixed? 2 cs
  let cs ← expect '-' cs
  let (day, cs) ← fixed? 2 cs
  if 1 ≤ month ∧ month ≤ 12 ∧ 1 ≤ day ∧ day ≤ daysIn year month then some cs else none

/-- What is left behind hours and a colon. -/
def hours? (cs : List Char) : Option (List Char) := do
  let (hour, cs) ← fixed? 2 cs
  if hour ≤ 23 then expect ':' cs else none

/-- What is left behind the digits of a second's fraction, if there are any. -/
def secondFraction : List Char → List Char
  | '.' :: c :: cs => if c.isDigit then cs.dropWhile Char.isDigit else '.' :: c :: cs
  | cs => cs

/-- What is left behind a time of day; a leap second counts. -/
def time? (cs : List Char) : Option (List Char) := do
  let cs ← hours? cs
  let (minute, cs) ← fixed? 2 cs
  let cs ← expect ':' cs
  let (second, cs) ← fixed? 2 cs
  if minute ≤ 59 ∧ second ≤ 60 then some (secondFraction cs) else none

/-- What is left behind an offset from universal time, if there is one. -/
def offset? : List Char → Option (List Char)
  | 'Z' :: cs => some cs
  | 'z' :: cs => some cs
  | c :: cs =>
    if c = '+' ∨ c = '-' then do
      let cs ← hours? cs
      let (minute, cs) ← fixed? 2 cs
      if minute ≤ 59 then some cs else none
    else some (c :: cs)
  | [] => some []

/-- What is left behind a time that follows a date, if one does. -/
def timeAfterDate? : List Char → Option (List Char)
  | c :: cs =>
    if (c = 'T' ∨ c = 't' ∨ c = ' ') ∧ (hours? cs).isSome then do offset? (← time? cs)
    else some (c :: cs)
  | [] => some []

/-- Whether a date starts here: four digits and a dash. -/
def startsDate (cs : List Char) : Bool :=
  ((fixed? 4 cs).bind fun (_, cs) => expect '-' cs).isSome

/-- A date, a time or both, and what is left. -/
def dateTime? (cs : List Char) : Option (Value × List Char) := do
  let rest ← if startsDate cs then (date? cs).bind timeAfterDate? else time? cs
  return (.dateTime (upTo cs rest), rest)

/-- A number or a date, and what is left. -/
def number? (cs : List Char) : Option (Value × List Char) :=
  if startsDate cs || (hours? cs).isSome then dateTime? cs
  else
    match cs with
    | '0' :: 'x' :: rest => based? 16 rest
    | '0' :: 'o' :: rest => based? 8 rest
    | '0' :: 'b' :: rest => based? 2 rest
    | _ => (special? cs).or (decimal? cs)

end PlugWatch.Toml
