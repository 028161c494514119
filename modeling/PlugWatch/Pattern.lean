import PlugWatch.Text.Blank
import PlugWatch.Text.Numeral

/-! # Field patterns

  One field of a filter: a **wildcard** or one exact value. A pattern has a raw encoding as a word,
  in which the greatest word is the wildcard, and a text, in which a star is the wildcard and a
  value is written in hexadecimal.
-/

namespace PlugWatch

/-- What a filter asks of one field of a descriptor. -/
inductive Pattern where
  /-- Every value. -/
  | any
  /-- One value. -/
  | exactly (value : UInt32)
  deriving DecidableEq, Repr

namespace Pattern

instance : Inhabited Pattern := ⟨any⟩

/-- Whether a value of the field fits. -/
def accepts : Pattern → UInt32 → Bool
  | any, _ => true
  | exactly v, n => v == n

/-- Whether the pattern is the wildcard. -/
def isAny : Pattern → Bool
  | any => true
  | exactly _ => false

/-! ## Raw encoding -/

/-- The word that stands for the wildcard. -/
def anyWord : UInt32 :=
  0xFFFFFFFF

/-- The pattern that a word stands for. -/
def ofRaw (w : UInt32) : Pattern :=
  if w = anyWord then any else exactly w

/-- The word of a pattern. -/
def raw : Pattern → UInt32
  | any => anyWord
  | exactly v => v

/-! ## Text -/

/-- A star, or `0x` and at least four hexadecimal digits. -/
def text : Pattern → String
  | any => "*"
  | exactly v => s!"0x{Numeral.hex 4 v.toNat}"

/-- Why a text is no pattern. Each case carries the text without the blanks around it. -/
inductive ParseError where
  /-- Neither a star nor `0x` in front. -/
  | unmarked (text : String)
  /-- Nothing, or more than eight bytes, behind `0x`. -/
  | digitCount (text : String)
  /-- Something other than hexadecimal digits behind `0x`. -/
  | notHex (text : String)
  deriving DecidableEq, Repr

/-- The wording of a refusal. -/
def ParseError.message : ParseError → String
  | .unmarked t => s!"'{t}' must be '*' or start with '0x'"
  | .digitCount t => s!"'{t}' must have 1-8 hex digits"
  | .notHex t => s!"'{t}' is not a valid hex number"

/-- What follows the mark `0x` or `0X`. -/
def afterMark : List Char → Option (List Char)
  | '0' :: 'x' :: cs => some cs
  | '0' :: 'X' :: cs => some cs
  | _ => none

/-- The number behind the mark: hexadecimal digits, which one plus sign may precede. -/
def readHex : List Char → Option Nat
  | '+' :: cs => Numeral.read 16 cs
  | cs => Numeral.read 16 cs

/-- Reads a text without blanks around it. -/
def parseChars (cs : List Char) : Except ParseError Pattern :=
  let t := String.ofList cs
  if cs = ['*'] then .ok any
  else
    match afterMark cs with
    | none => .error (.unmarked t)
    | some digits =>
      let size := (String.ofList digits).utf8ByteSize
      if size = 0 ∨ size > 8 then .error (.digitCount t)
      else
        match readHex digits with
        | some n => .ok (exactly (UInt32.ofNat n))
        | none => .error (.notHex t)

/-- Reads a pattern; blanks around it do not count. -/
def parse (s : String) : Except ParseError Pattern :=
  parseChars (Text.trimChars s.toList)

end Pattern

end PlugWatch
