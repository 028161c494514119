import PlugWatch.Text.Blank
import PlugWatch.Text.Numeral

/-! # Atoms of regular expressions

  The smallest parts of a regular expression, and the **mode** in which they are read. The mode can
  change from place to place. It decides what blanks mean, whether letters stand for both of their
  cases, and whether characters or bytes are matched.

  No tables of the Unicode standard are at hand for matching. So while characters are matched,
  classes that need a table are refused: the categories of digits, blanks and word characters, every
  property, and both cases of a character. While bytes are matched, whatever could match a part of a
  character is refused.
-/

namespace PlugWatch.Text.Expression

/-- How an expression is read. -/
structure Mode where
  /-- Blanks and comments say nothing. -/
  spaced : Bool := false
  /-- A character stands for both of its cases. -/
  caseless : Bool := false
  /-- Characters are matched, otherwise bytes. -/
  unicode : Bool := true
  deriving DecidableEq, Repr

/-- What is left behind blanks and comments. A comment goes from a hash to the end of its line; with
    `inComment` the text starts inside one. -/
def skipBlanks (inComment : Bool) : List Char → List Char
  | [] => []
  | c :: cs =>
    if inComment then skipBlanks (c != '\n') cs
    else if c == '#' then skipBlanks true cs
    else if isBlank c then skipBlanks false cs
    else c :: cs

/-- What is left behind that which says nothing. -/
def Mode.skip (m : Mode) (cs : List Char) : List Char :=
  if m.spaced then skipBlanks false cs else cs

/-- The next character that says something. Only one hash is passed over, and with it no more than
    the blanks behind it. -/
def Mode.peek? (m : Mode) (cs : List Char) : Option Char :=
  if m.spaced then
    match cs.dropWhile isBlank with
    | '#' :: rest => (rest.dropWhile isBlank).head?
    | rest => rest.head?
  else cs.head?

/-! ## Atoms -/

/-- An atom. -/
inductive Atom where
  /-- A character; with `coded` it is written as a number of two digits. -/
  | literal (c : Char) (coded : Bool)
  /-- Digits, blanks or word characters, or all but these. -/
  | category (negated : Bool)
  /-- The start or the end of the text. -/
  | edge
  /-- The start or the end of a word, or neither. -/
  | wordEdge
  deriving DecidableEq, Repr

/-- Whether an atom is supported outside of brackets. -/
def Mode.supports (m : Mode) : Atom → Bool
  | .literal c coded => if m.unicode then !m.caseless else !(coded && c.toNat ≥ 0x80)
  | .category negated => !m.unicode && !negated
  | .edge => true
  | .wordEdge => !m.unicode

/-- Whether an atom is supported in brackets. -/
def Mode.supportsInside (m : Mode) : Atom → Bool
  | .literal c _ => if m.unicode then !m.caseless else c.toNat < 0x80
  | .category negated => !m.unicode && !negated
  | .edge => false
  | .wordEdge => false

/-! ## Reading -/

/-- Reads `n` hexadecimal digits, after those that gave `acc`. -/
def readDigits (m : Mode) : (n acc : Nat) → List Char → Option (Nat × List Char)
  | 0, acc, cs => some (acc, cs)
  | n + 1, acc, c :: cs =>
    match Numeral.digitOf 16 c with
    | some d => readDigits m n (acc * 16 + d) (m.skip cs)
    | none => none
  | _ + 1, _, [] => none

/-- Reads a character written as a number of `n` hexadecimal digits. -/
def readCode (m : Mode) (n : Nat) (cs : List Char) : Option (Atom × List Char) :=
  match readDigits m n 0 (m.skip cs) with
  | some (code, rest) =>
    if code.isValidChar then some (.literal (Char.ofNat code) (n == 2), rest) else none
  | none => none

/-- Whether a character stands for itself behind a backslash: every ASCII character but letters,
    digits and angle brackets. -/
def isQuotable (c : Char) : Bool :=
  c.toNat < 0x80 && !c.isAlphanum && c != '<' && c != '>'

/-- Reads what follows a backslash. -/
def readEscape (m : Mode) : List Char → Option (Atom × List Char)
  | [] => none
  | c :: cs =>
    match c with
    | 'x' => readCode m 2 cs
    | 'u' => readCode m 4 cs
    | 'U' => readCode m 8 cs
    | 'd' | 's' | 'w' => some (.category false, cs)
    | 'D' | 'S' | 'W' => some (.category true, cs)
    | 'a' => some (.literal '\x07' false, cs)
    | 'f' => some (.literal '\x0c' false, cs)
    | 't' => some (.literal '\t' false, cs)
    | 'n' => some (.literal '\n' false, cs)
    | 'r' => some (.literal '\r' false, cs)
    | 'v' => some (.literal '\x0b' false, cs)
    | 'A' | 'z' => some (.edge, cs)
    | 'b' | 'B' | '<' | '>' => some (.wordEdge, cs)
    | _ => if isQuotable c then some (.literal c false, cs) else none

end PlugWatch.Text.Expression
