import PlugWatch.Text.Numeral

/-! # Strings in four styles

  TOML writes a string between double quotes with escapes (**basic**), between single quotes as it
  is (**literal**), and either of the two between three quotes, then over several lines. Writing
  chooses the plainest style that can hold the text.
-/

namespace PlugWatch.Toml

/-- How a string is written. -/
inductive Style where
  | basic
  | literal
  | multiBasic
  | multiLiteral
  deriving DecidableEq, Repr

/-! ## Reading -/

/-- Whether a character may stand in a string as it is: a tab or no control character. -/
def isTextChar (c : Char) : Bool :=
  c == '\t' || (0x20 ≤ c.toNat && c.toNat != 0x7F)

/-- Puts a character in front of a text that was read. -/
def consRead (c : Char) : Option (List Char × List Char) → Option (List Char × List Char) :=
  Option.map fun (text, rest) => (c :: text, rest)

/-- The character that a letter behind a backslash stands for. -/
def unescape : Char → Option Char
  | 'b' => some '\x08'
  | 't' => some '\t'
  | 'n' => some '\n'
  | 'f' => some '\x0c'
  | 'r' => some '\r'
  | '"' => some '"'
  | '\\' => some '\\'
  | _ => none

/-- The character with a number given in hexadecimal digits. Surrogates are no characters. -/
def scalar (digits : List Char) : Option Char := do
  let n ← Numeral.read 16 digits
  if n.isValidChar then some (Char.ofNat n) else none

/-- The text up to the closing double quote, with escapes undone, and what follows. -/
def readBasic : List Char → Option (List Char × List Char)
  | '"' :: rest => some ([], rest)
  | '\\' :: 'u' :: a :: b :: c :: d :: rest =>
    (scalar [a, b, c, d]).bind fun x => consRead x (readBasic rest)
  | '\\' :: 'U' :: a :: b :: c :: d :: e :: f :: g :: h :: rest =>
    (scalar [a, b, c, d, e, f, g, h]).bind fun x => consRead x (readBasic rest)
  | '\\' :: c :: rest => (unescape c).bind fun x => consRead x (readBasic rest)
  | c :: rest => if isTextChar c then consRead c (readBasic rest) else none
  | [] => none

/-- The text up to the closing single quote, and what follows. -/
def readLiteral : List Char → Option (List Char × List Char)
  | '\'' :: rest => some ([], rest)
  | c :: rest => if isTextChar c then consRead c (readLiteral rest) else none
  | [] => none

/-- Whether only spaces stand in front of the next line break. -/
def breaksLine : List Char → Bool
  | '\n' :: _ => true
  | '\r' :: '\n' :: _ => true
  | c :: cs => (c == ' ' || c == '\t') && breaksLine cs
  | [] => false

/-- The text up to three double quotes, which one or two more may precede as text. With `skip`,
    spaces and line breaks are passed over, as they are behind a backslash at the end of a line. -/
def readMultiBasic (skip : Bool) : List Char → Option (List Char × List Char)
  | '"' :: '"' :: '"' :: '"' :: '"' :: rest => some (['"', '"'], rest)
  | '"' :: '"' :: '"' :: '"' :: rest => some (['"'], rest)
  | '"' :: '"' :: '"' :: rest => some ([], rest)
  | '\n' :: rest =>
    if skip then readMultiBasic true rest else consRead '\n' (readMultiBasic false rest)
  | '\r' :: '\n' :: rest =>
    if skip then readMultiBasic true rest else consRead '\n' (readMultiBasic false rest)
  | '\\' :: 'u' :: a :: b :: c :: d :: rest =>
    (scalar [a, b, c, d]).bind fun x => consRead x (readMultiBasic false rest)
  | '\\' :: 'U' :: a :: b :: c :: d :: e :: f :: g :: h :: rest =>
    (scalar [a, b, c, d, e, f, g, h]).bind fun x => consRead x (readMultiBasic false rest)
  | '\\' :: c :: rest =>
    match unescape c with
    | some x => consRead x (readMultiBasic false rest)
    | none =>
      if c == '\n' then readMultiBasic true rest
      else if breaksLine (c :: rest) then readMultiBasic true rest
      else none
  | c :: rest =>
    if skip && (c == ' ' || c == '\t') then readMultiBasic true rest
    else if isTextChar c then consRead c (readMultiBasic false rest)
    else none
  | [] => none

/-- The text up to three single quotes, which one or two more may precede as text. -/
def readMultiLiteral : List Char → Option (List Char × List Char)
  | '\'' :: '\'' :: '\'' :: '\'' :: '\'' :: rest => some (['\'', '\''], rest)
  | '\'' :: '\'' :: '\'' :: '\'' :: rest => some (['\''], rest)
  | '\'' :: '\'' :: '\'' :: rest => some ([], rest)
  | '\n' :: rest => consRead '\n' (readMultiLiteral rest)
  | '\r' :: '\n' :: rest => consRead '\n' (readMultiLiteral rest)
  | c :: rest => if isTextChar c then consRead c (readMultiLiteral rest) else none
  | [] => none

/-- The text without a line break at its start. -/
def dropNewline : List Char → List Char
  | '\n' :: cs => cs
  | '\r' :: '\n' :: cs => cs
  | cs => cs

/-- Reads a string on one line. -/
def readOneLine? : List Char → Option (List Char × List Char)
  | '"' :: cs => readBasic cs
  | '\'' :: cs => readLiteral cs
  | _ => none

/-- Reads a string in any style. A line break right behind three quotes does not count. -/
def readString? : List Char → Option (List Char × List Char)
  | '"' :: '"' :: '"' :: cs => readMultiBasic false (dropNewline cs)
  | '\'' :: '\'' :: '\'' :: cs => readMultiLiteral (dropNewline cs)
  | cs => readOneLine? cs

/-! ## Writing -/

/-- Whether a character can only be written as an escape: a control character other than tab and
    line feed. -/
def needsEscape (c : Char) : Bool :=
  c != '\t' && c != '\n' && (c.toNat < 0x20 || c.toNat == 0x7F)

/-- The length of the longest run of a character, with `here` of them just before the text. -/
def longestRun (x : Char) (here : Nat) : List Char → Nat
  | [] => here
  | c :: cs => if c = x then longestRun x (here + 1) cs else max here (longestRun x 0 cs)

/-- The style in which a text is written. -/
def Style.of (cs : List Char) : Style :=
  let escapes := cs.any needsEscape
  let backslash := cs.contains '\\'
  let lines := cs.contains '\n'
  let singles := longestRun '\'' 0 cs
  let doubles := longestRun '"' 0 cs
  if !escapes && !backslash && !lines && doubles == 0 then .basic
  else if !escapes && !lines && singles == 0 then .literal
  else if !escapes && !backslash && doubles ≤ 2 then .multiBasic
  else if !escapes && singles ≤ 2 then .multiLiteral
  else if lines then .multiBasic
  else .basic

/-- Four hexadecimal digits in upper case behind `\u`. -/
def numericEscape (c : Char) : List Char :=
  '\\' :: 'u' :: (Numeral.padded 16 4 c.toNat).map Char.toUpper

/-- How a character stands between double quotes; the quote itself is escaped. -/
def escaped (c : Char) : List Char :=
  if c = '\x08' then ['\\', 'b']
  else if c = '\t' then ['\\', 't']
  else if c = '\n' then ['\\', 'n']
  else if c = '\x0c' then ['\\', 'f']
  else if c = '\r' then ['\\', 'r']
  else if c = '"' then ['\\', '"']
  else if c = '\\' then ['\\', '\\']
  else if needsEscape c then numericEscape c
  else [c]

/-- A text for three double quotes: line feeds stay, and so do quotes but for every third of a run;
    `run` of them are just before the text. -/
def writeMultiBasic (run : Nat) : List Char → List Char
  | [] => []
  | c :: cs =>
    if c = '"' then
      if run = 2 then '\\' :: '"' :: writeMultiBasic 0 cs else '"' :: writeMultiBasic (run + 1) cs
    else if c = '\n' then '\n' :: writeMultiBasic 0 cs
    else escaped c ++ writeMultiBasic 0 cs

/-- The line break behind three quotes, for texts of several lines. -/
def leadingBreak (cs : List Char) : List Char :=
  if cs.contains '\n' then ['\n'] else []

/-- A text with its quotes, in a given style. -/
def Style.write : Style → List Char → List Char
  | .basic, cs => '"' :: cs.flatMap escaped ++ ['"']
  | .literal, cs => '\'' :: cs ++ ['\'']
  | .multiBasic, cs =>
    ['"', '"', '"'] ++ leadingBreak cs ++ writeMultiBasic 0 cs ++ ['"', '"', '"']
  | .multiLiteral, cs => ['\'', '\'', '\''] ++ leadingBreak cs ++ cs ++ ['\'', '\'', '\'']

/-- A text with its quotes, in the style that suits it. -/
def writeString (cs : List Char) : List Char :=
  (Style.of cs).write cs

end PlugWatch.Toml
