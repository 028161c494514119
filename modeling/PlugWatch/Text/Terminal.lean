import PlugWatch.Text.Numeral

/-! # Text for terminals

  Some characters are **commands** to a terminal: they move the cursor, ring, or begin a sequence
  that does anything at all. In a text that is shown they are written out by their numbers, so that
  they are seen and not obeyed. All other characters are shown as they are, line breaks and tabs
  among them.
-/

namespace PlugWatch.Text

/-- Whether terminals obey a character: the bell, backspace, form feed, escape, and the control
    characters from delete on. -/
def isCommand (c : Char) : Bool :=
  ['\x07', '\x08', '\x0c', '\x1b'].contains c || (0x7F ≤ c.toNat && c.toNat < 0xA0)

/-- How a character is shown. -/
def showChar (c : Char) : List Char :=
  if !isCommand c then [c]
  else if c.toNat < 0x80 then '\\' :: 'x' :: Numeral.padded 16 2 c.toNat
  else ['\\', 'u', '\x7b'] ++ Nat.toDigits 16 c.toNat ++ ['\x7d']

/-- A text with its commands written out. -/
def shown (s : String) : String :=
  String.ofList (s.toList.flatMap showChar)

end PlugWatch.Text
