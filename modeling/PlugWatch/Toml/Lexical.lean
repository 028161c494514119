/-! # Blanks, comments and lines

  The parts of a TOML document between its keys and values. Every function takes the text that is
  left and gives what is left behind the part it is named for.
-/

namespace PlugWatch.Toml

/-- Space or tab. -/
def isSpace (c : Char) : Bool :=
  c == ' ' || c == '\t'

/-- Whether a character may stand in a comment: a tab, or no ASCII control character. -/
def isCommentChar (c : Char) : Bool :=
  c == '\t' || (0x20 ≤ c.toNat && c.toNat != 0x7F)

/-- The text behind spaces and tabs. -/
def skipSpace (cs : List Char) : List Char :=
  cs.dropWhile isSpace

/-- The text behind a line break: a line feed, which a carriage return may precede. -/
def newline? : List Char → Option (List Char)
  | '\n' :: cs => some cs
  | '\r' :: '\n' :: cs => some cs
  | _ => none

/-- The text behind a comment, if one starts here. -/
def skipComment : List Char → List Char
  | '#' :: cs => cs.dropWhile isCommentChar
  | cs => cs

/-- The text behind the rest of a line that holds nothing more than a comment. -/
def lineEnd? (cs : List Char) : Option (List Char) :=
  match skipComment (skipSpace cs) with
  | [] => some []
  | rest => newline? rest

/-- The text behind spaces, line breaks and comments, as they may stand in an array. With
    `inComment` the text starts inside a comment; a comment has to end with its line. -/
def skipGap? (inComment : Bool) : List Char → Option (List Char)
  | [] => if inComment then none else some []
  | '\n' :: cs => skipGap? false cs
  | '\r' :: '\n' :: cs => skipGap? false cs
  | c :: cs =>
    if inComment then
      if isCommentChar c then skipGap? true cs else none
    else if isSpace c then skipGap? false cs
    else if c == '#' then skipGap? true cs
    else some (c :: cs)

end PlugWatch.Toml
