import PlugWatch.Text.Alphanumeric
import PlugWatch.Text.Expression.Bracket

/-! # Regular expressions

  Which texts are regular expressions. An expression is a choice of **branches**, a branch a row of
  **parts**: atoms, classes in brackets, groups in parentheses and changes of the mode. A sign
  behind a part repeats it. Repetition by a count in braces is not known.

  Of a part only its **depth** is kept, the number of parts that lie in each other; an expression
  may be so deep and no deeper.
-/

namespace PlugWatch.Text.Expression

/-- The greatest depth of an expression. -/
def depthLimit : Nat :=
  250

/-- A part of a branch. -/
structure Part where
  depth : Nat := 0
  /-- Whether it can be repeated. A change of the mode cannot. -/
  repeatable : Bool := true
  deriving DecidableEq, Repr

/-- A group that is being read. -/
structure Group where
  /-- The parts of its last branch, newest first. -/
  parts : List Part := []
  /-- The depths of the branches in front of that, newest first. -/
  branches : List Nat := []
  /-- The mode in front of the group. -/
  outside : Mode := {}
  deriving DecidableEq, Repr

namespace Group

/-- One part more. -/
def add (g : Group) (p : Part) : Group :=
  { g with parts := p :: g.parts }

/-- The depth of the last branch. -/
def branchDepth (g : Group) : Nat :=
  sideBySide (g.parts.map (·.depth))

/-- The depth of what is in the group. -/
def depth (g : Group) : Nat :=
  match g.branches with
  | [] => g.branchDepth
  | bs => 1 + (g.branchDepth :: bs).foldl max 0

/-- Starts a branch. -/
def branch (g : Group) : Group :=
  { g with parts := [], branches := g.branchDepth :: g.branches }

/-- Repeats the last part. -/
def again (g : Group) : Option Group :=
  match g.parts with
  | p :: ps =>
    if p.repeatable then some { g with parts := { depth := p.depth + 1 } :: ps } else none
  | [] => none

end Group

/-- What has been read of an expression. -/
structure Progress where
  mode : Mode := {}
  /-- The names of groups. -/
  names : List (List Char) := []
  /-- The innermost group that is open, or the whole expression. -/
  group : Group := {}
  /-- The groups around that, from the inside to the outside. -/
  outer : List Group := []
  deriving DecidableEq, Repr

namespace Progress

/-- One part more. -/
def add (p : Progress) (part : Part) : Progress :=
  { p with group := p.group.add part }

/-- Opens a group, in which another mode may hold. -/
def openGroup (p : Progress) (inside : Mode) : Progress :=
  { p with mode := inside, group := { outside := p.mode }, outer := p.group :: p.outer }

/-- Closes the innermost group. The mode in front of it holds again. -/
def closeGroup (p : Progress) : Option Progress :=
  match p.outer with
  | [] => none
  | g :: outer =>
    some { p with mode := p.group.outside, group := g.add { depth := 1 + p.group.depth }, outer }

/-! ## Groups -/

/-- The name of a group: a letter or an underscore, then also numbers, dots and brackets. -/
def isName : List Char → Bool
  | [] => false
  | c :: cs =>
    (c == '_' || isLetter c) &&
      cs.all fun c => isAlphanumeric c || c == '_' || c == '.' || c == '[' || c == ']'

/-- Reads the name of a group, which ends with an angle bracket and must be new, and opens the
    group. -/
def openNamed (p : Progress) (cs : List Char) : Option (Progress × List Char) :=
  let name := cs.takeWhile (· != '>')
  match cs.dropWhile (· != '>') with
  | [] => none
  | _ :: rest =>
    if isName name && !p.names.contains name then
      some ({ p with names := name :: p.names }.openGroup p.mode, rest)
    else none

/-- Whether a text is a list of flags: each at most once, and at most one hyphen, which is not the
    last. -/
def areFlags (cs : List Char) : Bool :=
  cs.all (['i', 'm', 's', 'U', 'u', 'R', 'x', '-'].contains ·) && cs.Nodup &&
    cs.getLast? != some '-'

/-- What becomes of a setting: flags in front of a hyphen turn it on, those behind it off. -/
def flagged (flags : List Char) (flag : Char) (old : Bool) : Bool :=
  if (flags.takeWhile (· != '-')).contains flag then true
  else if flags.contains flag then false
  else old

/-- The mode with flags. The other flags change nothing that decides whether an expression is
    valid. -/
def withFlags (m : Mode) (flags : List Char) : Mode where
  spaced := flagged flags 'x' m.spaced
  caseless := flagged flags 'i' m.caseless
  unicode := flagged flags 'u' m.unicode

/-- Reads flags. A colon behind them opens a group in which they hold; a closing parenthesis makes
    them hold up to the end of the group around. -/
def openFlags (p : Progress) (cs : List Char) : Option (Progress × List Char) :=
  let flags := cs.takeWhile fun c => c != ':' && c != ')'
  if !areFlags flags then none
  else
    match cs.dropWhile fun c => c != ':' && c != ')' with
    | ':' :: rest => some (p.openGroup (withFlags p.mode flags), rest)
    | _ :: rest =>
      if flags = [] then none
      else some ({ p with mode := withFlags p.mode flags }.add { repeatable := false }, rest)
    | [] => none

/-- Reads on behind an opening parenthesis. Looking ahead and behind is not supported. -/
def openAny (p : Progress) (cs : List Char) : Option (Progress × List Char) :=
  match p.mode.skip cs with
  | '?' :: '=' :: _ => none
  | '?' :: '!' :: _ => none
  | '?' :: '<' :: '=' :: _ => none
  | '?' :: '<' :: '!' :: _ => none
  | '?' :: 'P' :: '<' :: rest => p.openNamed rest
  | '?' :: '<' :: rest => p.openNamed rest
  | '?' :: rest => p.openFlags rest
  | rest => some (p.openGroup p.mode, rest)

/-! ## Parts -/

/-- Reads a sign of repetition, behind which a question mark makes the repetition a short one. -/
def readAgain (p : Progress) (cs : List Char) : Option (Progress × List Char) :=
  p.group.again.map fun group =>
    ({ p with group }, if cs.head? == some '?' then cs.tail else cs)

/-- Adds an atom, if it is supported. -/
def addAtom (p : Progress) (a : Atom) (rest : List Char) : Option (Progress × List Char) :=
  if p.mode.supports a then some (p.add {}, rest) else none

/-- Reads on at a character. -/
def step (p : Progress) (c : Char) (rest : List Char) : Option (Progress × List Char) :=
  match c with
  | '(' => p.openAny rest
  | ')' => p.closeGroup.map (·, rest)
  | '|' => some ({ p with group := p.group.branch }, rest)
  | '[' => (readBracket p.mode rest).map fun (depth, rest) => (p.add { depth }, rest)
  | '?' => p.readAgain rest
  | '*' => p.readAgain rest
  | '+' => p.readAgain rest
  | '\x7b' => none
  | '\\' => (readEscape p.mode rest).bind fun (a, rest) => p.addAtom a rest
  | '.' => if p.mode.unicode then some (p.add {}, rest) else none
  | '^' => p.addAtom .edge rest
  | '$' => p.addAtom .edge rest
  | _ => p.addAtom (.literal c false) rest

/-- Reads to the end; every step takes at least one character. -/
def run : (bound : Nat) → Progress → List Char → Option Progress
  | 0, _, _ => none
  | n + 1, p, cs =>
    match p.mode.skip cs with
    | [] => some p
    | c :: rest =>
      match p.step c rest with
      | some (p, rest) => run n p rest
      | none => none

end Progress

/-- Whether a text is a regular expression that is supported. -/
def isValid (cs : List Char) : Bool :=
  match Progress.run (cs.length + 1) {} cs with
  | some p => p.outer.isEmpty && p.group.depth ≤ depthLimit
  | none => false

end PlugWatch.Text.Expression
