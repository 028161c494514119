import PlugWatch.Text.Expression.Atom

/-! # Brackets in regular expressions

  A class of characters in brackets: atoms, ranges, classes with a name and classes in brackets,
  next to each other or with the signs for intersection, difference and symmetric difference between
  them. Of a class only its **depth** is kept, the number of classes that lie in each other.
-/

namespace PlugWatch.Text.Expression

/-- The depth of things side by side: two or more count as one thing that holds them. -/
def sideBySide : List Nat → Nat
  | [] => 0
  | [d] => d
  | ds => 1 + ds.foldl max 0

/-- The names of classes. -/
def classNames : List String :=
  ["alnum", "alpha", "ascii", "blank", "cntrl", "digit", "graph", "lower", "print", "punct",
    "space", "upper", "word", "xdigit"]

/-- What surrounds the place that is read. -/
inductive Surrounding where
  /-- A class in brackets is open; these are the depths of what stands in front of it. -/
  | bracket (before : List Nat)
  /-- A sign stands in front, and in front of that something of this depth. -/
  | operand (depth : Nat)
  deriving DecidableEq, Repr

/-- Reads a class with a name, from behind its opening bracket. Gives whether it is negated. -/
def readNamed : List Char → Option (Bool × List Char)
  | ':' :: cs =>
    let negated := cs.head? == some '^'
    let cs := if negated then cs.tail else cs
    let name := String.ofList (cs.takeWhile (· != ':'))
    match cs.dropWhile (· != ':') with
    | ':' :: ']' :: rest => if classNames.contains name then some (negated, rest) else none
    | _ => none
  | _ => none

/-- Reads the hyphens at the start of a class, and counts them. -/
def readHyphens (m : Mode) : (bound : Nat) → List Char → Nat × List Char
  | 0, cs => (0, cs)
  | n + 1, '-' :: cs =>
    let (count, rest) := readHyphens m n (m.skip cs)
    (count + 1, rest)
  | _ + 1, cs => (0, cs)

/-- Reads the start of a class, from behind its opening bracket: the sign of negation, and hyphens
    or a closing bracket that stand for themselves. Gives the depths of what was read. -/
def readOpening (m : Mode) (cs : List Char) : Option (List Nat × List Char) :=
  let cs := m.skip cs
  let negated := cs.head? == some '^'
  if negated && !m.unicode then none
  else
    let cs := if negated then m.skip cs.tail else cs
    let (hyphens, cs) := readHyphens m cs.length cs
    let (closings, cs) :=
      match hyphens, cs with
      | 0, ']' :: rest => (1, m.skip rest)
      | _, cs => (0, cs)
    let items := List.replicate (hyphens + closings) 0
    if items ≠ [] && !m.supportsInside (.literal '-' false) then none else some (items, cs)

/-- Reads an atom in brackets. -/
def readInside (m : Mode) : List Char → Option (Atom × List Char)
  | [] => none
  | '\\' :: cs => readEscape m cs
  | c :: cs => some (.literal c false, cs)

/-- Reads an atom or a range. A hyphen in front of a closing bracket or of another hyphen makes no
    range. -/
def readRange (m : Mode) (cs : List Char) : Option (List Char) := do
  let (first, cs) ← readInside m cs
  match m.skip cs with
  | [] => none
  | '-' :: rest =>
    if m.peek? rest = some ']' ∨ m.peek? rest = some '-' then
      if m.supportsInside first then some ('-' :: rest) else none
    else
      let (last, rest) ← readInside m (m.skip rest)
      match first, last with
      | .literal a _, .literal b _ =>
        if a ≤ b && m.supportsInside first && m.supportsInside last then some rest else none
      | _, _ => none
  | rest => if m.supportsInside first then some rest else none

/-- Ends what stands behind a sign, if there is one. -/
def endOperand (depth : Nat) : List Surrounding → Nat × List Surrounding
  | .operand d :: outer => (1 + max d depth, outer)
  | outer => (depth, outer)

/-- Reads on in a class, within its surroundings and behind items of some depths. -/
def readItems (m : Mode) :
    (bound : Nat) → List Surrounding → List Nat → List Char → Option (Nat × List Char)
  | 0, _, _, _ => none
  | n + 1, outer, items, cs =>
    let sign (rest : List Char) :=
      let (depth, outer) := endOperand (sideBySide items) outer
      readItems m n (.operand depth :: outer) [] rest
    match m.skip cs with
    | [] => none
    | ']' :: rest =>
      match endOperand (sideBySide items) outer with
      | (depth, []) => some (1 + depth, rest)
      | (depth, .bracket before :: outer) => readItems m n outer ((1 + depth) :: before) rest
      | (_, .operand _ :: _) => none
    | '&' :: '&' :: rest => sign rest
    | '-' :: '-' :: rest => sign rest
    | '~' :: '~' :: rest => sign rest
    | '[' :: rest =>
      match readNamed rest with
      | some (negated, rest) =>
        if (if m.unicode then !m.caseless else !negated) then readItems m n outer (0 :: items) rest
        else none
      | none =>
        match readOpening m rest with
        | some (inner, rest) => readItems m n (.bracket items :: outer) inner rest
        | none => none
    | rest =>
      match readRange m rest with
      | some rest => readItems m n outer (0 :: items) rest
      | none => none

/-- Reads a class in brackets, from behind the opening bracket. Gives its depth. -/
def readBracket (m : Mode) (cs : List Char) : Option (Nat × List Char) :=
  match readOpening m cs with
  | some (items, rest) => readItems m (rest.length + 1) [] items rest
  | none => none

end PlugWatch.Text.Expression
