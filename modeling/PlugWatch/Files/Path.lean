/-! # Paths

  Paths are texts with slashes between their parts. A part of one dot, and an empty part but the
  first, say nothing.
-/

namespace PlugWatch.Path

/-- Whether a path starts at the root. -/
def isAbsolute (p : String) : Bool :=
  p.toList.head? == some '/'

/-- What stands between the slashes of a path. -/
def parts (p : String) : List String :=
  (p.toList.splitOn '/').map String.ofList

/-- The path `q` as seen from the directory `p`. -/
def join (p q : String) : String :=
  if isAbsolute q then q
  else if p = "" ∨ p.toList.getLast? = some '/' then p ++ q
  else p ++ "/" ++ q

/-- A reversed path without the slashes and single dots at its end. -/
def stripEnd : List Char → List Char
  | '/' :: cs => stripEnd cs
  | '.' :: '/' :: cs => stripEnd cs
  | cs => cs

/-- The path without its last part. The root and the empty path have no parent. -/
def parent? (p : String) : Option String :=
  match stripEnd p.toList.reverse with
  | [] => none
  | cs =>
    match stripEnd (cs.dropWhile (· != '/')) with
    | [] => some (if isAbsolute p then "/" else "")
    | above => some (String.ofList above.reverse)

/-- The path, its parent, the parent of that, and so on; at most `bound` of them. -/
def upwards : (bound : Nat) → String → List String
  | 0, _ => []
  | n + 1, p =>
    match parent? p with
    | none => [p]
    | some q => p :: upwards n q

/-- The path with every path above it, nearest first. -/
def ancestors (p : String) : List String :=
  upwards (p.toList.length + 1) p

/-- The path with a tilde at its start, alone or before a slash, replaced by the home directory. -/
def expandHome (home p : String) : String :=
  match p.toList with
  | ['~'] => home
  | '~' :: '/' :: cs => home ++ String.ofList ('/' :: cs)
  | _ => p

end PlugWatch.Path
