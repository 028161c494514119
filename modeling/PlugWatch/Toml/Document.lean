import PlugWatch.Toml.Lexical
import PlugWatch.Toml.Number
import PlugWatch.Toml.Quoted
import PlugWatch.Toml.Table

/-! # Documents

  A TOML document is a sequence of entries, cut into **sections** by headers. This module reads the
  sections from text, builds the table that they describe, and writes sections back as text.

  Arrays and tables in braces may lie within each other to a limited depth, and keys have a limited
  number of parts. The bounds on the loops below are lengths of the text that is left; every round
  takes at least one character, so they are never reached.
-/

namespace PlugWatch.Toml

/-- How deep arrays and tables in braces may lie within each other. -/
def maxDepth : Nat := 79

/-- How many parts a key may have. -/
def maxParts : Nat := 79

/-! ## Sections -/

/-- The line that opens a section. -/
inductive Header where
  /-- A table. -/
  | table (key : Key)
  /-- One more table of an array. -/
  | element (key : Key)
  deriving DecidableEq, Repr

/-- A header with the entries below it. -/
structure Section where
  header : Header
  entries : List (Key × Value)
  deriving Repr

/-- The entries above the first header, and the sections. -/
structure Document where
  entries : List (Key × Value) := []
  sections : List Section := []
  deriving Repr

/-! ## Reading keys -/

/-- Whether a character may stand in a key without quotes. -/
def isKeyChar (c : Char) : Bool :=
  c.isAlphanum || c == '_' || c == '-'

/-- One part of a key, and what is left. -/
def part? (cs : List Char) : Option (String × List Char) :=
  match readOneLine? cs with
  | some (text, rest) => some (String.ofList text, rest)
  | none =>
    match cs.takeWhile isKeyChar with
    | [] => none
    | bare => some (String.ofList bare, cs.dropWhile isKeyChar)

/-- The parts of a key between dots, with spaces around them, and what is left. -/
def parts? : (bound : Nat) → List Char → Option (List String × List Char)
  | 0, _ => none
  | n + 1, cs => do
    let (part, rest) ← part? (skipSpace cs)
    match skipSpace rest with
    | '.' :: rest =>
      let (parts, rest) ← parts? n rest
      return (part :: parts, rest)
    | rest => return ([part], rest)

/-- A key, and what is left. -/
def key? (cs : List Char) : Option (Key × List Char) := do
  let (parts, rest) ← parts? maxParts cs
  let name ← parts.getLast?
  return ({ path := parts.dropLast, name }, rest)

/-! ## Reading values -/

/-- The items of an array up to its closing bracket, and what is left. -/
def items? (item : List Char → Option (Value × List Char)) :
    (bound : Nat) → List Char → Option (List Value × List Char)
  | 0, _ => none
  | n + 1, cs => do
    let cs ← skipGap? false cs
    match cs with
    | ']' :: rest => return ([], rest)
    | _ =>
      let (v, rest) ← item cs
      match ← skipGap? false rest with
      | ',' :: rest =>
        let (vs, rest) ← items? item n rest
        return (v :: vs, rest)
      | ']' :: rest => return ([v], rest)
      | _ => none

/-- A key, an equals sign and a value with spaces around it, and what is left. -/
def pair? (item : List Char → Option (Value × List Char)) (cs : List Char) :
    Option ((Key × Value) × List Char) := do
  let (k, rest) ← key? cs
  let rest ← expect '=' rest
  let (v, rest) ← item (skipSpace rest)
  return ((k, v), skipSpace rest)

/-- The entries of a table up to its closing brace, and what is left. -/
def pairs? (item : List Char → Option (Value × List Char)) :
    (bound : Nat) → List Char → Option (List (Key × Value) × List Char)
  | 0, _ => none
  | n + 1, cs => do
    let (p, rest) ← pair? item cs
    match rest with
    | ',' :: rest =>
      let (ps, rest) ← pairs? item n rest
      return (p :: ps, rest)
    | '\x7d' :: rest => return ([p], rest)
    | _ => none

/-- A value that has no values within it, and what is left. -/
def scalar? : List Char → Option (Value × List Char)
  | 't' :: 'r' :: 'u' :: 'e' :: rest => some (.boolean true, rest)
  | 'f' :: 'a' :: 'l' :: 's' :: 'e' :: rest => some (.boolean false, rest)
  | cs =>
    match readString? cs with
    | some (text, rest) => some (.string (String.ofList text), rest)
    | none => number? cs

/-- A value with at most so many levels of brackets and braces, and what is left. -/
def value? : (depth : Nat) → List Char → Option (Value × List Char)
  | 0, cs => scalar? cs
  | d + 1, cs =>
    match cs with
    | '[' :: rest =>
      (items? (value? d) (rest.length + 1) rest).map fun (vs, rest) => (.array vs, rest)
    | '\x7b' :: rest =>
      match skipSpace rest with
      | '\x7d' :: rest => some (.table .braces [], rest)
      | rest => do
        let (ps, rest) ← pairs? (value? d) (rest.length + 1) rest
        let t ← Table.defineAll [] ps
        return (.table .braces t, rest)
    | cs => scalar? cs

/-! ## Reading sections -/

/-- The header that starts here, up to the end of its line, and what is left. -/
def header? : List Char → Option (Header × List Char)
  | '[' :: '[' :: cs => do
    let (k, rest) ← key? cs
    let rest ← expect ']' rest
    let rest ← expect ']' rest
    return (.element k, ← lineEnd? rest)
  | '[' :: cs => do
    let (k, rest) ← key? cs
    let rest ← expect ']' rest
    return (.table k, ← lineEnd? rest)
  | _ => none

/-- The entries and sections of a text. -/
def lines? : (bound : Nat) → List Char → Option Document
  | 0, _ => none
  | n + 1, cs =>
    match skipSpace cs with
    | [] => some {}
    | '#' :: rest => do lines? n (← lineEnd? ('#' :: rest))
    | '[' :: rest => do
      let (header, rest) ← header? ('[' :: rest)
      let d ← lines? n rest
      return { entries := [], sections := { header, entries := d.entries } :: d.sections }
    | c :: rest =>
      match newline? (c :: rest) with
      | some rest => lines? n rest
      | none => do
        let (p, rest) ← pair? (value? maxDepth) (c :: rest)
        let d ← lines? n (← lineEnd? rest)
        return { d with entries := p :: d.entries }

/-- Reads a document. A byte order mark in front does not count. -/
def Document.parse (s : String) : Option Document :=
  let cs := match s.toList with
    | '\uFEFF' :: cs => cs
    | cs => cs
  lines? (cs.length + 1) cs

/-! ## Building the table -/

/-- Adds a section to the table of a document. -/
def Table.addSection (t : Table) (s : Section) : Option Table :=
  match s.header with
  | .table k => t.change (Table.openTable k.name s.entries) k.path
  | .element k => t.change (Table.openElement k.name s.entries) k.path

/-- The table that a document describes. -/
def Document.table? (d : Document) : Option Table := do
  let t ← Table.defineAll [] d.entries
  d.sections.foldlM Table.addSection t

/-- Reads the table that a text describes. -/
def Table.parse (s : String) : Option Table := do
  (← Document.parse s).table?

end PlugWatch.Toml
