import PlugWatch.Toml.Document

/-! # Writing documents

  An entry takes a line. An array of two or more items takes a line for each of them, indented and
  with a comma behind every one; shorter arrays, and what lies within an array, stay on one line.
  A blank line stands above each header that is not the first line.
-/

namespace PlugWatch.Toml

/-! ## Keys -/

/-- One part of a key, between quotes if it has to be. -/
def writePart (part : String) : List Char :=
  let cs := part.toList
  if !cs.isEmpty && cs.all isKeyChar then cs else Style.basic.write cs

/-- A key with dots between its parts. -/
def Key.write (k : Key) : List Char :=
  (k.path.flatMap fun p => writePart p ++ ['.']) ++ writePart k.name

/-! ## Values -/

mutual

/-- A value on one line. -/
def Value.writeInline : Value → List Char
  | .string text => writeString text.toList
  | .integer n => (toString n).toList
  | .float text => text.toList
  | .boolean b => (toString b).toList
  | .dateTime text => text.toList
  | .array items => '[' :: writeItems items ++ [']']
  | .table _ entries => '\x7b' :: writeEntries entries ++ ['\x7d']
  | .tables items => '[' :: writeTables items ++ [']']

/-- Values with commas between them. -/
def writeItems : List Value → List Char
  | [] => []
  | v :: vs => v.writeInline ++ (if vs.isEmpty then [] else [',', ' ']) ++ writeItems vs

/-- Entries with commas between them. -/
def writeEntries : List (String × Value) → List Char
  | [] => []
  | (k, v) :: es =>
    writePart k ++ [' ', '=', ' '] ++ v.writeInline ++
      (if es.isEmpty then [] else [',', ' ']) ++ writeEntries es

/-- Tables with commas between them. -/
def writeTables : List (List (String × Value)) → List Char
  | [] => []
  | t :: ts =>
    '\x7b' :: writeEntries t ++ ['\x7d'] ++ (if ts.isEmpty then [] else [',', ' ']) ++
      writeTables ts

end

/-- An item on a line of its own. -/
def writeItemLine (v : Value) : List Char :=
  [' ', ' ', ' ', ' '] ++ v.writeInline ++ [',', '\n']

/-- The value of an entry. -/
def Value.write : Value → List Char
  | .array (v :: w :: vs) => ['[', '\n'] ++ (v :: w :: vs).flatMap writeItemLine ++ [']']
  | v => v.writeInline

/-! ## Lines -/

/-- An entry and the end of its line. -/
def writeEntry (e : Key × Value) : List Char :=
  e.1.write ++ [' ', '=', ' '] ++ e.2.write ++ ['\n']

/-- A header and the end of its line. -/
def Header.write : Header → List Char
  | .table k => '[' :: k.write ++ [']', '\n']
  | .element k => ['[', '['] ++ k.write ++ [']', ']', '\n']

/-- A header with the entries below it. -/
def Section.write (s : Section) : List Char :=
  s.header.write ++ s.entries.flatMap writeEntry

/-- Sections with a blank line above each; the first has one only if something is above it. -/
def writeSections (above : Bool) : List Section → List Char
  | [] => []
  | s :: ss => (if above then ['\n'] else []) ++ s.write ++ writeSections true ss

/-- The text of a document. -/
def Document.write (d : Document) : String :=
  String.ofList (d.entries.flatMap writeEntry ++ writeSections (!d.entries.isEmpty) d.sections)

end PlugWatch.Toml
