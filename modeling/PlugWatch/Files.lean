import PlugWatch.Failure
import PlugWatch.Files.Path

/-! # File trees

  A tree of directories and files, and the operations on it that the program needs. An operation may
  fail half-way; what it has done until then stays.
-/

namespace PlugWatch

/-- The names on the way from the root. -/
abbrev Location := List String

/-- What lies at a location. -/
inductive FileNode where
  | directory
  | file (content : ByteArray)

/-- A tree of files, seen from a working directory. The root is always there. -/
structure FileTree where
  /-- Everything below the root. -/
  nodes : List (Location × FileNode) := []
  /-- Where relative paths start. -/
  working : Location := []

namespace FileTree

/-! ## Looking -/

/-- What lies at a location. -/
def node? (t : FileTree) (l : Location) : Option FileNode :=
  if l = [] then some .directory else t.nodes.lookup l

/-- Whether a directory lies at a location. -/
def isDirectory (t : FileTree) (l : Location) : Bool :=
  match t.node? l with
  | some .directory => true
  | _ => false

/-- Puts something at a location. -/
def put (t : FileTree) (l : Location) (n : FileNode) : FileTree :=
  { t with nodes := (l, n) :: t.nodes.filter (·.1 != l) }

/-- Follows the parts of a path. Only directories have something below them. -/
def follow (t : FileTree) (l : Location) : List String → Except FileError Location
  | [] => .ok l
  | part :: parts =>
    match t.node? l with
    | some .directory =>
      if part = "" ∨ part = "." then t.follow l parts
      else if part = ".." then t.follow l.dropLast parts
      else
        match t.node? (l ++ [part]) with
        | some _ => t.follow (l ++ [part]) parts
        | none => .error .notFound
    | _ => .error .notADirectory

/-- Where a path starts. -/
def origin (t : FileTree) (path : String) : Location :=
  if Path.isAbsolute path then [] else t.working

/-- The location that a path leads to. -/
def locate (t : FileTree) (path : String) : Except FileError Location :=
  if path = "" then .error .notFound else t.follow (t.origin path) (Path.parts path)

/-- Whether a path leads anywhere. -/
def has (t : FileTree) (path : String) : Bool :=
  (t.locate path).isOk

/-- Whether a path leads to a directory. -/
def hasDirectory (t : FileTree) (path : String) : Bool :=
  match t.locate path with
  | .ok l => t.isDirectory l
  | .error _ => false

/-- The content of a file. -/
def read (t : FileTree) (path : String) : Except FileError ByteArray :=
  match t.locate path with
  | .error e => .error e
  | .ok l =>
    match t.node? l with
    | some (.file content) => .ok content
    | some .directory => .error .isADirectory
    | none => .error .notFound

/-- The text in a file. -/
def readText (t : FileTree) (path : String) : Except FileError String :=
  match t.read path with
  | .error e => .error e
  | .ok content =>
    match String.fromUTF8? content with
    | some text => .ok text
    | none => .error .invalidData

/-! ## Changing -/

/-- The parts of a path up to the last that names something, and that name. -/
def splitName (path : String) : Option (List String × String) :=
  match (Path.parts path).reverse.dropWhile (· == "") with
  | [] => none
  | name :: above => some (above.reverse, name)

/-- The directory that the parts of a path lead to. -/
def enter (t : FileTree) (l : Location) (parts : List String) : Except FileError Location :=
  match t.follow l parts with
  | .error e => .error e
  | .ok l => if t.isDirectory l then .ok l else .error .notADirectory

/-- The directory and the name under which something new is to be made. -/
def vacancy (t : FileTree) (path : String) : Except FileError (Location × String) :=
  match splitName path with
  | none => .error .alreadyExists
  | some (above, name) =>
    match t.enter (t.origin path) above with
    | .error e => .error e
    | .ok l => if name = "." ∨ name = ".." then .error .alreadyExists else .ok (l, name)

/-- Makes a directory. -/
def makeDirectory (t : FileTree) (path : String) : Except FileError FileTree :=
  match t.vacancy path with
  | .error e => .error e
  | .ok (l, name) =>
    match t.node? (l ++ [name]) with
    | some _ => .error .alreadyExists
    | none => .ok (t.put (l ++ [name]) .directory)

/-- Makes the first directory of a list, and those above it, which follow in the list, as far as
    they are missing. -/
def makeFirst (t : FileTree) : List String → Except FileError Unit × FileTree
  | [] => (.error .notFound, t)
  | p :: ps =>
    if p = "" then (.ok (), t)
    else
      match t.makeDirectory p with
      | .ok t => (.ok (), t)
      | .error .notFound =>
        match t.makeFirst ps with
        | (.error e, t) => (.error e, t)
        | (.ok (), t) =>
          match t.makeDirectory p with
          | .ok t => (.ok (), t)
          | .error e => (if t.hasDirectory p then .ok () else .error e, t)
      | .error e => (if t.hasDirectory p then .ok () else .error e, t)

/-- Makes a directory and those above it, as far as they are missing. -/
def makeDirectories (t : FileTree) (path : String) : Except FileError Unit × FileTree :=
  t.makeFirst (Path.ancestors path)

/-- Makes or replaces a file. A path that ends in a slash, or in dots, is that of a directory. -/
def write (t : FileTree) (path : String) (content : ByteArray) : Except FileError FileTree :=
  if path = "" then .error .notFound
  else
    match splitName path with
    | none => .error .isADirectory
    | some (above, name) =>
      match t.enter (t.origin path) above with
      | .error e => .error e
      | .ok l =>
        if name = "." ∨ name = ".." ∨ path.toList.getLast? = some '/' then .error .isADirectory
        else
          match t.node? (l ++ [name]) with
          | some .directory => .error .isADirectory
          | _ => .ok (t.put (l ++ [name]) (.file content))

/-- Puts a file into its place, with the directories above it. What is in the way stays. -/
def place (t : FileTree) (path : String) (content : ByteArray) : FileTree :=
  let t :=
    match Path.parent? path with
    | some p => (t.makeDirectories p).2
    | none => t
  match t.write path content with
  | .ok t => t
  | .error _ => t

end FileTree

end PlugWatch
