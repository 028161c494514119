import PlugWatch.Log

/-! # The command line

  Options come one after the other, in any order, each at most once. A **short** option is one
  letter behind a hyphen, a **long** one a word behind two. The value of an option follows it: in
  the same argument, behind an equals sign or, for a short one, at once; or as the next argument,
  which must not look like an option. Reading ends at the first request for the version or for help,
  and at the first mistake.
-/

namespace PlugWatch

/-- What the command line asks for. -/
structure CommandLine where
  /-- Where the configuration is. -/
  config : Option String := none
  saveConfig : Bool := false
  listDevices : Bool := false
  logLevel : Option String := none
  deriving DecidableEq, Repr

namespace CommandLine

/-- Why a command line asks for nothing. -/
inductive Ending where
  /-- The version is to be shown, and nothing else. -/
  | version
  /-- The options are to be explained, and nothing else. -/
  | help
  /-- It is not understood. -/
  | mistaken
  deriving DecidableEq, Repr

/-! ## Options -/

/-- An option that takes a value. -/
inductive Setting where
  | config
  | logLevel
  deriving DecidableEq, Repr

/-- An option that takes none. -/
inductive Switch where
  | saveConfig
  | listDevices
  | version
  | help
  deriving DecidableEq, Repr

/-- An option. -/
inductive Opt where
  | setting (s : Setting)
  | switch (s : Switch)
  deriving DecidableEq, Repr

/-- The option of a word. -/
def long? : String → Option Opt
  | "config" => some (.setting .config)
  | "log-level" => some (.setting .logLevel)
  | "save-config" => some (.switch .saveConfig)
  | "list-devices" => some (.switch .listDevices)
  | "version" => some (.switch .version)
  | "help" => some (.switch .help)
  | _ => none

/-- The option of a letter. -/
def short? : Char → Option Opt
  | 'c' => some (.setting .config)
  | 'l' => some (.setting .logLevel)
  | 'V' => some (.switch .version)
  | 'h' => some (.switch .help)
  | _ => none

/-- Gives an option its value. It must not have one yet, and a path must not be empty. -/
def give (o : CommandLine) (s : Setting) (value : String) : Except Ending CommandLine :=
  match s with
  | .config =>
    if o.config.isSome ∨ value = "" then .error .mistaken else .ok { o with config := some value }
  | .logLevel =>
    if o.logLevel.isSome then .error .mistaken else .ok { o with logLevel := some value }

/-- Turns an option on. It must not be on yet. -/
def turnOn (o : CommandLine) : Switch → Except Ending CommandLine
  | .saveConfig => if o.saveConfig then .error .mistaken else .ok { o with saveConfig := true }
  | .listDevices => if o.listDevices then .error .mistaken else .ok { o with listDevices := true }
  | .version => .error .version
  | .help => .error .help

/-! ## Arguments -/

/-- What an argument is. -/
inductive Argument where
  /-- Two hyphens: no option comes any more. -/
  | escape
  /-- A word behind two hyphens, and what stands behind an equals sign. -/
  | long (word : String) (value : Option String)
  /-- A letter behind a hyphen, and what else stands there. -/
  | short (letter : Char) (rest : List Char)
  /-- Anything else. -/
  | plain (text : String)
  deriving DecidableEq, Repr

/-- What an argument is. -/
def Argument.ofString (text : String) : Argument :=
  match text.toList with
  | ['-', '-'] => .escape
  | '-' :: '-' :: cs =>
    let word := String.ofList (cs.takeWhile (· != '='))
    match cs.dropWhile (· != '=') with
    | [] => .long word none
    | _ :: value => .long word (some (String.ofList value))
  | '-' :: c :: cs => .short c cs
  | _ => .plain text

/-- The value that stands behind the letter of an option. -/
def shortValue? : List Char → Option String
  | [] => none
  | '=' :: cs => some (String.ofList cs)
  | cs => some (String.ofList cs)

/-- What has been read so far, and the option that waits for its value. -/
structure Progress where
  options : CommandLine := {}
  waiting : Option Setting := none

namespace Progress

/-- Nothing may come while an option waits for its value. -/
def settled (p : Progress) : Except Ending CommandLine :=
  match p.waiting with
  | none => .ok p.options
  | some _ => .error .mistaken

/-- Reads an option that takes a value. -/
def setting (o : CommandLine) (s : Setting) (value : Option String) : Except Ending Progress :=
  match value with
  | none => .ok { options := o, waiting := some s }
  | some v => (o.give s v).map fun o => { options := o }

/-- Reads one argument. -/
def read (p : Progress) : Argument → Except Ending Progress
  | .escape => (fun o => { options := o }) <$> p.settled
  | .plain text =>
    match p.waiting with
    | some s => setting p.options s (some text)
    | none => .error .mistaken
  | .long word value => do
    let o ← p.settled
    match long? word, value with
    | some (.setting s), value => setting o s value
    | some (.switch s), none => return { options := ← o.turnOn s }
    | some (.switch _), some _ => .error .mistaken
    | none, _ => .error .mistaken
  | .short letter rest => do
    let o ← p.settled
    match short? letter with
    | some (.setting s) => setting o s (shortValue? rest)
    | some (.switch s) =>
      let o ← o.turnOn s
      if rest = [] then return { options := o } else .error .mistaken
    | none => .error .mistaken

end Progress

/-- Reads arguments; behind two hyphens alone nothing may stand. -/
def readFrom (p : Progress) : List String → Except Ending CommandLine
  | [] => p.settled
  | text :: texts =>
    match Argument.ofString text with
    | .escape =>
      if texts = [] then p.settled else .error .mistaken
    | a =>
      match p.read a with
      | .error e => .error e
      | .ok p => readFrom p texts

/-- Reads a command line. -/
def parse (arguments : List String) : Except Ending CommandLine :=
  readFrom {} arguments

end CommandLine

end PlugWatch
