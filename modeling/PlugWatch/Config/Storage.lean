import PlugWatch.Config.Document
import PlugWatch.Files

/-! # Loading and saving

  Where configurations are kept. One that is asked for by name is read from there; otherwise the
  first of two usual places counts at which something lies. Saving makes the directory if need be.
-/

namespace PlugWatch

/-- What the program is told by its surroundings. -/
structure Environment where
  /-- The home directory. -/
  home : String
  /-- The directory for configurations; it counts if it is an absolute path. -/
  configHome : Option String := none
  /-- The log filter asked for. -/
  logFilter : Option String := none
  deriving DecidableEq, Repr

namespace Config

/-! ## Places -/

/-- The place of a user's own configuration. -/
def userPath (env : Environment) : String :=
  let base := Path.join env.home ".config"
  let base :=
    match env.configHome with
    | some p => if Path.isAbsolute p then p else base
    | none => base
  Path.join (Path.join base "usb-hotplug") "monitor.toml"

/-- The place of the configuration for all users. -/
def systemPath : String :=
  "/etc/usb-hotplug/monitor.toml"

/-! ## Loading -/

/-- Why no configuration was loaded. -/
inductive LoadError where
  /-- Nothing lies at the usual places. -/
  | missing
  | unreadable (path : String) (why : FileError)
  | malformed (path : String)
  | invalid (why : Invalid)
  deriving DecidableEq, Repr

/-- What is reported when no configuration was loaded. -/
def LoadError.report : LoadError → Report
  | .missing => { cause := .plain "No configuration file found, using defaults" }
  | .unreadable p why =>
    { contexts := [s!"Failed to read config file: {p}"], cause := .file why }
  | .malformed p => { contexts := [s!"Failed to parse config file: {p}"], cause := .document }
  | .invalid why => why.report

/-- The log entry of a configuration that was loaded. -/
def loadedEntry (path : String) : LogEntry where
  level := .info
  source := .config
  message := s!"Loaded configuration from: {path}"

/-- The place to load from: the one asked for, or the first usual one at which something lies. -/
def place? (env : Environment) (t : FileTree) : Option String → Except LoadError String
  | some path => .ok (Path.expandHome env.home path)
  | none =>
    match [userPath env, systemPath].find? t.has with
    | some path => .ok path
    | none => .error .missing

/-- The configuration at a place. -/
def readAt (t : FileTree) (path : String) (toml : Toml.Library := .checked) :
    Except LoadError Config :=
  match t.readText path with
  | .error why => .error (.unreadable path why)
  | .ok text =>
    match parse? text toml with
    | none => .error (.malformed path)
    | some c =>
      match c.validate with
      | .error why => .error (.invalid why)
      | .ok () => .ok c

/-- Loads a configuration; tells also from where. -/
def load (env : Environment) (t : FileTree) (path : Option String)
    (toml : Toml.Library := .checked) : Except LoadError (String × Config) :=
  match place? env t path with
  | .error e => .error e
  | .ok p => (readAt t p toml).map fun c => (p, c)

/-- Loads the configuration from a usual place, or takes the standard one; with a log entry. -/
def loadOrStandard (env : Environment) (t : FileTree) : Config × LogEntry :=
  match load env t none with
  | .ok (p, c) => (c, loadedEntry p)
  | .error e =>
    let entry : LogEntry :=
      { level := .warn, source := .config
        message := s!"Failed to load config: {e.report.message}, using defaults" }
    (standard, entry)

/-! ## Saving -/

/-- Why a configuration was not saved. -/
inductive SaveError where
  | text (why : Toml.WriteError)
  | directory (path : String) (why : FileError)
  | file (path : String) (why : FileError)
  deriving DecidableEq, Repr

/-- What is reported when a configuration was not saved. A program that was stopped reports
    nothing. -/
def SaveError.report? : SaveError → Option Report
  | .text .unwritable =>
    some { contexts := ["Failed to serialize configuration"], cause := .document }
  | .text .aborted => none
  | .directory p why =>
    some { contexts := [s!"Failed to create config directory: {p}"], cause := .file why }
  | .file p why => some { contexts := [s!"Failed to write config file: {p}"], cause := .file why }

/-- The log entry of a configuration that was saved. -/
def savedEntry (path : String) : LogEntry where
  level := .info
  source := .config
  message := s!"Saved configuration to: {path}"

/-- Makes the directory in which a path lies. -/
def prepare (t : FileTree) (path : String) : Except SaveError Unit × FileTree :=
  match Path.parent? path with
  | none => (.ok (), t)
  | some p =>
    match t.makeDirectories p with
    | (.ok (), t) => (.ok (), t)
    | (.error why, t) => (.error (.directory p why), t)

/-- Saves a configuration. Nothing is touched if its text cannot be written. -/
def save (c : Config) (t : FileTree) (path : String) (toml : Toml.Library := .checked) :
    Except SaveError Unit × FileTree :=
  match c.write toml with
  | .error why => (.error (.text why), t)
  | .ok text =>
    match prepare t path with
    | (.error e, t) => (.error e, t)
    | (.ok (), t) =>
      match t.write path text.toUTF8 with
      | .ok t => (.ok (), t)
      | .error why => (.error (.file path why), t)

end Config

end PlugWatch
