import PlugWatch.Log
import PlugWatch.Watch

/-! # Configuration

  The settings of the monitor and its watches. A configuration is **valid** if the log level is one
  of five, the event loop waits at least a millisecond, and every watch has a name, a change to
  report and a filter.
-/

namespace PlugWatch

/-- The settings of the monitor. -/
structure Settings where
  logLevel : String
  /-- How long the event loop waits for the bus, in milliseconds. -/
  pollMillis : UInt64 := 100
  deriving DecidableEq, Repr

/-- What the monitor is told to do. -/
structure Config where
  settings : Settings
  watches : List Watch := []
  deriving DecidableEq, Repr

namespace Config

/-- Every device is reported, those present at the start too. -/
def standard : Config where
  settings := { logLevel := "info" }
  watches := [{ name := "all", enumerate := true }]

/-- The log levels a configuration may name. -/
def levels : List String :=
  [LogLevel.trace, .debug, .info, .warn, .error].map LogLevel.word

/-- Why a configuration is refused. -/
inductive Invalid where
  | logLevel (level : String)
  | pollMillis
  | watchName
  | watchChanges (name : String)
  | watchFilter (watch : Watch) (why : Watch.FilterError)
  deriving DecidableEq, Repr

/-- What is reported when a configuration is refused. -/
def Invalid.report : Invalid → Report
  | .logLevel level =>
    let known := ", ".intercalate levels
    { cause := .plain s!"Invalid log level '{level}', must be one of: {known}" }
  | .pollMillis => { cause := .plain "poll_interval_ms must be greater than 0" }
  | .watchName => { cause := .plain "Empty name in [[watch]] entry" }
  | .watchChanges name => { cause := .plain s!"Watch '{name}' has an empty events list" }
  | .watchFilter w why => why.report w

/-- Name, changes and filter of a watch, in this order. -/
def checkWatch (w : Watch) : Except Invalid Unit :=
  if w.name = "" then .error .watchName
  else if w.changes = [] then .error (.watchChanges w.name)
  else
    match w.toFilter with
    | .ok _ => .ok ()
    | .error why => .error (.watchFilter w why)

/-- Log level, waiting time, then the watches in order. -/
def validate (c : Config) : Except Invalid Unit :=
  if c.settings.logLevel ∉ levels then .error (.logLevel c.settings.logLevel)
  else if c.settings.pollMillis = 0 then .error .pollMillis
  else c.watches.forM checkWatch

end Config

end PlugWatch
