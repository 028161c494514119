import PlugWatch.Text.Terminal

/-! # Log entries

  What the program reports about its own work: a **level**, the **source** that wrote it, a message
  and, for the lines of a watch, the name of that watch.
-/

namespace PlugWatch

/-- The weight of a log entry, most verbose first. -/
inductive LogLevel where
  | trace
  | debug
  | info
  | warn
  | error
  deriving DecidableEq, Repr

/-- The level in lower case, as it is written in settings. -/
def LogLevel.word : LogLevel → String
  | .trace => "trace"
  | .debug => "debug"
  | .info => "info"
  | .warn => "warn"
  | .error => "error"

/-- The level in upper case, as it stands in a log line. -/
def LogLevel.label : LogLevel → String
  | .trace => "TRACE"
  | .debug => "DEBUG"
  | .info => "INFO"
  | .warn => "WARN"
  | .error => "ERROR"

/-- The part of the program that wrote an entry. -/
inductive LogSource where
  /-- The registry of those who want to hear of changes. -/
  | registry
  /-- The command line and what it starts. -/
  | program
  /-- Loading and saving the configuration. -/
  | config
  | watch
  /-- The list of the devices on the USB bus. -/
  | listing
  /-- The listener to the USB bus. -/
  | listener
  | eventLoop
  deriving DecidableEq, Repr

/-- The **target** of a source, by which log filters know it. -/
def LogSource.target : LogSource → String
  | .registry => "hotplug::registry"
  | .program => "usb_hotplug_monitor"
  | .config => "usb_hotplug_monitor::config"
  | .watch => "usb_hotplug_monitor::watch"
  | .listing => "usb_hotplug_monitor::usb::backend"
  | .listener => "usb_hotplug_monitor::usb::watcher"
  | .eventLoop => "usb_hotplug_monitor::usb::worker"

/-- One entry of the log. -/
structure LogEntry where
  level : LogLevel
  source : LogSource
  message : String
  /-- The watch on whose behalf the entry was written. -/
  watch : Option String := none
  deriving DecidableEq, Repr

/-- What an entry says: its message, made fit for terminals, and its watch as it is, if there is
    one. -/
def LogEntry.text (e : LogEntry) : String :=
  match e.watch with
  | none => Text.shown e.message
  | some name => s!"{Text.shown e.message} watch={name}"

/-- The fields of an entry. -/
def LogEntry.fields (e : LogEntry) : List String :=
  match e.watch with
  | none => ["message"]
  | some _ => ["message", "watch"]

end PlugWatch
