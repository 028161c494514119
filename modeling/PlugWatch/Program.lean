import PlugWatch.CommandLine
import PlugWatch.Config.Storage
import PlugWatch.EventLoop
import PlugWatch.Bus.Usb.Listing
import PlugWatch.Log.Directive
import PlugWatch.Watch.Registration

/-! # The program

  What becomes of a command line: the standard configuration is saved, the devices on the bus are
  listed, or the bus is **monitored**. Monitoring registers the watches, one for each of the
  configuration, makes passes of the event loop until they come to an end, and takes the
  registrations down without telling them.
-/

namespace PlugWatch

namespace Program

/-- The name of the program. -/
def name : String :=
  "usb-hotplug-monitor"

/-- The version of the program. -/
def version : String :=
  "0.1.0"

/-- What the options are. -/
def help : List String :=
  ["USB hotplug monitor - report device arrival and removal", "",
    s!"Usage: {name} [OPTIONS]", "",
    "Options:",
    "  -c, --config <PATH>      Path to configuration file",
    "      --save-config        Save default configuration to default location and exit",
    "      --list-devices       List USB devices and exit",
    "  -l, --log-level <LEVEL>  Log level (trace, debug, info, warn, error)",
    "  -h, --help               Print help",
    "  -V, --version            Print version"]

/-! ## Monitoring -/

/-- Registers the watches and makes passes of the event loop. If a watch is refused, no pass is
    made. -/
def monitor (c : Config) (passes : List (Walk UsbBus (EventLoop.Pass Unit))) :
    Walk UsbBus (Except Report Unit) := do
  if !(← get).bus.hotplug then
    return .error { cause := .plain "Hot-plug notifications are not supported on this platform" }
  match ← EventLoop.start with
  | .error e =>
    return .error ((EventLoop.startReport e).within "Failed to start hotplug event thread")
  | .ok listening =>
    let registered ← Watch.registerAll c.watches
    match registered with
    | .error why =>
      discard <| EventLoop.run listening ([] : List (Walk UsbBus (EventLoop.Pass Unit)))
      modify (·.teardown)
      return .error why.report
    | .ok handles =>
      EventLoop.log .program .info s!"{handles.length} watch(es) active, press Ctrl+C to stop"
      discard <| EventLoop.run listening passes
      modify (·.teardown)
      EventLoop.log .program .info "Monitor shutdown complete"
      return .ok ()

/-! ## Outcomes -/

/-- What the program finds. -/
structure World where
  environment : Environment
  files : FileTree
  bus : UsbBus
  /-- What happens while the bus is monitored. -/
  passes : List (Walk UsbBus (EventLoop.Pass Unit)) := []

/-- What a run of the program leaves. -/
structure Outcome where
  /-- Zero for success, one for a failure that is reported, two for a mistaken command line, and 101
      for a failure that nobody was prepared for. -/
  code : Nat := 0
  /-- What happened, oldest first. -/
  history : List Happening := []
  /-- The log filter that was set up. -/
  logFilter : LogFilter := []
  /-- What is reported at the end. -/
  report : Option Report := none
  files : FileTree

namespace Outcome

/-- Whether a log entry passes the filter. -/
def shows (o : Outcome) (e : LogEntry) : Bool :=
  o.logFilter.passes e

/-- What a happening leaves on the output, where log entries have a stamp in front. -/
def textOf (o : Outcome) (stamp : String) : Happening → Option String
  | .printed line => some line
  | .logged e => if o.shows e then some s!"{stamp}{e.level.label} {e.text}" else none
  | _ => none

/-- The text on the output: lines printed and log entries in the order in which they came. -/
def output (o : Outcome) (stamp : String) : String :=
  String.join ((o.history.filterMap (o.textOf stamp)).map (· ++ "\n"))

end Outcome

/-- A run that printed lines and was successful. -/
def printing (files : FileTree) (lines : List String) : Outcome where
  history := lines.map .printed
  files := files

/-- A run that failed. -/
def failing (files : FileTree) (r : Report) : Outcome where
  code := 1
  report := some r
  files := files

/-- A run that failed in a way that nobody was prepared for. -/
def abandoned (files : FileTree) : Outcome where
  code := 101
  files := files

/-! ## Runs -/

/-- Saves the standard configuration at the user's place. -/
def saveStandard (w : World) : Outcome :=
  let path := Config.userPath w.environment
  match Config.standard.save w.files path with
  | (.error e, files) =>
    match e.report? with
    | some r => failing files (r.within "Failed to save configuration")
    | none => abandoned files
  | (.ok (), files) => printing files [s!"Configuration saved to: {path}"]

/-- The configuration to go by: the one asked for, or else the usual one. -/
def configure (w : World) (o : CommandLine) : Except Report Config :=
  match o.config with
  | some path =>
    match Config.load w.environment w.files (some path) with
    | .ok (_, c) => .ok c
    | .error e => .error (e.report.within "Failed to load configuration")
  | none => .ok (Config.loadOrStandard w.environment w.files).1

/-- Lists the devices on the bus. -/
def list (w : World) : Outcome :=
  let s := w.bus.survey
  let log := s.log.map Happening.logged
  match s.found with
  | .error e =>
    { code := 1, history := log, files := w.files
      report := some { contexts := ["Failed to enumerate devices"]
                       cause := .failure (UsbBus.refusal e) } }
  | .ok found =>
    { history := log ++ (s.bus.listing found).map .printed, files := w.files }

/-- Monitors the bus. -/
def watch (w : World) (c : Config) : Outcome :=
  match (monitor c w.passes).run { bus := w.bus } with
  | .ok (.ok ()) r => { history := r.history.toList, files := w.files }
  | .ok (.error report) r =>
    { code := 1, history := r.history.toList, report := some report, files := w.files }
  | .error _ r => { code := 1, history := r.history.toList, files := w.files }

/-- What the program logs first. -/
def greeting (level : String) : List Happening :=
  [s!"{name} v{version}", s!"Log level: {level}"].map fun message =>
    .logged { level := .info, source := .program, message }

/-- Does what the options ask for. Saving comes before everything else; otherwise the configuration
    is loaded, the log is set up and the bus is opened before anything is done with the bus. -/
def execute (w : World) (o : CommandLine) : Outcome :=
  if o.saveConfig then saveStandard w
  else
    match configure w o with
    | .error r => failing w.files r
    | .ok c =>
      let level := o.logLevel.getD c.settings.logLevel
      match LogFilter.install none w.environment.logFilter level with
      | .error (.failed f) =>
        failing w.files { contexts := ["Failed to setup logging"], cause := .failure f }
      | .error .torn => abandoned w.files
      | .ok logFilter =>
        let outcome :=
          match w.bus.openError with
          | some e =>
            failing w.files { contexts := ["Failed to create USB context"], cause := .usb e }
          | none => if o.listDevices then list w else watch w c
        { outcome with logFilter, history := greeting level ++ outcome.history }

/-- Runs the program. -/
def run (w : World) (arguments : List String) : Outcome :=
  match CommandLine.parse arguments with
  | .error .version => printing w.files [s!"{name} {version}"]
  | .error .help => printing w.files help
  | .error .mistaken => { code := 2, files := w.files }
  | .ok o => execute w o

end Program

end PlugWatch
