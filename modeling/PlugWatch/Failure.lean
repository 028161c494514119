import PlugWatch.Filter
import PlugWatch.Text.Quoted

/-! # Failures

  Why an operation is refused. Each kind of failure is a **cause**; its wording is a function of the
  cause. A **report** is a cause with the contexts in which it was met, outermost first.
-/

namespace PlugWatch

/-! ## Refusals of the registry -/

/-- What is wrong with a parameter. -/
inductive ParameterFault where
  /-- A text is no field pattern. -/
  | pattern (why : Pattern.ParseError)
  /-- A filter is not valid. -/
  | filter (why : Filter.Invalid)
  /-- A change is asked for without a callback for it. -/
  | callbackMissing (change : Change)
  /-- Anything else, in words. -/
  | other (text : String)
  deriving DecidableEq, Repr

/-- The wording of a fault. -/
def ParameterFault.message : ParameterFault → String
  | .pattern why => why.message
  | .filter why => why.message
  | .callbackMissing .arrived => "ARRIVED requested without an arrival callback"
  | .callbackMissing .left => "LEFT requested without a removal callback"
  | .other text => text

/-- Why the registry, its mailbox or the log refuses to work. -/
inductive Failure where
  /-- The bus does not report changes. -/
  | unsupported
  | invalidParameter (fault : ParameterFault)
  | noMemory
  /-- The list of devices could not be had. -/
  | enumerationFailed (text : String)
  | channelWriteFailed (text : String)
  | channelReadFailed (text : String)
  | logging (text : String)
  deriving DecidableEq, Repr

namespace Failure

/-- The name of the kind of failure. -/
def name : Failure → String
  | unsupported => "Unsupported"
  | invalidParameter _ => "InvalidParameter"
  | noMemory => "NoMemory"
  | enumerationFailed _ => "EnumerationFailed"
  | channelWriteFailed _ => "ChannelWriteFailed"
  | channelReadFailed _ => "ChannelReadFailed"
  | logging _ => "Logging"

/-- What a failure says beyond its kind. -/
def detail : Failure → Option String
  | unsupported => none
  | invalidParameter fault => some fault.message
  | noMemory => none
  | enumerationFailed t => some t
  | channelWriteFailed t => some t
  | channelReadFailed t => some t
  | logging t => some t

/-- The wording of a failure. -/
def message : Failure → String
  | unsupported => "Hotplug is not supported on this platform"
  | invalidParameter fault => s!"Invalid parameter: {fault.message}"
  | noMemory => "Out of memory"
  | enumerationFailed t => s!"Device enumeration failed: {t}"
  | channelWriteFailed t => s!"Hotplug channel write failed: {t}"
  | channelReadFailed t => s!"Hotplug channel read failed: {t}"
  | logging t => s!"Logging setup failed: {t}"

/-- A failure for developers: its kind, with the detail in quotes. -/
def debug (f : Failure) : String :=
  match f.detail with
  | none => f.name
  | some t => s!"{f.name}({Text.quoted t})"

end Failure

/-! ## Errors of the USB layer -/

/-- Why a request to the USB layer failed. -/
inductive UsbError where
  | inputOutput
  | invalidParam
  | access
  | noDevice
  | notFound
  | busy
  | timeout
  | overflow
  | pipe
  | interrupted
  | noMem
  | notSupported
  | other
  deriving DecidableEq, Repr

namespace UsbError

/-- The error of a result code; zero is success. -/
def ofCode : Int → Option UsbError
  | 0 => none
  | -1 => some inputOutput
  | -2 => some invalidParam
  | -3 => some access
  | -4 => some noDevice
  | -5 => some notFound
  | -6 => some busy
  | -7 => some timeout
  | -8 => some overflow
  | -9 => some pipe
  | -10 => some interrupted
  | -11 => some noMem
  | -12 => some notSupported
  | _ => some other

/-- The name of an error. -/
def name : UsbError → String
  | inputOutput => "Io"
  | invalidParam => "InvalidParam"
  | access => "Access"
  | noDevice => "NoDevice"
  | notFound => "NotFound"
  | busy => "Busy"
  | timeout => "Timeout"
  | overflow => "Overflow"
  | pipe => "Pipe"
  | interrupted => "Interrupted"
  | noMem => "NoMem"
  | notSupported => "NotSupported"
  | other => "Other"

/-- The wording of an error. -/
def message : UsbError → String
  | inputOutput => "Input/Output Error"
  | invalidParam => "Invalid parameter"
  | access => "Access denied (insufficient permissions)"
  | noDevice => "No such device (it may have been disconnected)"
  | notFound => "Entity not found"
  | busy => "Resource busy"
  | timeout => "Operation timed out"
  | overflow => "Overflow"
  | pipe => "Pipe error"
  | interrupted => "System call interrupted (perhaps due to signal)"
  | noMem => "Insufficient memory"
  | notSupported => "Operation not supported or unimplemented on this platform"
  | other => "Other error"

end UsbError

/-! ## Errors of the file system -/

/-- Why a file or directory could not be used. -/
inductive FileError where
  | notFound
  | isADirectory
  | notADirectory
  | alreadyExists
  /-- The bytes are no UTF-8 text. -/
  | invalidData
  deriving DecidableEq, Repr

/-- The name of an error. -/
def FileError.name : FileError → String
  | .notFound => "NotFound"
  | .isADirectory => "IsADirectory"
  | .notADirectory => "NotADirectory"
  | .alreadyExists => "AlreadyExists"
  | .invalidData => "InvalidData"

/-- The wording of an error. -/
def FileError.message : FileError → String
  | .notFound => "No such file or directory"
  | .isADirectory => "Is a directory"
  | .notADirectory => "Not a directory"
  | .alreadyExists => "File exists"
  | .invalidData => "stream did not contain valid UTF-8"

/-! ## Reports -/

/-- Where a report ends. -/
inductive Cause where
  | failure (f : Failure)
  | usb (e : UsbError)
  | file (e : FileError)
  /-- A document could not be read or written. -/
  | document
  /-- A message without a cause below it. -/
  | plain (text : String)
  deriving DecidableEq, Repr

/-- The wording of a cause. -/
def Cause.message : Cause → String
  | .failure f => f.message
  | .usb e => e.message
  | .file e => e.message
  | .document => "TOML error"
  | .plain text => text

/-- A cause and the contexts in which it was met, outermost first. -/
structure Report where
  contexts : List String := []
  cause : Cause
  deriving DecidableEq, Repr

namespace Report

/-- The same report, met in a wider context. -/
def within (context : String) (r : Report) : Report :=
  { r with contexts := context :: r.contexts }

/-- The outermost text. -/
def message (r : Report) : String :=
  r.contexts.head?.getD r.cause.message

end Report

end PlugWatch
