import PlugWatch.Failure
import PlugWatch.Log
import PlugWatch.Text.Alphanumeric
import PlugWatch.Text.Blank
import PlugWatch.Text.Bytes
import PlugWatch.Text.Expression
import PlugWatch.Text.Numeral

/-! # Log filters

  Which entries are written, by the **target** that they come from. A filter is a list of directives
  with commas between them. A directive sets a **threshold**, the most verbose level that passes,
  for all targets whose names start with a text. Where none applies, nothing passes.

  Behind the target, brackets may hold the name of a **span**, a stretch of work within which
  entries are written, and in braces a **field**, with or without a value. A field alone restricts
  the directive to entries that have the field. A span or a value restricts it to entries within
  spans. No program here opens a span, so such a directive never applies.

  Where several directives apply, the one with the longest text for the target counts; of these one
  with a field before one without, and the field that comes last in alphabetical order; and of two
  that are alike in all this the later one.
-/

namespace PlugWatch

/-! ## Thresholds -/

/-- The most verbose level that passes; if there is none, nothing passes. -/
abbrev Threshold := Option LogLevel

namespace Threshold

/-- The threshold of a number, from nothing at all to everything. -/
def ofNumber : Nat → Option Threshold
  | 0 => some none
  | 1 => some (some .error)
  | 2 => some (some .warn)
  | 3 => some (some .info)
  | 4 => some (some .debug)
  | 5 => some (some .trace)
  | _ => none

/-- The threshold of a name in lower case. -/
def ofName : String → Option Threshold
  | "off" => some none
  | "error" => some (some .error)
  | "warn" => some (some .warn)
  | "info" => some (some .info)
  | "debug" => some (some .debug)
  | "trace" => some (some .trace)
  | _ => none

/-- The number in a text; a plus sign may stand in front. -/
def number? : List Char → Option Nat
  | '+' :: cs => Numeral.read 10 cs
  | cs => Numeral.read 10 cs

/-- Reads a threshold: a number, or a name in any case. -/
def read (cs : List Char) : Option Threshold :=
  match number? cs with
  | some n => ofNumber n
  | none => ofName (String.ofList (cs.map Char.toLower))

/-- The name of a threshold. -/
def name : Threshold → String
  | none => "off"
  | some level => level.word

/-- Whether an entry of some level passes. -/
def passes (t : Threshold) (level : LogLevel) : Bool :=
  match t with
  | none => false
  | some l => decide (l.ctorIdx ≤ level.ctorIdx)

end Threshold

/-! ## Directives -/

/-- One directive. -/
structure Directive where
  /-- What the names of targets start with; the empty text applies to all. -/
  target : List Char
  threshold : Threshold
  /-- The field that entries must have. -/
  field : Option String := none
  /-- Whether it is only for entries within spans. -/
  spanned : Bool := false
  deriving DecidableEq, Repr

namespace Directive

/-! ### Parts -/

/-- Whether a directive may start with a character: a letter or a number of any script, a dash, a
    colon, an underscore, or the bracket in front of a span. -/
def canStart (c : Char) : Bool :=
  Text.isAlphanumeric c || c == '-' || c == ':' || c == '_' || c == '['

/-- Whether a character ends the target. -/
def endsTarget (c : Char) : Bool :=
  c == '=' || c == '['

/-- Whether a character ends the name of a span. -/
def endsSpan (c : Char) : Bool :=
  c == ']' || c == '\x7b'

/-- Whether a text is a value: a number, or a regular expression for texts. -/
def isValue (cs : List Char) : Bool :=
  Numeral.isReal cs || Text.Expression.isValid cs

/-- Why a text is no directive. -/
inductive Flaw where
  /-- It is not of the form that directives have. -/
  | malformed
  /-- It would have to be cut within a character. -/
  | torn
  deriving DecidableEq, Repr

/-- Reads what stands between braces: the name of a field and, behind an equals sign, a value; a
    second equals sign ends the value. Tells whether there is a value. -/
def readField (cs : List Char) : Except Flaw (String × Bool) :=
  let name := String.ofList (cs.takeWhile (· != '='))
  if cs = [] then .error .malformed
  else
    match cs.dropWhile (· != '=') with
    | [] => .ok (name, false)
    | _ :: rest =>
      if isValue (rest.takeWhile (· != '=')) then .ok (name, true) else .error .malformed

/-- A directive without an equals sign: a threshold for all targets, or a target of which everything
    passes. -/
def readBare (cs : List Char) : Directive :=
  match Threshold.read cs with
  | some t => { target := [], threshold := t }
  | none => { target := cs, threshold := some .trace }

/-! ### Reading

  A directive is taken apart without the blanks around it, but the places found that way are then
  looked up in the text with its blanks, in bytes. So a directive with blanks in front is cut in the
  wrong places: it cannot set a threshold, its target is none that a program has, and where a place
  falls within a character nothing can be read at all.
-/

/-- What lies between two places. -/
def cut (text : List Char) (start stop : Nat) : Except Flaw (List Char) :=
  match Text.cutBytes? start stop text with
  | some cs => .ok cs
  | none => .error .torn

/-- Reads the threshold from a place on. Nothing stands for everything. -/
def readThreshold (text : List Char) (place : Nat) : Except Flaw Threshold :=
  match Text.dropBytes? place text with
  | none => .error .torn
  | some [] => .ok (some .trace)
  | some cs =>
    match Threshold.read cs with
    | some t => .ok t
    | none => .error .malformed

/-- Reads what follows the span: nothing, or a threshold. -/
def readAfterSpan (text : List Char) (d : Directive) (place : Nat) :
    List Char → Except Flaw Directive
  | [] => .ok d
  | '=' :: _ => (readThreshold text (place + 1)).map fun t => { d with threshold := t }
  | _ => .error .malformed

/-- Reads a field and what follows it, from behind the opening brace. -/
def readInBraces (text : List Char) (d : Directive) (place : Nat) (cs : List Char) :
    Except Flaw Directive :=
  let stop := place + Text.byteCount (cs.takeWhile (· != '\x7d'))
  match cs.dropWhile (· != '\x7d') with
  | [] => .error .malformed
  | _ :: rest => do
    let (name, hasValue) ← readField (← cut text place stop)
    let d := { d with field := some name, spanned := d.spanned || hasValue }
    match rest with
    | ']' :: rest => readAfterSpan text d (stop + 2) rest
    | _ => throw .malformed

/-- Reads a span and what follows it, from behind the opening bracket. -/
def readInBrackets (text target : List Char) (place : Nat) (cs : List Char) :
    Except Flaw Directive :=
  let stop := place + Text.byteCount (cs.takeWhile (!endsSpan ·))
  match cs.dropWhile (!endsSpan ·) with
  | [] => .error .malformed
  | c :: rest => do
    let name ← cut text place stop
    let d := { target, threshold := some .trace, spanned := c == ']' || name ≠ [] }
    if c == ']' then readAfterSpan text d (stop + 1) rest
    else readInBraces text d (stop + 1) rest

/-- Reads a directive. -/
def read (text : List Char) : Except Flaw Directive :=
  let cs := Text.trimChars text
  if !cs.head?.any canStart then .error .malformed
  else
    let stop := Text.byteCount (cs.takeWhile (!endsTarget ·))
    match cs.dropWhile (!endsTarget ·) with
    | [] => .ok (readBare text)
    | c :: rest => do
      let target ← cut text 0 stop
      if c == '[' then readInBrackets text target (stop + 1) rest
      else return { target, threshold := ← readThreshold text (stop + 1) }

/-! ### Applying -/

/-- Whether a directive applies to a target, as far as the target is concerned. -/
def covers (d : Directive) (target : String) : Bool :=
  !d.spanned && d.target.isPrefixOf target.toList

/-- Whether a directive applies to an entry with some fields, as far as these are concerned. -/
def admits (d : Directive) (fields : List String) : Bool :=
  d.field.all fields.contains

/-- Whether a directive yields to a later one, when both apply. -/
def yields (d e : Directive) : Bool :=
  if d.target.length ≠ e.target.length then d.target.length < e.target.length
  else
    match d.field, e.field with
    | none, _ => true
    | some _, none => false
    | some a, some b => a ≤ b

end Directive

/-! ## Filters -/

/-- A log filter. -/
abbrev LogFilter := List Directive

namespace LogFilter

/-- Cuts a text at its commas. -/
def pieces (cs : List Char) : List (List Char) :=
  cs.splitOn ','

/-- Reads a filter. Nothing between two commas is no directive. -/
def parse (text : String) : Except Directive.Flaw LogFilter :=
  ((pieces text.toList).filter (· ≠ [])).mapM Directive.read

/-- Of two directives that apply the one that counts. -/
def stronger (d : Option Directive) (e : Directive) : Option Directive :=
  match d with
  | none => some e
  | some d => if d.yields e then some e else some d

/-- The threshold that is set by the directives that apply. -/
def strongest (f : LogFilter) (applies : Directive → Bool) : Threshold :=
  match (f.filter applies).foldl stronger none with
  | none => none
  | some d => d.threshold

/-- The threshold for a target, whatever fields its entries have. -/
def threshold (f : LogFilter) (target : String) : Threshold :=
  f.strongest (·.covers target)

/-- Whether an entry passes. -/
def passes (f : LogFilter) (e : LogEntry) : Bool :=
  (f.strongest fun d => d.covers e.source.target && d.admits e.fields).passes e.level

/-- Why the log was not set up. -/
inductive SetupError where
  | failed (why : Failure)
  /-- A filter was torn, which nobody is prepared for. -/
  | torn
  deriving DecidableEq, Repr

/-- The filter to use: the one asked for by the surroundings if it is valid, or else that of the
    settings. -/
def choose (asked : Option String) (level : String) : Except Directive.Flaw LogFilter :=
  match asked.map parse with
  | some (.ok f) => .ok f
  | some (.error .torn) => .error .torn
  | some (.error .malformed) => parse level
  | none => parse level

/-- Sets up the log, which can be done once. Gives the filter that is in use from then on. -/
def install (current : Option LogFilter) (asked : Option String) (level : String) :
    Except SetupError LogFilter :=
  match choose asked level with
  | .error .torn => .error .torn
  | .error .malformed => .error (.failed (.logging "Invalid log filter"))
  | .ok f =>
    match current with
    | none => .ok f
    | some _ => .error (.failed (.logging "Subscriber already installed"))

end LogFilter

end PlugWatch
