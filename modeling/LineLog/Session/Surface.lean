import LineLog.Session.Emit
/-!
# LineLog.Session.Surface

The ways to call a logger: with a message, with a value to be formatted, or with an
error.

Every way takes a `Verb`: one of the named levels, or print, fatal or panic at any
level. Fatal calls the exit function after the record, panic does not return.

Design points:

* A call returns or panics (`Outcome`). Formatting a value into a new string panics if
  the value fails; so does taking the text of an error for a message.
* A suppressed emission formats nothing. The one exception is panic with a value to be
  formatted, which needs the text for its own panic.
* An error is written three times: its message is the record's message, and it is
  attached as `error` and as `errorStacktrace`. A missing error is logged as well.
-/

namespace LineLog

open Text

/-- Why a call did not return. -/
inductive Panic
  /-- A value failed while it was formatted. -/
  | formatting
  /-- A value failed while its text was taken. -/
  | display
  /-- The standard error stream refused a failure that has nowhere else to go. -/
  | unprinted (refusal : IoError)
  /-- The call was meant to panic, with this message. -/
  | raised (message : List Char)
  deriving Repr, DecidableEq

/-- The message of a panic. -/
def Panic.message : Panic → List Char
  | formatting =>
    "a formatting trait implementation returned an error when the underlying stream did not: Error".toList
  | display => "a Display implementation returned an error unexpectedly: Error".toList
  | unprinted refusal => "failed printing to stderr: ".toList ++ refusal.message.toList
  | raised message => message

/-- How a call ended: with an answer or with a panic. -/
abbrev Outcome (α : Type) := Except Panic α

/-- What a call does besides emitting. -/
inductive Ending
  | returns
  | exits
  | panics
  deriving Repr, DecidableEq

/-- Which method is called. -/
inductive Verb
  | named (level : Builtin)
  | print (severity : Severity)
  | fatal (severity : Severity)
  | panic (severity : Severity)
  deriving Repr, DecidableEq

namespace Verb

/-- The level that a method emits at. -/
def severity : Verb → Severity
  | named level => level.severity
  | print severity | fatal severity | panic severity => severity

/-- What a method does after emitting. -/
def ending : Verb → Ending
  | named _ | print _ => .returns
  | fatal _ => .exits
  | panic _ => .panics

end Verb

/-- Format a value into a new string. -/
def formatted (s : Shown) : Outcome String :=
  if s.fails then .error .formatting else .ok (String.ofList s.text)

/-- Take the text of a value. -/
def displayed (s : Shown) : Outcome String :=
  if s.fails then .error .display else .ok (String.ofList s.text)

/-- A string field of a value formatted at once. -/
def Field.sprintf (key : String) (s : Shown) : Outcome Field :=
  (formatted s).map (Field.string key)

namespace Session

/-- What a method does once its record is out. -/
def finish (s : Session) (ending : Ending) (message : List Char) : Session × Outcome Unit :=
  match ending with
  | .returns => (s, .ok ())
  | .exits => (s.exit 1, .ok ())
  | .panics => (s, .error (.raised message))

/-- The level reaches the threshold of a logger. -/
def accepts (s : Session) (id : LoggerId) (severity : Severity) : Bool :=
  match s.logger? id with
  | none => false
  | some l => l.accepts severity

/-! ### With a message -/

/-- Log a message with fields. -/
def logMessage (s : Session) (id : LoggerId) (site : CallSite) (verb : Verb) (message : String)
    (fields : List Field) : Session × Outcome Unit :=
  (s.log id { site, severity := verb.severity, message, fields }).finish verb.ending message.toList

/-! ### With a value to be formatted -/

/-- Log the text of a value. -/
def logFormatted (s : Session) (id : LoggerId) (site : CallSite) (verb : Verb) (value : Shown) :
    Session × Outcome Unit :=
  if s.accepts id verb.severity || verb.ending = .panics then
    match formatted value with
    | .error p => (s, .error p)
    | .ok message =>
      (s.log id { site, severity := verb.severity, message }).finish verb.ending message.toList
  else s.finish verb.ending []

/-! ### With an error -/

/-- The message for a missing error. -/
def nilMessage : String := "<nil>"

/-- The fields that an error is attached as. -/
def errorFields (err : Option Fault) : List Field :=
  [.error err, .errorStacktrace err]

/-- The message of an error, if its text can be taken. -/
def errorMessage : Option Fault → Outcome String
  | none => .ok nilMessage
  | some f => displayed f.message

/-- The message of a panic with an error: as much of the error's text as it writes. -/
def panicText : Option Fault → List Char
  | none => nilMessage.toList
  | some f => f.text

/-- Log an error with fields. -/
def logError (s : Session) (id : LoggerId) (site : CallSite) (verb : Verb) (err : Option Fault)
    (fields : List Field) : Session × Outcome Unit :=
  if s.accepts id verb.severity then
    match errorMessage err with
    | .error p => (s, .error p)
    | .ok message =>
      (s.log id
        { site, severity := verb.severity, message, leading := errorFields err, fields }).finish
        verb.ending (panicText err)
  else s.finish verb.ending (panicText err)

end Session
end LineLog
