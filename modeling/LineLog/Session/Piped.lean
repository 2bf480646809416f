import LineLog.Session.Arguments
import LineLog.Session.Binding
/-!
# LineLog.Session.Piped

Calling loggers in a process whose standard streams may refuse what is written to them.

A standard stream may be a pipe that nobody reads any more. For a sink on the stream this is a failure
like that of any other sink. But the standard error stream is also the last resort: a failure that has
nowhere to be logged is written there, and if that is refused as well the call panics.

Design points:

* A stream answers each write as a whole, and the sinks on it and the last resort take turns in being
  answered (`Streams`). What it answers is not bound to what it has answered before.
* A panic leaves out all that was still to be done (`Piped.andThen`): the reports about further objects,
  the record itself, and what the method does besides emitting. The mark of a report under way is the one
  thing that is put back.
* Where both streams take what they are given, each function comes to that of `Session` with the same name.
-/

namespace LineLog

/-- What the standard streams answer to the writes to them, which are counted from 0. -/
structure Streams where
  answers : Stream → Nat → Option IoError := fun _ _ => none
  /-- The writes so far. -/
  writes : Stream → Nat := fun _ => 0

namespace Streams

/-- The answer to the next write to a stream: why it fails, if it does. -/
def next (t : Streams) (stream : Stream) : Option IoError :=
  t.answers stream (t.writes stream)

/-- A stream has been written to. -/
def wrote (t : Streams) (stream : Stream) : Streams :=
  { t with writes := fun other => if other = stream then t.writes other + 1 else t.writes other }

end Streams

/-- The stream that a sink writes to, if it is one of the standard streams. -/
def Sink.stream? : Sink → Option Stream
  | console stream => some stream
  | memory _ | file _ _ _ | writer _ | unreliable _ => none

/-- The state that loggers share, and the standard streams. -/
structure Piped where
  session : Session
  streams : Streams := {}

namespace Piped

/-- Offer a record to a sink. -/
def offer (p : Piped) (id : SinkId) (record : List Char) : Piped × Option IoError :=
  let (s, failure) := p.session.offer id record p.streams.next
  (⟨s, (p.session.sink id).stream?.elim p.streams p.streams.wrote⟩, failure)

/-- Write a failure to the standard error stream. -/
def complain (p : Piped) (e : LogError) : Piped × Outcome Unit :=
  match p.streams.next .stderr with
  | none => (⟨p.session.complain e, p.streams.wrote .stderr⟩, .ok ())
  | some refusal => (⟨p.session, p.streams.wrote .stderr⟩, .error (.unprinted refusal))

/-- Go on, unless there was a panic. -/
def andThen {α : Type} (r : Piped × Outcome Unit) (next : Piped → Piped × Outcome α) :
    Piped × Outcome α :=
  match r with
  | (p, .ok ()) => next p
  | (p, .error panic) => (p, .error panic)

/-! ### Emitting -/

/-- Write the report of a failed write through the default logger. Its own failure is not reported. -/
def emitReport (p : Piped) (report : Emission) : Piped × Outcome Unit :=
  match p.session.logger? p.session.defaultLogger with
  | none => (p, .ok ())
  | some l =>
    if l.accepts report.severity then
      match p.offer l.sink (p.session.record l report) with
      | (p, none) => (p, .ok ())
      | (p, some e) => p.complain (.writeFailed (p.session.sink l.sink).name e)
    else (p, .ok ())

/-- Report that the sink named `writer` did not take a record, unless a report is under way. The mark of
the report is put back after a panic as well. -/
def reportWriteFailure (p : Piped) (site : CallSite) (writer : String) (e : IoError) :
    Piped × Outcome Unit :=
  if p.session.reporting then p.complain (.writeFailed writer e)
  else
    let (reported, outcome) :=
      ({ p with session.reporting := true }).emitReport (.writeFailure site writer e)
    ({ reported with session.reporting := false }, outcome)

/-- Write the record of an emission that has reached its threshold, and report a failure. -/
def write (p : Piped) (l : Logger) (e : Emission) : Piped × Outcome Unit :=
  match p.offer l.sink (p.session.record l e) with
  | (p, none) => (p, .ok ())
  | (p, some failure) => p.reportWriteFailure e.site (p.session.sink l.sink).name failure

/-- Emit through the default logger a diagnostic, which holds no objects. -/
def emitPlain (p : Piped) (e : Emission) : Piped × Outcome Unit :=
  match p.session.logger? p.session.defaultLogger with
  | none => (p, .ok ())
  | some l => if l.accepts e.severity then p.write l e else (p, .ok ())

/-- Complain about objects that could not be marshalled, in order. -/
def reportMarshalFailures (p : Piped) (stack : List StackSymbol) :
    List MarshalFailure → Piped × Outcome Unit
  | [] => (p, .ok ())
  | f :: fs =>
    andThen (p.emitPlain (.marshalFailure stack f)) fun p => p.reportMarshalFailures stack fs

/-- Emit through the logger `l`. -/
def emit (p : Piped) (l : Logger) (e : Emission) : Piped × Outcome Unit :=
  if l.accepts e.severity then
    let failures := Field.marshalFailures (e.leading ++ e.fields)
    andThen (p.reportMarshalFailures e.site.stack failures) fun p => p.write l e
  else (p, .ok ())

/-- Emit through the logger of this number. -/
def log (p : Piped) (id : LoggerId) (e : Emission) : Piped × Outcome Unit :=
  match p.session.logger? id with
  | none => (p, .ok ())
  | some l => p.emit l e

/-- A new logger with more fields in its context, objects among which are complained about now. -/
def deriveWith (p : Piped) (id : LoggerId) (stack : List StackSymbol) (fields : List Field) :
    Piped × Outcome (Option LoggerId) :=
  match p.session.logger? id with
  | none => (p, .ok none)
  | some l =>
    andThen (p.reportMarshalFailures stack (Field.marshalFailures fields)) fun p =>
      let (s, id) := p.session.addLogger (l.withFields p.session.fallbackFormat fields)
      ({ p with session := s }, .ok (some id))

/-- The innermost bound logger, or the default logger with an error record. -/
def contextLogger (p : Piped) (site : CallSite) : Piped × Outcome LoggerId :=
  match p.session.bound? with
  | some id => (p, .ok id)
  | none =>
    let default := p.session.defaultLogger
    andThen
      (p.log default
        { site, severity := Builtin.error.severity, message := Session.noBindingMessage })
      fun p => (p, .ok default)

/-! ### Calls -/

/-- What a method does once its record is out. -/
def finish (p : Piped) (ending : Ending) (message : List Char) : Piped × Outcome Unit :=
  let (s, outcome) := p.session.finish ending message
  ({ p with session := s }, outcome)

/-- Log a message with fields. -/
def logMessage (p : Piped) (id : LoggerId) (site : CallSite) (verb : Verb) (message : String)
    (fields : List Field) : Piped × Outcome Unit :=
  andThen (p.log id { site, severity := verb.severity, message, fields })
    fun p => p.finish verb.ending message.toList

/-- Log the text of a value. -/
def logFormatted (p : Piped) (id : LoggerId) (site : CallSite) (verb : Verb) (value : Shown) :
    Piped × Outcome Unit :=
  if p.session.accepts id verb.severity || verb.ending = .panics then
    match formatted value with
    | .error panic => (p, .error panic)
    | .ok message =>
      andThen (p.log id { site, severity := verb.severity, message })
        fun p => p.finish verb.ending message.toList
  else p.finish verb.ending []

/-- Emit the text of arguments. Below the threshold they are not looked at. -/
def emitArguments (p : Piped) (id : LoggerId) (site : CallSite) (severity : Severity)
    (args : Arguments) : Piped × Outcome Unit :=
  if p.session.accepts id severity then
    match args.render with
    | .error panic => (p, .error panic)
    | .ok message => p.log id { site, severity, message }
  else (p, .ok ())

/-- Log the text of arguments. -/
def logArguments (p : Piped) (id : LoggerId) (site : CallSite) (verb : Verb) (args : Arguments) :
    Piped × Outcome Unit :=
  match verb.ending with
  | .returns => p.emitArguments id site verb.severity args
  | .exits =>
    andThen (p.emitArguments id site verb.severity args)
      fun p => ({ p with session := p.session.exit 1 }, .ok ())
  | .panics =>
    match args.render with
    | .error panic => (p, .error panic)
    | .ok message =>
      andThen (p.log id { site, severity := verb.severity, message })
        fun p => (p, .error (.raised message.toList))

/-- Log an error with fields. -/
def logError (p : Piped) (id : LoggerId) (site : CallSite) (verb : Verb) (err : Option Fault)
    (fields : List Field) : Piped × Outcome Unit :=
  if p.session.accepts id verb.severity then
    match Session.errorMessage err with
    | .error panic => (p, .error panic)
    | .ok message =>
      andThen
        (p.log id
          { site, severity := verb.severity, message, leading := Session.errorFields err, fields })
        fun p => p.finish verb.ending (Session.panicText err)
  else p.finish verb.ending (Session.panicText err)

end Piped
end LineLog
