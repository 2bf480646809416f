import LineLog.Session.Basic
/-!
# LineLog.Session.Emit

Emitting a record, with everything that can go wrong on the way.

Design points:

* An emission below the threshold of its logger does nothing at all.
* Objects that refuse to be marshalled are complained about through the default
  logger, one record each, before the record that holds them is written.
* A failed write is reported through the default logger, blamed on the call site of
  the lost record. A report that cannot be written is not reported again: while
  `Session.reporting` is set, a failure goes to the standard error stream.
* Diagnostics hold no objects, so `emitPlain`, which writes them, cannot cause more of
  them.
* The standard streams take what they are given here, and so `complain` succeeds. What
  becomes of an emission where they refuse is told by `Piped`, which comes to the same
  wherever they do not.
-/

namespace LineLog

open Text

/-- Where a call was made: its position and the stack above it, innermost first. -/
structure CallSite where
  location : Location
  stack : List StackSymbol
  deriving Repr, DecidableEq, Inhabited

/-- The call of a logger: what it says, and where. -/
structure Emission where
  site : CallSite
  severity : Severity
  message : String
  /-- Fields that are written before those of the caller. -/
  leading : List Field := []
  fields : List Field := []

namespace Emission

/-- The message of a report that a write failed, and the failure as its error. -/
def writeFailure (site : CallSite) (writer : String) (e : IoError) : Emission where
  site := site
  severity := Builtin.error.severity
  message := (LogError.writeFailed writer e).message
  fields := [.error (some e.toFault)]

/-- What a refusal to be marshalled is announced with. -/
def marshalMessage : String := "rec_logger::Field::object: serde_json: "

/-- The message of a complaint about an object, and its refusal as the error. The object's field is
blamed, and looked for on the stack of the emission under way. -/
def marshalFailure (stack : List StackSymbol) (f : MarshalFailure) : Emission where
  site := ⟨f.site, stack⟩
  severity := Builtin.error.severity
  message := marshalMessage ++ f.refusal.message
  fields := [.error (some (.ofMessage f.refusal.message))]

end Emission

namespace Session

/-- The record of an emission through the logger `l`. -/
def record (s : Session) (l : Logger) (e : Emission) : List Char :=
  Record.assemble l.config s.fallbackFormat
    { time := s.now
      severityName := l.severityName e.severity
      caller := l.callerOf e.site.stack e.site.location
      message := e.message }
    l.context e.leading e.fields

/-- Offer a record to a sink. -/
def offer (s : Session) (id : SinkId) (record : List Char)
    (answer : Stream → Option IoError := fun _ => none) : Session × Option IoError :=
  let (files, sink, failure) := (s.sink id).offer s.files record answer
  ({ s.setSink id sink with
      files := files
      journal := s.journal ++ [.offered id record failure] }, failure)

/-- A failure was written to the standard error stream, which took it. -/
def complain (s : Session) (e : LogError) : Session :=
  { s with journal := s.journal ++ [.complained e] }

/-- Write the report of a failed write through the default logger. Its own failure is not reported. -/
def emitReport (s : Session) (report : Emission) : Session :=
  match s.logger? s.defaultLogger with
  | none => s
  | some l =>
    if l.accepts report.severity then
      match s.offer l.sink (s.record l report) with
      | (s, none) => s
      | (s, some e) => s.complain (.writeFailed (s.sink l.sink).name e)
    else s

/-- Report that the sink named `writer` did not take a record, unless a report is under way. -/
def reportWriteFailure (s : Session) (site : CallSite) (writer : String) (e : IoError) : Session :=
  if s.reporting then s.complain (.writeFailed writer e)
  else
    let reported := ({ s with reporting := true }).emitReport (.writeFailure site writer e)
    { reported with reporting := false }

/-- Write the record of an emission that has reached its threshold, and report a failure. -/
def write (s : Session) (l : Logger) (e : Emission) : Session :=
  match s.offer l.sink (s.record l e) with
  | (s, none) => s
  | (s, some failure) => s.reportWriteFailure e.site (s.sink l.sink).name failure

/-- Emit through the default logger a diagnostic, which holds no objects. -/
def emitPlain (s : Session) (e : Emission) : Session :=
  match s.logger? s.defaultLogger with
  | none => s
  | some l => if l.accepts e.severity then s.write l e else s

/-- Complain about objects that could not be marshalled, in order. -/
def reportMarshalFailures (s : Session) (stack : List StackSymbol) (fs : List MarshalFailure) :
    Session :=
  fs.foldl (fun s f => s.emitPlain (.marshalFailure stack f)) s

/-- Emit through the logger `l`. -/
def emit (s : Session) (l : Logger) (e : Emission) : Session :=
  if l.accepts e.severity then
    let failures := Field.marshalFailures (e.leading ++ e.fields)
    (s.reportMarshalFailures e.site.stack failures).write l e
  else s

/-- Emit through the logger of this number. -/
def log (s : Session) (id : LoggerId) (e : Emission) : Session :=
  match s.logger? id with
  | none => s
  | some l => s.emit l e

/-! ### Deriving loggers -/

/-- A new logger with more fields in its context. The fields are written now, and objects among them
are complained about now. -/
def deriveWith (s : Session) (id : LoggerId) (stack : List StackSymbol) (fields : List Field) :
    Session × Option LoggerId :=
  match s.logger? id with
  | none => (s, none)
  | some l =>
    let s := s.reportMarshalFailures stack (Field.marshalFailures fields)
    let (s, id) := s.addLogger (l.withFields s.fallbackFormat fields)
    (s, some id)

end Session
end LineLog
