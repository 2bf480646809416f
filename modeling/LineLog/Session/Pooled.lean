import LineLog.Record.Pieces
import LineLog.Session.Emit
/-!
# LineLog.Session.Pooled

Emitting a record in a buffer from a pool.

`Session.emit` has records as texts. Here each of them is assembled in a buffer that is checked out of the pool
of the process and returned once the record was offered. While it is checked out, objects that refuse to
be marshalled are reported, and the records of those reports are assembled in buffers of the same pool.

Design points:

* What a sink is offered is what the buffer holds, decoded.
* The buffer of a record that could not be written is returned before the failure is reported, so the report
  may get the same buffer.
* How refusals are reported is an argument of `attempt`: the records of diagnostics hold no objects and report
  nothing (`unreported`).
-/

namespace LineLog

open Text

/-- The state that loggers share, and the pool. -/
structure Pooled where
  session : Session
  pool : Pool

namespace Pooled

/-- Check a buffer out. -/
def checkOut (w : Pooled) : Buffer × Pooled :=
  (w.pool.get.1, { w with pool := w.pool.get.2 })

/-- Return a buffer. -/
def giveBack (w : Pooled) (b : Buffer) : Pooled :=
  { w with pool := w.pool.put b }

/-- Offer what a buffer holds to a sink. -/
def offer (w : Pooled) (id : SinkId) (b : Buffer) : Pooled × Option IoError :=
  let (s, failure) := w.session.offer id ((text? b.bytes).getD "").toList
  ({ w with session := s }, failure)

/-- Write a failure to the standard error stream. -/
def complain (w : Pooled) (e : LogError) : Pooled :=
  { w with session := w.session.complain e }

/-- Write pieces into a buffer, each after what it has to report. -/
def fill (report : Pooled → MarshalFailure → Pooled) (w : Pooled) (b : Buffer) (pieces : List Piece) :
    Buffer × Pooled :=
  pieces.foldl (fun (b, w) p => (b.rewrite p.write, p.failure.elim w (report w))) (b, w)

/-- Report nothing. -/
def unreported (w : Pooled) (_ : MarshalFailure) : Pooled :=
  w

/-- The blocks of the record of an emission through the logger `l`. -/
def header (s : Session) (l : Logger) (e : Emission) : Record where
  time := s.now
  severityName := l.severityName e.severity
  caller := l.callerOf e.site.stack e.site.location
  message := e.message

/-- Assemble the record of an emission in a buffer of the pool, and offer it to the sink of the logger. -/
def attempt (report : Pooled → MarshalFailure → Pooled) (w : Pooled) (l : Logger) (e : Emission) :
    Pooled × Option IoError :=
  let pieces := (header w.session l e).pieces l.config w.session.fallbackFormat (utf8 l.context)
    e.leading e.fields
  let (b, w) := w.checkOut
  let (b, w) := fill report w b pieces
  let (w, failure) := w.offer l.sink b
  (w.giveBack b, failure)

/-- Write the report of a failed write through the default logger. Its own failure is not reported. -/
def emitReport (w : Pooled) (report : Emission) : Pooled :=
  match w.session.logger? w.session.defaultLogger with
  | none => w
  | some l =>
    if l.accepts report.severity then
      match w.attempt unreported l report with
      | (w, none) => w
      | (w, some e) => w.complain (.writeFailed (w.session.sink l.sink).name e)
    else w

/-- Report that the sink named `writer` did not take a record, unless a report is under way. -/
def reportWriteFailure (w : Pooled) (site : CallSite) (writer : String) (e : IoError) : Pooled :=
  if w.session.reporting then w.complain (.writeFailed writer e)
  else
    let reported := ({ w with session.reporting := true }).emitReport (.writeFailure site writer e)
    { reported with session.reporting := false }

/-- Write the record of an emission that has reached its threshold, and report a failure. -/
def write (report : Pooled → MarshalFailure → Pooled) (w : Pooled) (l : Logger) (e : Emission) : Pooled :=
  match w.attempt report l e with
  | (w, none) => w
  | (w, some failure) => w.reportWriteFailure e.site (w.session.sink l.sink).name failure

/-- Emit through the default logger a diagnostic, which holds no objects. -/
def emitPlain (w : Pooled) (e : Emission) : Pooled :=
  match w.session.logger? w.session.defaultLogger with
  | none => w
  | some l => if l.accepts e.severity then w.write unreported l e else w

/-- Emit through the logger `l`. -/
def emit (w : Pooled) (l : Logger) (e : Emission) : Pooled :=
  if l.accepts e.severity then
    w.write (fun w f => w.emitPlain (.marshalFailure e.site.stack f)) l e
  else w

end Pooled
end LineLog
