import LineLog.Logger
import LineLog.Sink.Basic
/-!
# LineLog.Session.Basic

The state that loggers share: sinks, loggers, and what holds for the whole process.

Design points:

* Sinks and loggers are kept in the order of their creation and are referred to by
  their place. None is ever removed, so a reference stays good.
* `journal` records every attempt to write and every call of the exit function, in
  order. Nothing reads it: it is what an observer sees.
* `reporting` is set while the report of a failed write is itself being written. It
  keeps a failing default logger from reporting its own failure.
* The default format of times starts out unset, which means the first of the fixed
  formats.
-/

namespace LineLog

/-- A reference to a logger. -/
abbrev LoggerId := Nat

/-- What a fatal emission calls after its record. -/
inductive ExitHandler
  /-- End the process. -/
  | endProcess
  /-- A replacement, by its number. -/
  | replacement (id : Nat)
  deriving Repr, DecidableEq

/-- Something that an observer of the process can see. -/
inductive Event
  /-- A record was offered to a sink, which may have failed. -/
  | offered (sink : SinkId) (record : List Char) (failure : Option IoError)
  /-- A failure that has nowhere to be logged was written to the standard error stream. -/
  | complained (e : LogError)
  /-- The exit function was called. -/
  | exited (handler : ExitHandler) (code : Int)
  deriving Repr, DecidableEq

/-- The state that loggers share. -/
structure Session where
  /-- The time that records are stamped with. -/
  now : Time.Instant := .epoch
  /-- The system's answer to a look-up of the host name. -/
  hostname : Except IoError String
  files : Files := {}
  sinks : List Sink := []
  loggers : List Logger := []
  defaultLogger : LoggerId := 0
  timeFormat : Option Time.Format := none
  exitHandler : ExitHandler := .endProcess
  /-- Bound loggers, the innermost last. -/
  bindings : List LoggerId := []
  reporting : Bool := false
  journal : List Event := []

namespace Session

/-! ### Sinks and loggers -/

/-- A new sink. -/
def addSink (s : Session) (sink : Sink) : Session × SinkId :=
  ({ s with sinks := s.sinks ++ [sink] }, s.sinks.length)

/-- A new sink on a file of the directory. -/
def openFile (s : Session) (path : String) : Except LogError (Session × SinkId) :=
  match s.files.openFile path with
  | .error e => .error (.io e.toIoError)
  | .ok (place, files) =>
    .ok (({ s with files := files }).addSink (.file path place (files.get place).length))

/-- A sink; memory that nobody sees if there is none of this number. -/
def sink (s : Session) (id : SinkId) : Sink :=
  s.sinks.getD id default

/-- Change a sink in place. -/
def setSink (s : Session) (id : SinkId) (sink : Sink) : Session :=
  { s with sinks := s.sinks.set id sink }

/-- What a sink has taken. -/
def written (s : Session) (id : SinkId) : Bytes :=
  (s.sink id).written s.files

/-- A new logger. -/
def addLogger (s : Session) (l : Logger) : Session × LoggerId :=
  ({ s with loggers := s.loggers ++ [l] }, s.loggers.length)

/-- The logger of this number. -/
def logger? (s : Session) (id : LoggerId) : Option Logger :=
  s.loggers[id]?

/-- Register names for a level with a logger, in place. -/
def addSeverity (s : Session) (id : LoggerId) (entry : SeverityEntry) : Session × Except LogError Unit :=
  match s.logger? id with
  | none => (s, .ok ())
  | some l =>
    match l.addSeverity entry with
    | .error e => (s, .error e)
    | .ok l => ({ s with loggers := s.loggers.set id l }, .ok ())

/-! ### Process-wide settings -/

/-- The format of times that carry none of their own. -/
def fallbackFormat (s : Session) : Time.Format :=
  s.timeFormat.getD .rfc3339Nano

/-- Replace the default format of times; answers the previous one. -/
def setTimeFormat (s : Session) (format : Time.Format) : Session × Time.Format :=
  ({ s with timeFormat := some format }, s.fallbackFormat)

/-- Replace the default logger; answers the previous one, with which to restore it. -/
def replaceDefault (s : Session) (id : LoggerId) : Session × LoggerId :=
  ({ s with defaultLogger := id }, s.defaultLogger)

/-- Make `previous` the default logger again. -/
def restoreDefault (s : Session) (previous : LoggerId) : Session :=
  { s with defaultLogger := previous }

/-- Replace the exit function; answers the previous one, with which to restore it. -/
def replaceExit (s : Session) (handler : ExitHandler) : Session × ExitHandler :=
  ({ s with exitHandler := handler }, s.exitHandler)

/-- Make `previous` the exit function again. -/
def restoreExit (s : Session) (previous : ExitHandler) : Session :=
  { s with exitHandler := previous }

/-- Call the exit function. -/
def exit (s : Session) (code : Int) : Session :=
  { s with journal := s.journal ++ [.exited s.exitHandler code] }

end Session
end LineLog
