import LineLog.Value.Fault
/-!
# LineLog.Error

What can go wrong with a logger, by cause.

Design points:

* `LogError` lists the causes; `LogError.message` is the only place that words
  them.
* A cause that wraps another one shows it in its message and also names it as its
  source, so the message of an inner error appears again in a trace.
-/

namespace LineLog

/-- A failure reported by a destination or by the system. -/
structure IoError where
  message : String
  deriving Repr, DecidableEq, Inhabited

/-- A failure of the library. -/
inductive LogError
  /-- An enabled block has no key; `member` is the configuration member that holds it. -/
  | emptyKey (member : String)
  /-- An option could not be applied. -/
  | optionFailed (option : String) (source : LogError)
  /-- The system does not know its host name. -/
  | hostnameLookup (source : IoError)
  /-- A level or one of its names is taken. -/
  | severityExists (what : String)
  | lowercaseEmpty
  | uppercaseEmpty
  /-- A destination did not take a record. -/
  | writeFailed (writer : String) (source : IoError)
  | io (source : IoError)
  deriving Repr, DecidableEq

namespace LogError

/-- The wording of an error. -/
def message : LogError → String
  | emptyKey member => "Config." ++ member ++ " is empty"
  | optionFailed option source => option ++ ": " ++ source.message
  | hostnameLookup source => "hostname lookup failed: " ++ source.message
  | severityExists what => what ++ ": severity already exists"
  | lowercaseEmpty => "severity lowercase is empty"
  | uppercaseEmpty => "severity uppercase is empty"
  | writeFailed writer source =>
    "rec_logger::Logger::write: writer=" ++ writer ++ ": write: " ++ source.message
  | io source => "IO error: " ++ source.message

/-- The messages of the sources, nearest first. -/
def sources : LogError → List String
  | optionFailed _ source => source.message :: source.sources
  | hostnameLookup source => [source.message]
  | writeFailed _ source => [source.message]
  | io source => [source.message]
  | emptyKey _ | severityExists _ | lowercaseEmpty | uppercaseEmpty => []

/-- The error as a value that can be logged. -/
def toFault (e : LogError) : Fault :=
  ⟨.ofString e.message, e.sources.map .ofString⟩

end LogError

/-- The failure as a value that can be logged. -/
def IoError.toFault (e : IoError) : Fault :=
  .ofMessage e.message

end LineLog
