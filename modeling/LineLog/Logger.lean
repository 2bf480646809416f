import LineLog.Config.Member
import LineLog.Config.Option
import LineLog.Record
import LineLog.Severity.Registry
/-!
# LineLog.Logger

Loggers: a configuration, names of levels, context, and a destination.

Design points:

* A logger is a value. Every derivation answers a new logger and leaves the one it
  starts from as it is; only the names of levels can grow in place, and that is an
  operation on the logger's own registry.
* The context is text: its fields are written once, when the logger is derived.
* The destination is a reference, which derived loggers share.
-/

namespace LineLog

open Text

/-- A reference to a sink. -/
abbrev SinkId := Nat

/-- A logger. -/
structure Logger where
  config : Config
  severities : Registry := .builtin
  /-- Pairs with a comma after each. -/
  context : List Char := []
  sink : SinkId
  deriving Repr, DecidableEq

namespace Logger

/-! ### Creation and derivation -/

/-- A logger with the given configuration, if that can be used. -/
def withConfig (sink : SinkId) (c : Config) : Except LogError Logger :=
  c.validate.map fun () => { config := c, sink := sink }

/-- A logger that starts from `base`, or from the default configuration with the system's host
name, and applies options. -/
def create (hostname : Except IoError String) (sink : SinkId) (options : List ConfigOption)
    (base : Option Config := none) : Except LogError Logger :=
  let start := base.getD (Config.withSystemHostname hostname)
  (Config.configured hostname options start).map fun c => { config := c, sink := sink }

/-- With more fields in the context. -/
def withFields (fallback : Time.Format) (fields : List Field) (l : Logger) : Logger :=
  { l with context := l.context ++ Field.renderAll fallback fields }

/-- With options applied, if the configuration can then be used. -/
def renew (hostname : Except IoError String) (options : List ConfigOption) (l : Logger) :
    Except LogError Logger :=
  (l.config.configured hostname options).map fun c => { l with config := c }

/-- With another destination. -/
def renewSink (sink : SinkId) (l : Logger) : Logger :=
  { l with sink := sink }

/-- Blaming records on a frame further up. -/
def addCallerSkip (skip : SkipCount) (l : Logger) : Logger :=
  { l with config.callerSkip := addSkip l.config.callerSkip skip }

/-- With names for one more level. -/
def addSeverity (entry : SeverityEntry) (l : Logger) : Except LogError Logger :=
  (l.severities.register entry).map fun r => { l with severities := r }

/-! ### Records -/

/-- The level reaches the threshold. -/
def accepts (l : Logger) (s : Severity) : Bool :=
  !s.below l.config.threshold

/-- The name under which a level is recorded. -/
def severityName (l : Logger) (s : Severity) : String :=
  (s.builtinName? l.config.uppercaseSeverity).getD (l.severities.name s l.config.uppercaseSeverity)

/-- The position that a record is blamed on. The stack is looked at only for a block that is on. -/
def callerOf (l : Logger) (stack : List StackSymbol) (site : Location) : Option Location :=
  if l.config.caller.enabled then Caller.resolve stack site l.config.callerSkip.toNat else none

/-- The logger shown to a developer, with the name of its sink. -/
def inspect (l : Logger) (sinkName : String) : List Char :=
  "Logger ".toList ++ '{' :: " config: ".toList ++ l.config.inspect ++
    ", context_fields: ".toList ++ Inspect.text l.context ++
    ", appender: ".toList ++ Inspect.string sinkName ++ [' ', '}']

end Logger
end LineLog
