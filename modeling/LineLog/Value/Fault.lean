import LineLog.Value.Shown
/-!
# LineLog.Value.Fault

Errors as values: a message and the chain of its causes.

Design points:

* A fault is its own message followed by the messages of its causes, nearest
  first; the chain is finite by construction.
* Any message in the chain may fail while it is shown. What it wrote is kept, and
  the rest of the chain is still shown (`traceText`).
-/

namespace LineLog

/-- An error with the messages of its causes, nearest first. -/
structure Fault where
  message : Shown
  causes : List Shown := []
  deriving Repr, DecidableEq, Inhabited

namespace Fault

/-- A fault without causes. -/
def ofMessage (s : String) : Fault :=
  ⟨.ofString s, []⟩

/-- As much of the message as was written. -/
def text (f : Fault) : List Char :=
  f.message.text

/-- What stands before the message of a cause. -/
def causedBy : List Char :=
  "\ncaused by: ".toList

/-- The message and, on a line each, the messages of the causes. -/
def traceText (f : Fault) : List Char :=
  f.text ++ f.causes.flatMap fun cause => causedBy ++ cause.text

end Fault
end LineLog
