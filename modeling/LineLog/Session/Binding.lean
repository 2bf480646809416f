import LineLog.Session.Emit
/-!
# LineLog.Session.Binding

Binding a logger to the code that is running, so that it need not be passed along.

Bindings nest, and the innermost one counts. A binding is undone by the guard that
making it answered.

Design points:

* A guard remembers how many bindings there were before its own. Undoing cuts the
  stack of bindings back to that depth, so it also undoes bindings made later.
* Asking for the bound logger where there is none answers the default logger, after
  an error record on it.
-/

namespace LineLog

/-- Undoes a binding. -/
structure Guard where
  depth : Nat
  deriving Repr, DecidableEq, Inhabited

namespace Session

/-- Bind a logger. -/
def bind (s : Session) (id : LoggerId) : Session × Guard :=
  ({ s with bindings := s.bindings ++ [id] }, ⟨s.bindings.length⟩)

/-- Undo a binding. -/
def unbind (s : Session) (g : Guard) : Session :=
  { s with bindings := s.bindings.take g.depth }

/-- The innermost bound logger. -/
def bound? (s : Session) : Option LoggerId :=
  s.bindings.getLast?

/-- What is logged when a bound logger is asked for and there is none. -/
def noBindingMessage : String :=
  "rec_logger::context_logger: no logger is bound to the current context, using the default logger"

/-- The innermost bound logger, or the default logger with an error record. -/
def contextLogger (s : Session) (site : CallSite) : Session × LoggerId :=
  match s.bound? with
  | some id => (s, id)
  | none =>
    (s.log s.defaultLogger
      { site, severity := Builtin.error.severity, message := noBindingMessage }, s.defaultLogger)

end Session
end LineLog
