import LineLog.Session.Surface
/-!
# LineLog.Proofs.Session.Trace

The shape of what an emission attempts to write, and of what follows a failure.

`Session.Performs s events s'` says that `s` becomes `s'` by exactly the attempts in
`events`, each with the answer that the sink gave at that moment. The trace of an
emission (`Emitted`) is put together from three shapes:

* `Report` — the report of a failed write: silent if the default logger does not take
  errors, else one attempt, and after its failure a complaint and nothing more.
* `Attempt` — one attempt, and after its failure the report.
* `Diagnostics` — one attempt for each object that could not be marshalled.

Nothing here depends on what sinks answer: every pattern of successes and failures is a
state of the sinks. Attempts change neither the loggers, nor the settings, nor the names
of sinks (`Alike`), so every record of a trace can be told from the state at its start.
-/

namespace LineLog.Session

/-! ### What attempts leave alone -/

/-- The two states differ at most in what sinks and files hold, and in the journal. -/
structure Alike (s s' : Session) : Prop where
  now : s'.now = s.now
  hostname : s'.hostname = s.hostname
  loggers : s'.loggers = s.loggers
  defaultLogger : s'.defaultLogger = s.defaultLogger
  timeFormat : s'.timeFormat = s.timeFormat
  exitHandler : s'.exitHandler = s.exitHandler
  bindings : s'.bindings = s.bindings
  reporting : s'.reporting = s.reporting
  name : ∀ id, (s'.sink id).name = (s.sink id).name

namespace Alike

theorem refl (s : Session) : Alike s s :=
  ⟨rfl, rfl, rfl, rfl, rfl, rfl, rfl, rfl, fun _ => rfl⟩

theorem trans {s₁ s₂ s₃ : Session} (h₁ : Alike s₁ s₂) (h₂ : Alike s₂ s₃) : Alike s₁ s₃ :=
  ⟨h₂.now.trans h₁.now, h₂.hostname.trans h₁.hostname, h₂.loggers.trans h₁.loggers,
    h₂.defaultLogger.trans h₁.defaultLogger, h₂.timeFormat.trans h₁.timeFormat,
    h₂.exitHandler.trans h₁.exitHandler, h₂.bindings.trans h₁.bindings,
    h₂.reporting.trans h₁.reporting, fun id => (h₂.name id).trans (h₁.name id)⟩

variable {s s' : Session} (h : Alike s s')

include h

theorem logger? (id : LoggerId) : s'.logger? id = s.logger? id := by
  rw [Session.logger?, h.loggers]
  rfl

/-- The record of an emission is the same in both states. -/
theorem record (l : Logger) (e : Emission) : s'.record l e = s.record l e := by
  rw [Session.record, Session.record, h.now, fallbackFormat, fallbackFormat, h.timeFormat]

end Alike

/-- A sink keeps its name. -/
theorem name_offer (sink : Sink) (files : Files) (record : List Char)
    (answer : Stream → Option IoError) : (sink.offer files record answer).2.1.name = sink.name := by
  cases sink <;> rfl

theorem sink_setSink (s : Session) (id : SinkId) (sink : Sink) (j : SinkId) :
    (s.setSink id sink).sink j = if j = id ∧ id < s.sinks.length then sink else s.sink j := by
  simp only [setSink, Session.sink, List.getD_eq_getElem?_getD]
  by_cases hj : j = id
  · subst hj
    by_cases hlt : j < s.sinks.length
    · simp [hlt]
    · simp [hlt]
  · rw [List.getElem?_set_ne (Ne.symm hj)]
    simp [hj]

theorem alike_offer (s : Session) (id : SinkId) (record : List Char)
    (answer : Stream → Option IoError) : Alike s (s.offer id record answer).1 := by
  refine ⟨rfl, rfl, rfl, rfl, rfl, rfl, rfl, rfl, fun j => ?_⟩
  show ((s.setSink id ((s.sink id).offer s.files record answer).2.1).sink j).name = _
  rw [sink_setSink]
  split
  · rename_i hj
    rw [name_offer, hj.1]
  · rfl

theorem alike_complain (s : Session) (e : LogError) : Alike s (s.complain e) :=
  ⟨rfl, rfl, rfl, rfl, rfl, rfl, rfl, rfl, fun _ => rfl⟩

/-! ### Performing a trace -/

/-- `s` becomes `s'` by these attempts and complaints, in order. -/
inductive Performs : Session → List Event → Session → Prop
  | nil (s : Session) : Performs s [] s
  | offered {s s₁ s' : Session} {id : SinkId} {record : List Char} {failure : Option IoError}
      {events : List Event} (h : s.offer id record = (s₁, failure)) (hs : Performs s₁ events s') :
      Performs s (.offered id record failure :: events) s'
  | complained {s s' : Session} {e : LogError} {events : List Event}
      (hs : Performs (s.complain e) events s') : Performs s (.complained e :: events) s'

namespace Performs

theorem alike {s s' : Session} {events : List Event} (h : Performs s events s') : Alike s s' := by
  induction h with
  | nil s => exact .refl s
  | @offered s s₁ s' id record failure events h _ ih =>
      have hoffer := alike_offer s id record fun _ => none
      rw [h] at hoffer
      exact hoffer.trans ih
  | @complained s s' e events _ ih => exact (alike_complain s e).trans ih

/-- The journal gains the trace and nothing else. -/
theorem journal {s s' : Session} {events : List Event} (h : Performs s events s') :
    s'.journal = s.journal ++ events := by
  induction h with
  | nil => simp
  | @offered s s₁ s' id record failure events h _ ih =>
      have hjournal : (s.offer id record).1.journal =
          s.journal ++ [.offered id record (s.offer id record).2] := rfl
      rw [h] at hjournal
      rw [ih, hjournal, List.append_assoc]
      rfl
  | @complained s s' e events _ ih =>
      rw [ih, complain, List.append_assoc]
      rfl

end Performs

/-! ### The shape of a trace -/

/-- The emission is the report that the sink called `writer` failed with `e`: an error that names the
sink and carries the failure as its error. -/
structure IsFailureReport (report : Emission) (site : CallSite) (writer : String) (e : IoError) :
    Prop where
  site_eq : report.site = site
  severity_eq : report.severity = Builtin.error.severity
  message_eq : report.message =
    "rec_logger::Logger::write: writer=" ++ writer ++ ": write: " ++ e.message
  leading_eq : report.leading = []
  fields_eq : report.fields = [.error (some (.ofMessage e.message))]

/-- The emission is the complaint about an object that could not be marshalled: an error that is
blamed on the object's field and carries the refusal as its error. -/
structure IsMarshalReport (report : Emission) (stack : List StackSymbol) (f : MarshalFailure) :
    Prop where
  site_eq : report.site = ⟨f.site, stack⟩
  severity_eq : report.severity = Builtin.error.severity
  message_eq : report.message = "rec_logger::Field::object: serde_json: " ++ f.refusal.message
  leading_eq : report.leading = []
  fields_eq : report.fields = [.error (some (.ofMessage f.refusal.message))]

theorem isFailureReport_writeFailure (site : CallSite) (writer : String) (e : IoError) :
    IsFailureReport (.writeFailure site writer e) site writer e :=
  ⟨rfl, rfl, rfl, rfl, rfl⟩

theorem isMarshalReport_marshalFailure (stack : List StackSymbol) (f : MarshalFailure) :
    IsMarshalReport (.marshalFailure stack f) stack f :=
  ⟨rfl, rfl, rfl, rfl, rfl⟩

section Shape

-- The session at the start of the emission, and its default logger.
variable (s : Session) (d : Logger)

/-- Writing the report of a failed write. Its own failure has no consequence but a complaint. -/
inductive Report (report : Emission) : List Event → Prop
  | silent (h : d.accepts Builtin.error.severity = false) : Report report []
  | written (h : d.accepts Builtin.error.severity = true) :
      Report report [.offered d.sink (s.record d report) none]
  | lost (h : d.accepts Builtin.error.severity = true) (e : IoError) :
      Report report [.offered d.sink (s.record d report) (some e),
        .complained (.writeFailed (s.sink d.sink).name e)]

/-- One attempt to write a record of a call at `site`, with what follows if it fails. -/
inductive Attempt (site : CallSite) (sink : SinkId) (record : List Char) : List Event → Prop
  | taken : Attempt site sink record [.offered sink record none]
  | failed {e : IoError} {report : Emission} {events : List Event} (h : s.reporting = false)
      (hreport : IsFailureReport report site (s.sink sink).name e)
      (hevents : Report s d report events) :
      Attempt site sink record (.offered sink record (some e) :: events)
  | nested {e : IoError} (h : s.reporting = true) :
      Attempt site sink record
        [.offered sink record (some e), .complained (.writeFailed (s.sink sink).name e)]

/-- One attempt through the default logger for each failure, in order; none if the default logger
does not take errors. -/
inductive Diagnostics (stack : List StackSymbol) : List MarshalFailure → List Event → Prop
  | silent {fs : List MarshalFailure} (h : d.accepts Builtin.error.severity = false) :
      Diagnostics stack fs []
  | nil : Diagnostics stack [] []
  | cons {f : MarshalFailure} {fs : List MarshalFailure} {report : Emission}
      {first rest : List Event} (h : d.accepts Builtin.error.severity = true)
      (hreport : IsMarshalReport report stack f)
      (hfirst : Attempt s d report.site d.sink (s.record d report) first)
      (hrest : Diagnostics stack fs rest) : Diagnostics stack (f :: fs) (first ++ rest)

/-- The trace of an emission that reaches the threshold: the complaints about its objects, then one
attempt to write its record. -/
def Emitted (l : Logger) (e : Emission) (events : List Event) : Prop :=
  ∃ diagnostics attempt, events = diagnostics ++ attempt ∧
    Diagnostics s d e.site.stack (Field.marshalFailures (e.leading ++ e.fields)) diagnostics ∧
    Attempt s d e.site l.sink (s.record l e) attempt

end Shape

variable {s : Session} {d : Logger}

/-! ### From another state -/

/-- A trace is judged alike from a state that differs in nothing it mentions. -/
theorem Report.congr {s₁ : Session} (h : Alike s s₁) {report : Emission} {events : List Event}
    (hr : Report s₁ d report events) : Report s d report events := by
  cases hr with
  | silent hd => exact .silent hd
  | written hd =>
      rw [h.record]
      exact .written hd
  | lost hd e =>
      rw [h.record, h.name]
      exact .lost hd e

theorem Attempt.congr {s₁ : Session} (h : Alike s s₁) {site : CallSite} {sink : SinkId}
    {record : List Char} {events : List Event} (ha : Attempt s₁ d site sink record events) :
    Attempt s d site sink record events := by
  cases ha with
  | taken => exact .taken
  | failed hflag hreport hevents =>
      rw [h.name] at hreport
      exact .failed (h.reporting.symm.trans hflag) hreport (hevents.congr h)
  | nested hflag =>
      rw [h.name]
      exact .nested (h.reporting.symm.trans hflag)

theorem Diagnostics.congr {s₁ : Session} (h : Alike s s₁) {stack : List StackSymbol}
    {fs : List MarshalFailure} {events : List Event} (hs : Diagnostics s₁ d stack fs events) :
    Diagnostics s d stack fs events := by
  induction hs with
  | silent hd => exact .silent hd
  | nil => exact .nil
  | cons hd hreport hfirst _ ih =>
      rw [h.record] at hfirst
      exact .cons hd hreport (hfirst.congr h) ih

/-! ### Attempts and complaints -/

/-- The record that an event attempts to write, with the sink that it is offered to. -/
def attempt? : Event → Option (SinkId × List Char)
  | .offered sink record _ => some (sink, record)
  | _ => none

/-- Where the default logger does not take errors, an attempt is all there is. -/
theorem Attempt.attempts_of_silent (hd : d.accepts Builtin.error.severity = false) {site : CallSite}
    {sink : SinkId} {record : List Char} {events : List Event}
    (h : Attempt s d site sink record events) : events.filterMap attempt? = [(sink, record)] := by
  cases h with
  | taken => rfl
  | nested => rfl
  | failed hflag hreport hevents =>
      cases hevents with
      | silent => rfl
      | written haccepts =>
          rw [hd] at haccepts
          cases haccepts
      | lost haccepts =>
          rw [hd] at haccepts
          cases haccepts

/-- A complaint is the last event of an attempt. -/
theorem Attempt.rest_eq_nil {site : CallSite} {sink : SinkId} {record : List Char}
    {events rest : List Event} {e : LogError}
    (h : Attempt s d site sink record (events ++ .complained e :: rest)) : rest = [] := by
  generalize hall : events ++ .complained e :: rest = all at h
  have hearlier : ∀ x ∈ all.dropLast, ∀ e, x ≠ .complained e := by
    cases h with
    | taken | nested => simp
    | failed _ _ hevents => cases hevents <;> simp
  cases rest with
  | nil => rfl
  | cons x rest =>
      have hmem : .complained e ∈ all.dropLast := by
        rw [← hall, List.dropLast_append_of_ne_nil (by simp)]
        simp
      exact absurd rfl (hearlier _ hmem e)

theorem Diagnostics.eq_nil {stack : List StackSymbol} {events : List Event}
    (h : Diagnostics s d stack [] events) : events = [] := by
  cases h <;> rfl

theorem Diagnostics.eq_nil_of_silent (hd : d.accepts Builtin.error.severity = false)
    {stack : List StackSymbol} {fs : List MarshalFailure} {events : List Event}
    (h : Diagnostics s d stack fs events) : events = [] := by
  cases h with
  | silent => rfl
  | nil => rfl
  | cons haccepts =>
      rw [hd] at haccepts
      cases haccepts

/-- One logger, whose sink fails at every attempt. -/
def failing : Session where
  hostname := .ok "host"
  sinks := [.unreliable { name := "disk", message := "full", fails := fun _ => true }]
  loggers := [{ config := {}, sink := 0 }]

end LineLog.Session
