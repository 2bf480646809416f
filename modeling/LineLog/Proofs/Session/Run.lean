import LineLog.Proofs.Session.Agreement
/-!
# LineLog.Proofs.Session.Run

Calls of loggers as data, one after the other.

A `Call` is any of the ways to log something, at some moment and through some logger. If
what it has to show does not fail, making it is the same as emitting one record
(`perform_of_shows`), whichever way it takes. Calls change neither the loggers nor the
settings (`alike_perform`), so what each of them emits can be told from the state at the
start of the run.
-/

namespace LineLog

/-- What a call has to say. -/
inductive Request
  | message (text : String) (fields : List Field)
  | formatted (value : Shown)
  | error (err : Option Fault) (fields : List Field)

namespace Request

/-- Nothing that the message is made of fails. -/
def Shows : Request → Prop
  | message _ _ => True
  | formatted value => value.fails = false
  | error none _ => True
  | error (some f) _ => f.message.fails = false

/-- The message of the record. -/
def text : Request → String
  | message text _ => text
  | formatted value => String.ofList value.text
  | error none _ => Session.nilMessage
  | error (some f) _ => String.ofList f.text

/-- The fields that the request adds to those of the caller. -/
def leading : Request → List Field
  | error err _ => Session.errorFields err
  | _ => []

/-- The fields of the caller. -/
def fields : Request → List Field
  | message _ fields | error _ fields => fields
  | formatted _ => []

/-- What showing the message fails with, if it fails. -/
def failure : Request → Panic
  | formatted _ => .formatting
  | message _ _ | error _ _ => .display

end Request

/-- The call of a logger at some moment. -/
structure Call where
  now : Time.Instant
  id : LoggerId
  site : CallSite
  verb : Verb
  request : Request

/-- The emission that a call makes. -/
def Call.emission (c : Call) : Emission where
  site := c.site
  severity := c.verb.severity
  message := c.request.text
  leading := c.request.leading
  fields := c.request.fields

/-- The fields that a request adds hold no objects. -/
theorem Call.marshalFailures_emission (c : Call) :
    Field.marshalFailures (c.emission.leading ++ c.emission.fields) =
      Field.marshalFailures c.request.fields := by
  obtain ⟨now, id, site, verb, request⟩ := c
  cases request with
  | message | formatted => rfl
  | error err fields =>
      rw [Field.marshalFailures_append]
      rfl

namespace Session

/-- The state at another moment. -/
def atTime (s : Session) (now : Time.Instant) : Session :=
  { s with now := now }

/-- Make a call. -/
def perform (s : Session) (c : Call) : Session × Outcome Unit :=
  match c.request with
  | .message text fields => (s.atTime c.now).logMessage c.id c.site c.verb text fields
  | .formatted value => (s.atTime c.now).logFormatted c.id c.site c.verb value
  | .error err fields => (s.atTime c.now).logError c.id c.site c.verb err fields

/-- Make calls in order. A panic is caught by the caller, who goes on. -/
def run (s : Session) (calls : List Call) : Session :=
  calls.foldl (fun s c => (s.perform c).1) s

/-! ### What a call comes to -/

/-- The state once a method has done what it does besides emitting. -/
def ended (s : Session) : Ending → Session
  | .exits => s.exit 1
  | .returns | .panics => s

theorem finish_fst (s : Session) (ending : Ending) (message : List Char) :
    (s.finish ending message).1 = s.ended ending := by
  cases ending <;> rfl

theorem finish_snd (s : Session) {ending : Ending} (h : ending ≠ .panics) (message : List Char) :
    (s.finish ending message).2 = .ok () := by
  cases ending with
  | returns | exits => rfl
  | panics => exact absurd rfl h

theorem accepts_of_logger? {s : Session} {id : LoggerId} {l : Logger}
    (hl : s.logger? id = some l) (severity : Severity) :
    s.accepts id severity = l.accepts severity := by
  rw [accepts, hl]

theorem log_of_suppressed {s : Session} {id : LoggerId} {e : Emission}
    (h : s.accepts id e.severity = false) : s.log id e = s := by
  rw [accepts] at h
  rw [log]
  cases hl : s.logger? id with
  | none => rfl
  | some l =>
      rw [hl] at h
      show s.emit l e = s
      rw [emit, if_neg (by simpa using h)]

theorem formatted_of_shows {value : Shown} (h : (Request.formatted value).Shows) :
    LineLog.formatted value = .ok (Request.formatted value).text := by
  have hfails : value.fails = false := h
  rw [LineLog.formatted, hfails]
  rfl

theorem formatted_of_not_shows {value : Shown} (h : ¬ (Request.formatted value).Shows) :
    LineLog.formatted value = .error (Request.formatted value).failure := by
  have hfails : value.fails = true := by simpa [Request.Shows] using h
  rw [LineLog.formatted, if_pos hfails]
  rfl

theorem errorMessage_of_shows {err : Option Fault} {fields : List Field}
    (h : (Request.error err fields).Shows) :
    errorMessage err = .ok (Request.error err fields).text := by
  cases err with
  | none => rfl
  | some f =>
      have hfails : f.message.fails = false := h
      rw [errorMessage, displayed, hfails]
      rfl

theorem errorMessage_of_not_shows {err : Option Fault} {fields : List Field}
    (h : ¬ (Request.error err fields).Shows) :
    errorMessage err = .error (Request.error err fields).failure := by
  cases err with
  | none => exact absurd trivial h
  | some f =>
      have hfails : f.message.fails = true := by simpa [Request.Shows] using h
      rw [errorMessage, displayed, if_pos hfails]
      rfl

/-- The message of a panic is the text of the call. -/
theorem panicText_eq (err : Option Fault) (fields : List Field) :
    panicText err = (Request.error err fields).text.toList := by
  cases err with
  | none => rfl
  | some f => exact String.toList_ofList.symm

/-- Unless it ends in a panic, what a call ends with does not depend on its message. -/
theorem finish_congr (s : Session) {ending : Ending} (h : ending ≠ .panics)
    (message message' : List Char) : s.finish ending message = s.finish ending message' := by
  cases ending with
  | returns | exits => rfl
  | panics => exact absurd rfl h

/-- Making a call whose message can be shown emits one record, and then ends as its verb says. -/
theorem perform_of_shows (s : Session) {c : Call} (h : c.request.Shows) :
    s.perform c = ((s.atTime c.now).log c.id c.emission).finish c.verb.ending
      c.request.text.toList := by
  obtain ⟨now, id, site, verb, request⟩ := c
  -- A call that is not heard may skip the emission, which would do nothing anyway.
  have hsuppressed : (s.atTime now).accepts id verb.severity = false →
      (s.atTime now).log id (Call.emission ⟨now, id, site, verb, request⟩) = s.atTime now :=
    fun hquiet => log_of_suppressed hquiet
  cases request with
  | message text fields => rfl
  | formatted value =>
      show (s.atTime now).logFormatted id site verb value = _
      rw [logFormatted]
      split
      · rw [formatted_of_shows h]
        rfl
      · rename_i hskips
        obtain ⟨hquiet, hending⟩ : (s.atTime now).accepts id verb.severity = false ∧
            verb.ending ≠ .panics := by simpa using hskips
        rw [hsuppressed hquiet]
        exact finish_congr _ hending _ _
  | error err fields =>
      show (s.atTime now).logError id site verb err fields = _
      rw [logError, panicText_eq err fields]
      split
      · rw [errorMessage_of_shows h]
        rfl
      · rename_i hquiet
        rw [hsuppressed (by simpa using hquiet)]

theorem perform_fst (s : Session) {c : Call} (h : c.request.Shows) :
    (s.perform c).1 = ((s.atTime c.now).log c.id c.emission).ended c.verb.ending := by
  rw [perform_of_shows s h, finish_fst]

/-- It returns, unless it is meant to panic. -/
theorem perform_snd_of_shows (s : Session) {c : Call} (h : c.request.Shows)
    (hverb : c.verb.ending ≠ .panics) : (s.perform c).2 = .ok () := by
  rw [perform_of_shows s h, finish_snd _ hverb]

/-- A call whose message cannot be shown emits nothing. It ends as its verb says, or panics before. -/
theorem perform_cases_of_not_shows (s : Session) {c : Call} (h : ¬ c.request.Shows) :
    (∃ message, s.perform c = (s.atTime c.now).finish c.verb.ending message) ∨
      s.perform c = (s.atTime c.now, .error c.request.failure) := by
  obtain ⟨now, id, site, verb, request⟩ := c
  cases request with
  | message text fields => exact absurd trivial h
  | formatted value =>
      show (∃ message, (s.atTime now).logFormatted id site verb value = _) ∨
        (s.atTime now).logFormatted id site verb value = _
      rw [logFormatted]
      split
      · exact .inr (by rw [formatted_of_not_shows h])
      · exact .inl ⟨[], rfl⟩
  | error err fields =>
      show (∃ message, (s.atTime now).logError id site verb err fields = _) ∨
        (s.atTime now).logError id site verb err fields = _
      rw [logError]
      split
      · exact .inr (by rw [errorMessage_of_not_shows h])
      · exact .inl ⟨panicText err, rfl⟩

theorem exists_ended_of_not_shows (s : Session) {c : Call} (h : ¬ c.request.Shows) :
    ∃ ending, (s.perform c).1 = (s.atTime c.now).ended ending := by
  rcases s.perform_cases_of_not_shows h with ⟨message, hperform⟩ | hperform
  · exact ⟨c.verb.ending, by rw [hperform, finish_fst]⟩
  · exact ⟨.returns, by rw [hperform]; rfl⟩

/-- A call that is not heard does what its verb does besides emitting, and nothing else. -/
theorem perform_of_unheard {s : Session} {c : Call}
    (hquiet : s.accepts c.id c.verb.severity = false) (hverb : c.verb.ending ≠ .panics) :
    s.perform c = ((s.atTime c.now).ended c.verb.ending, .ok ()) := by
  obtain ⟨now, id, site, verb, request⟩ := c
  have hat : (s.atTime now).accepts id verb.severity = false := hquiet
  have hending : verb.ending ≠ .panics := hverb
  have hfinish : ∀ message, (s.atTime now).finish verb.ending message =
      ((s.atTime now).ended verb.ending, .ok ()) :=
    fun message => Prod.ext (finish_fst _ _ _) (finish_snd _ hending _)
  cases request with
  | message text fields =>
      have hsame := log_of_suppressed
        (e := { site, severity := verb.severity, message := text, fields := fields }) hat
      show (s.atTime now).logMessage id site verb text fields = _
      rw [logMessage, hsame]
      exact hfinish _
  | formatted value =>
      show (s.atTime now).logFormatted id site verb value = _
      rw [logFormatted, if_neg (by simp [hat, hending])]
      exact hfinish _
  | error err fields =>
      show (s.atTime now).logError id site verb err fields = _
      rw [logError, if_neg (by simp [hat])]
      exact hfinish _

/-- A call that is not heard, and does nothing besides emitting, does nothing. -/
theorem perform_of_suppressed {s : Session} {c : Call}
    (hquiet : s.accepts c.id c.verb.severity = false) (hverb : c.verb.ending = .returns) :
    s.perform c = (s.atTime c.now, .ok ()) := by
  rw [perform_of_unheard hquiet (by simp [hverb]), hverb]
  rfl

/-- A call that is heard, and whose message cannot be shown, panics and does nothing else. -/
theorem perform_of_not_shows {s : Session} {c : Call}
    (haccepts : s.accepts c.id c.verb.severity = true) (h : ¬ c.request.Shows) :
    s.perform c = (s.atTime c.now, .error c.request.failure) := by
  obtain ⟨now, id, site, verb, request⟩ := c
  have hat : (s.atTime now).accepts id verb.severity = true := haccepts
  cases request with
  | message text fields => exact absurd trivial h
  | formatted value =>
      show (s.atTime now).logFormatted id site verb value = _
      rw [logFormatted, if_pos (by simp [hat]), formatted_of_not_shows h]
  | error err fields =>
      show (s.atTime now).logError id site verb err fields = _
      rw [logError, if_pos hat, errorMessage_of_not_shows h]

/-- What the end of a call adds to the journal. -/
def endingEvents (s : Session) : Ending → List Event
  | .exits => [.exited s.exitHandler 1]
  | .returns | .panics => []

theorem journal_ended (s : Session) (ending : Ending) :
    (s.ended ending).journal = s.journal ++ s.endingEvents ending := by
  cases ending with
  | returns | panics => exact (List.append_nil _).symm
  | exits => rfl

/-- The trace of a call that is heard and can show its message: the complaints about its objects, its
record with what follows if that fails, and what its verb does besides. -/
theorem trace_perform {s : Session} {c : Call} {l d : Logger} (hl : s.logger? c.id = some l)
    (hd : s.logger? s.defaultLogger = some d) (haccepts : l.accepts c.verb.severity = true)
    (hshows : c.request.Shows) :
    ∃ diagnostics attempt,
      (s.perform c).1.journal =
        s.journal ++ (diagnostics ++ attempt ++ s.endingEvents c.verb.ending) ∧
      Diagnostics (s.atTime c.now) d c.site.stack (Field.marshalFailures c.request.fields)
        diagnostics ∧
      Attempt (s.atTime c.now) d c.site l.sink ((s.atTime c.now).record l c.emission) attempt := by
  have hdefault : (s.atTime c.now).logger? (s.atTime c.now).defaultLogger = some d := hd
  have hat : (s.atTime c.now).logger? c.id = some l := hl
  obtain ⟨diagnostics, attempt, hperforms, hdiagnostics, hattempt⟩ :=
    performs_emit hdefault (e := c.emission) haccepts
  rw [c.marshalFailures_emission] at hdiagnostics
  refine ⟨diagnostics, attempt, ?_, hdiagnostics, hattempt⟩
  have hhandler : ((s.atTime c.now).emit l c.emission).exitHandler = s.exitHandler :=
    hperforms.alike.exitHandler
  have hevents : ((s.atTime c.now).emit l c.emission).endingEvents c.verb.ending =
      s.endingEvents c.verb.ending := by
    cases c.verb.ending with
    | returns | panics => rfl
    | exits => rw [endingEvents, hhandler, endingEvents]
  rw [perform_fst s hshows, log, hat, journal_ended]
  show (Session.emit _ l c.emission).journal ++ _ = _
  rw [hperforms.journal, hevents, List.append_assoc]
  rfl

/-! ### What a call leaves alone -/

theorem alike_ended (s : Session) (ending : Ending) : Alike s (s.ended ending) := by
  cases ending with
  | returns | panics => exact .refl s
  | exits => exact ⟨rfl, rfl, rfl, rfl, rfl, rfl, rfl, rfl, fun _ => rfl⟩

/-- The first state becomes the second by attempts to write and complaints, and by nothing else. -/
def Reaches (s s' : Session) : Prop :=
  ∃ events, Performs s events s'

namespace Reaches

theorem refl (s : Session) : Reaches s s :=
  ⟨[], .nil s⟩

theorem alike {s s' : Session} : Reaches s s' → Alike s s' := by
  rintro ⟨events, h⟩
  exact h.alike

end Reaches

theorem reaches_reportMarshalFailures (s : Session) (stack : List StackSymbol)
    (fs : List MarshalFailure) : Reaches s (s.reportMarshalFailures stack fs) := by
  obtain ⟨d, hd⟩ := s.exists_reportsTo
  obtain ⟨events, h, -⟩ := performs_reportMarshalFailures hd stack fs
  exact ⟨events, h⟩

theorem reaches_log (s : Session) (id : LoggerId) (e : Emission) : Reaches s (s.log id e) := by
  obtain ⟨events, h, -⟩ := performs_of_traced (Piped.traced_log ⟨s, {}⟩ id e)
    (Piped.agrees_log (fun _ _ => rfl) id e)
  exact ⟨events, h⟩

theorem alike_reportMarshalFailures (s : Session) (stack : List StackSymbol)
    (fs : List MarshalFailure) : Alike s (s.reportMarshalFailures stack fs) :=
  (reaches_reportMarshalFailures s stack fs).alike

/-- What a call does: it emits, and then ends as its verb says. If its message cannot be shown it may
panic before. -/
theorem perform_cases (s : Session) (c : Call) :
    ∃ t, Reaches (s.atTime c.now) t ∧
      ((∃ message, s.perform c = t.finish c.verb.ending message) ∨
        s.perform c = (t, .error c.request.failure)) := by
  by_cases h : c.request.Shows
  · exact ⟨_, reaches_log (s.atTime c.now) c.id c.emission, .inl ⟨_, perform_of_shows s h⟩⟩
  · exact ⟨_, .refl _, s.perform_cases_of_not_shows h⟩

/-- A call changes the time, what sinks hold, and the journal. -/
theorem alike_perform (s : Session) (c : Call) : Alike (s.atTime c.now) (s.perform c).1 := by
  obtain ⟨t, hreaches, ⟨message, hperform⟩ | hperform⟩ := s.perform_cases c
  · rw [hperform, finish_fst]
    exact hreaches.alike.trans (alike_ended t _)
  · rw [hperform]
    exact hreaches.alike

/-- A fatal call that returns has called the exit function at last, which is the one that was in force
when the call was made. -/
theorem exited_of_returns (s : Session) {c : Call} (hverb : c.verb.ending = .exits)
    (hreturns : (s.perform c).2 = .ok ()) :
    (s.perform c).1.journal.getLast? = some (.exited s.exitHandler 1) := by
  obtain ⟨t, hreaches, ⟨message, hperform⟩ | hperform⟩ := s.perform_cases c
  · have hhandler : t.exitHandler = s.exitHandler := hreaches.alike.exitHandler
    rw [hperform, hverb, finish_fst, journal_ended, endingEvents, hhandler, List.getLast?_concat]
  · rw [hperform] at hreturns
    cases hreturns

/-- Calls change no logger, nor which one is the default, nor the default format of times. -/
theorem setting_run (s : Session) (calls : List Call) :
    (s.run calls).loggers = s.loggers ∧ (s.run calls).defaultLogger = s.defaultLogger ∧
      (s.run calls).timeFormat = s.timeFormat := by
  induction calls generalizing s with
  | nil => exact ⟨rfl, rfl, rfl⟩
  | cons c calls ih =>
      have halike := alike_perform s c
      obtain ⟨hloggers, hdefault, hformat⟩ := ih (s.perform c).1
      exact ⟨hloggers.trans halike.loggers, hdefault.trans halike.defaultLogger,
        hformat.trans halike.timeFormat⟩

end Session
end LineLog
