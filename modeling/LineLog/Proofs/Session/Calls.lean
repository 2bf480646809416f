import LineLog.Proofs.Session.Surfaces
/-!
# LineLog.Proofs.Session.Calls

Calls in a process whose standard streams may refuse.

A call that can show its message emits one record, and goes on to what its verb does besides only if that
has returned (`Piped.perform_of_shows`). Whether it returns or panics, the process can go on as before
(`Piped.setting_run`). Where the streams take what they are given, a run of calls comes to the run of the
same calls on the session (`Piped.agrees_run`), so whatever is shown of runs there holds of such a process.
-/

namespace LineLog.Piped

open Session (Alike)

variable {p : Piped}

/-- The state at another moment. -/
def atTime (p : Piped) (now : Time.Instant) : Piped :=
  { p with session := p.session.atTime now }

/-- Make a call. -/
def perform (p : Piped) (c : Call) : Piped × Outcome Unit :=
  match c.request with
  | .message text fields => (p.atTime c.now).logMessage c.id c.site c.verb text fields
  | .formatted value => (p.atTime c.now).logFormatted c.id c.site c.verb value
  | .error err fields => (p.atTime c.now).logError c.id c.site c.verb err fields

/-- Make calls in order. A panic is caught by the caller, who goes on. -/
def run (p : Piped) (calls : List Call) : Piped :=
  calls.foldl (fun p c => (p.perform c).1) p

/-! ### What a call comes to -/

theorem log_of_suppressed {id : LoggerId} {e : Emission}
    (h : p.session.accepts id e.severity = false) : p.log id e = (p, .ok ()) := by
  rw [Session.accepts] at h
  rw [log]
  cases hl : p.session.logger? id with
  | none => rfl
  | some l =>
      rw [hl] at h
      show p.emit l e = (p, .ok ())
      rw [emit, if_neg (by simpa using h)]

/-- Unless it ends in a panic, what a call ends with does not depend on its message. -/
theorem finish_congr (p : Piped) {ending : Ending} (h : ending ≠ .panics)
    (message message' : List Char) : p.finish ending message = p.finish ending message' := by
  rw [finish, finish, p.session.finish_congr h message message']

/-- Making a call whose message can be shown emits one record, and then ends as its verb says. -/
theorem perform_of_shows (p : Piped) {c : Call} (h : c.request.Shows) :
    p.perform c = andThen ((p.atTime c.now).log c.id c.emission)
      fun p => p.finish c.verb.ending c.request.text.toList := by
  obtain ⟨now, id, site, verb, request⟩ := c
  -- A call that is not heard may skip the emission, which would do nothing anyway.
  have hsuppressed : (p.atTime now).session.accepts id verb.severity = false →
      (p.atTime now).log id (Call.emission ⟨now, id, site, verb, request⟩) =
        (p.atTime now, .ok ()) :=
    fun hquiet => log_of_suppressed hquiet
  cases request with
  | message text fields => rfl
  | formatted value =>
      show (p.atTime now).logFormatted id site verb value = _
      rw [logFormatted]
      split
      · rw [Session.formatted_of_shows h]
        rfl
      · rename_i hskips
        obtain ⟨hquiet, hending⟩ : (p.atTime now).session.accepts id verb.severity = false ∧
            verb.ending ≠ .panics := by simpa using hskips
        rw [hsuppressed hquiet]
        exact finish_congr _ hending _ _
  | error err fields =>
      show (p.atTime now).logError id site verb err fields = _
      rw [logError, Session.panicText_eq err fields]
      split
      · rw [Session.errorMessage_of_shows h]
        rfl
      · rename_i hquiet
        rw [hsuppressed (by simpa using hquiet)]
        rfl

/-- Logging arguments is logging a value that shows itself, however the text is obtained. -/
theorem logArguments_eq (p : Piped) (id : LoggerId) (site : CallSite) (verb : Verb)
    (args : Arguments) : p.logArguments id site verb args = p.logFormatted id site verb args.shown := by
  rw [logArguments, logFormatted]
  cases hending : verb.ending with
  | returns =>
      cases haccepts : p.session.accepts id verb.severity with
      | false => simp [emitArguments, haccepts, finish, Session.finish]
      | true =>
          simp only [emitArguments, haccepts, args.render_eq]
          cases formatted args.shown with
          | error panic => rfl
          | ok message => exact (andThen_returned _).symm
  | exits =>
      cases haccepts : p.session.accepts id verb.severity with
      | false => simp [emitArguments, haccepts, andThen, finish, Session.finish]
      | true =>
          simp only [emitArguments, haccepts, args.render_eq]
          cases formatted args.shown <;> rfl
  | panics =>
      simp only [args.render_eq]
      cases formatted args.shown <;> simp [finish, Session.finish]

/-! ### What a call leaves alone -/

theorem alike_finish (p : Piped) (ending : Ending) (message : List Char) :
    Alike p.session (p.finish ending message).1.session := by
  cases ending with
  | returns | panics => exact .refl _
  | exits => exact Session.alike_ended p.session .exits

theorem alike_log_finish (p : Piped) (id : LoggerId) (e : Emission) (ending : Ending)
    (message : List Char) :
    Alike p.session (andThen (p.log id e) fun p => p.finish ending message).1.session := by
  have halike := (p.traced_log id e).alike
  generalize p.log id e = r at halike
  obtain ⟨q, panic | ⟨⟩⟩ := r
  · exact halike
  · exact halike.trans (q.alike_finish ending message)

/-- A call changes the time, what sinks hold, and the journal, whether it returns or panics. -/
theorem alike_perform (p : Piped) (c : Call) :
    Alike (p.atTime c.now).session (p.perform c).1.session := by
  obtain ⟨now, id, site, verb, request⟩ := c
  cases request with
  | message text fields => exact alike_log_finish _ _ _ _ _
  | formatted value =>
      show Alike _ ((p.atTime now).logFormatted id site verb value).1.session
      rw [logFormatted]
      split
      · cases formatted value with
        | error panic => exact .refl _
        | ok message => exact alike_log_finish _ _ _ _ _
      · exact alike_finish _ _ _
  | error err fields =>
      show Alike _ ((p.atTime now).logError id site verb err fields).1.session
      rw [logError]
      split
      · cases Session.errorMessage err with
        | error panic => exact .refl _
        | ok message => exact alike_log_finish _ _ _ _ _
      · exact alike_finish _ _ _

/-- **Panics leave no trace in what the process goes on with.** Over any run of calls, some of which may
panic for whatever reason, no report stays marked as under way, and loggers and settings are as they
were. -/
theorem setting_run (p : Piped) (calls : List Call) :
    (p.run calls).session.reporting = p.session.reporting ∧
      (p.run calls).session.loggers = p.session.loggers ∧
      (p.run calls).session.defaultLogger = p.session.defaultLogger ∧
      (p.run calls).session.exitHandler = p.session.exitHandler := by
  induction calls generalizing p with
  | nil => exact ⟨rfl, rfl, rfl, rfl⟩
  | cons c calls ih =>
      have halike := p.alike_perform c
      obtain ⟨hreporting, hloggers, hdefault, hhandler⟩ := ih (p.perform c).1
      exact ⟨hreporting.trans halike.reporting, hloggers.trans halike.loggers,
        hdefault.trans halike.defaultLogger, hhandler.trans halike.exitHandler⟩

/-! ### Streams that take what they are given -/

section Takes

variable (hp : ∀ stream, p.streams.Takes stream)

include hp

theorem agrees_log_finish (id : LoggerId) (e : Emission) (ending : Ending) (message : List Char) :
    Agrees p (andThen (p.log id e) fun p => p.finish ending message)
      ((p.session.log id e).finish ending message).1
      ((p.session.log id e).finish ending message).2 := by
  refine (agrees_log hp id e).andThen fun q hsession hanswers => ?_
  rw [← hsession]
  exact ⟨rfl, rfl, rfl⟩

theorem agrees_perform (c : Call) :
    Agrees p (p.perform c) (p.session.perform c).1 (p.session.perform c).2 := by
  obtain ⟨now, id, site, verb, request⟩ := c
  have hat : ∀ stream, (p.atTime now).streams.Takes stream := hp
  refine Agrees.from_answers (q := p.atTime now) ?_ rfl
  cases request with
  | message text fields => exact agrees_log_finish hat id _ _ _
  | formatted value =>
      show Agrees (p.atTime now) ((p.atTime now).logFormatted id site verb value)
        ((p.atTime now).session.logFormatted id site verb value).1
        ((p.atTime now).session.logFormatted id site verb value).2
      rw [logFormatted, Session.logFormatted]
      split
      · cases formatted value with
        | error panic => exact .refl _ _
        | ok message => exact agrees_log_finish hat id _ _ _
      · exact ⟨rfl, rfl, rfl⟩
  | error err fields =>
      show Agrees (p.atTime now) ((p.atTime now).logError id site verb err fields)
        ((p.atTime now).session.logError id site verb err fields).1
        ((p.atTime now).session.logError id site verb err fields).2
      rw [logError, Session.logError]
      split
      · cases Session.errorMessage err with
        | error panic => exact .refl _ _
        | ok message => exact agrees_log_finish hat id _ _ _
      · exact ⟨rfl, rfl, rfl⟩

/-- **A process whose streams take what they are given is a session**, over any run of calls. -/
theorem agrees_run (calls : List Call) :
    (p.run calls).session = p.session.run calls ∧
      (p.run calls).streams.answers = p.streams.answers := by
  induction calls generalizing p with
  | nil => exact ⟨rfl, rfl⟩
  | cons c calls ih =>
      obtain ⟨hsession, -, hanswers⟩ := agrees_perform hp c
      obtain ⟨hrest, hrestAnswers⟩ := ih (takes_of_answers hp hanswers)
      rw [hsession] at hrest
      exact ⟨hrest, hrestAnswers.trans hanswers⟩

end Takes

end LineLog.Piped
