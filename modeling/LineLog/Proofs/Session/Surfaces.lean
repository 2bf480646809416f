import LineLog.Session.Arguments
import LineLog.Proofs.Session.Action
import LineLog.Proofs.Session.Containment
import LineLog.Proofs.Session.Frames
/-!
# LineLog.Proofs.Session.Surfaces

Every way to log is plain print.

The ways to call a logger take different paths to the same emission. Each has its own look at the
threshold, an error brings fields that go before those of the caller, and arguments may be known before
they are formatted. `Call.plain` is the call of print that says the same: the text of the request as
the message, with all fields in one list. Making it leaves the same state and ends in the same way
(`Session.perform_plain`), so no record, report or complaint tells the two apart, whatever the sinks
answer and whichever objects refuse.

Design points:

* `Request.Shows` is what it takes. A value that fails has no text that print could be given.
* Methods that do not return keep their verb: what they do at last is not the affair of print.
* The frames of the logger itself may differ (`Session.perform_plain_beneath`).
-/

namespace LineLog

/-! ### Arguments -/

namespace Session

/-- Logging arguments is logging a value that shows itself, however the text is obtained. -/
theorem logArguments_eq (s : Session) (id : LoggerId) (site : CallSite) (verb : Verb)
    (args : Arguments) : s.logArguments id site verb args = s.logFormatted id site verb args.shown := by
  rw [logArguments, logFormatted]
  cases hending : verb.ending with
  | returns | exits =>
      cases haccepts : s.accepts id verb.severity with
      | false => simp [emitArguments, haccepts, finish]
      | true =>
          simp only [emitArguments, haccepts, args.render_eq]
          cases formatted args.shown <;> rfl
  | panics =>
      simp only [args.render_eq]
      cases formatted args.shown <;> simp [finish]

end Session

/-! ### The plain call -/

/-- Print in the place of a method for one level. -/
def Verb.plain : Verb → Verb
  | named level => print level.severity
  | other => other

namespace Verb

@[simp] theorem severity_plain (verb : Verb) : verb.plain.severity = verb.severity := by
  cases verb <;> rfl

@[simp] theorem ending_plain (verb : Verb) : verb.plain.ending = verb.ending := by
  cases verb <;> rfl

end Verb

/-- The message that says the same. -/
def Request.plain (r : Request) : Request :=
  .message r.text (r.leading ++ r.fields)

/-- The call of print that says the same. -/
def Call.plain (c : Call) : Call :=
  { c with
    verb := c.verb.plain
    request := c.request.plain }

/-- The emission with all of its fields in one list. -/
def Emission.joined (e : Emission) : Emission :=
  { e with
    leading := []
    fields := e.leading ++ e.fields }

namespace Call

variable (c : Call)

theorem emission_plain : c.plain.emission = c.emission.joined := by
  rw [emission, plain, Verb.severity_plain]
  rfl

/-- The fields that an error brings are not looked for anywhere. -/
theorem sites_plain : c.plain.sites = c.sites := by
  have hfailures : Field.marshalFailures c.plain.request.fields =
      Field.marshalFailures c.request.fields := c.marshalFailures_emission
  rw [sites, sites, hfailures]
  rfl

end Call

namespace Session

/-- Leading fields are fields that come first. -/
theorem log_joined (s : Session) (id : LoggerId) (e : Emission) : s.log id e.joined = s.log id e := by
  rw [log, log]
  cases s.logger? id with
  | none => rfl
  | some l =>
      show s.emit l e.joined = s.emit l e
      rw [emit, emit]
      exact ite_congr rfl (fun _ => write_congr _ rfl rfl) fun _ => rfl

section Plain

variable (s : Session) (id : LoggerId) (site : CallSite) (verb : Verb)

/-- Of a method, only its level and its end play a part. -/
theorem logMessage_plain (message : String) (fields : List Field) :
    s.logMessage id site verb message fields = s.logMessage id site verb.plain message fields := by
  rw [logMessage, logMessage, verb.severity_plain, verb.ending_plain]

theorem logFormatted_plain (value : Shown) :
    s.logFormatted id site verb value = s.logFormatted id site verb.plain value := by
  rw [logFormatted, logFormatted, verb.severity_plain, verb.ending_plain]

theorem logError_plain (err : Option Fault) (fields : List Field) :
    s.logError id site verb err fields = s.logError id site verb.plain err fields := by
  rw [logError, logError, verb.severity_plain, verb.ending_plain]

theorem logArguments_plain (args : Arguments) :
    s.logArguments id site verb args = s.logArguments id site verb.plain args := by
  rw [logArguments_eq, logArguments_eq, logFormatted_plain]

end Plain

/-- **A call that can show its message is a plain call**, in what it leaves behind and in how it
ends. -/
theorem perform_plain (s : Session) {c : Call} (hshows : c.request.Shows) :
    s.perform c.plain = s.perform c := by
  have hplain : c.plain.request.Shows := trivial
  rw [perform_of_shows s hplain, perform_of_shows s hshows, c.emission_plain]
  show ((s.atTime c.now).log c.id c.emission.joined).finish c.verb.plain.ending _ = _
  rw [log_joined, Verb.ending_plain]
  rfl

/-- The two may be made from below different frames. -/
theorem perform_plain_beneath (s : Session) {c : Call} (hshows : c.request.Shows)
    {inner inner' : List StackSymbol} (h : ∀ site ∈ c.sites, Caller.Foreign inner site)
    (h' : ∀ site ∈ c.sites, Caller.Foreign inner' site) :
    s.perform (c.plain.beneath inner') = s.perform (c.beneath inner) := by
  have hplain : c.plain.request.Shows := trivial
  have hsites : ∀ site ∈ c.plain.sites, Caller.Foreign inner' site := by rwa [c.sites_plain]
  rw [perform_beneath s hplain hsites, perform_plain s hshows, perform_beneath s hshows h]

end Session

/-! ### Runs -/

/-- The action with its call made plain, if that is possible. -/
def Action.plain : Action → Action
  | .call c => .call (if c.request.Shows then c.plain else c)
  | other => other

namespace Session

theorem act_plain (s : Session) (a : Action) : s.act a.plain = s.act a := by
  cases a with
  | call c =>
      by_cases hshows : c.request.Shows
      · have hplain : Action.plain (.call c) = .call c.plain := by rw [Action.plain, if_pos hshows]
        rw [hplain, act, act, perform_plain s hshows]
      · have hsame : Action.plain (.call c) = .call c := by rw [Action.plain, if_neg hshows]
        rw [hsame]
  | _ => rfl

/-- A program that logs plainly does and learns the same. -/
theorem acts_plain (s : Session) (actions : List Action) :
    s.acts (actions.map Action.plain) = s.acts actions := by
  induction actions generalizing s with
  | nil => rfl
  | cons a actions ih =>
      rw [List.map_cons, acts, acts, act_plain]
      simp only [ih]

/-- **Every way to log agrees with plain print.** An error whose text can be taken is its text, with
the error and its trace before the fields of the caller. A missing error is `<nil>`, with both of these
written as `null`. Arguments that can be formatted are their text, without fields. A method for one
level is print of the same kind at that level, whatever it is given, and so is a shorthand. The states
are the same, with everything that sinks were offered and answered, and with the reports about objects
and failed writes, in order. Frames of the logger on the stack make no difference, and a whole program
can be made to log plainly. -/
theorem surfaces_agree (s : Session) (id : LoggerId) (site : CallSite) (severity : Severity)
    (fields : List Field) :
    (∀ err : Fault, err.message.fails = false →
      s.logError id site (.print severity) (some err) fields =
        s.logMessage id site (.print severity) (String.ofList err.text)
          ([.error (some err), .errorStacktrace (some err)] ++ fields)) ∧
    (s.logError id site (.print severity) none fields =
        s.logMessage id site (.print severity) "<nil>"
          ([.error none, .errorStacktrace none] ++ fields) ∧
      Field.renderAll s.fallbackFormat [.error none, .errorStacktrace none] =
        "\"error\":null,\"errorStacktrace\":null,".toList) ∧
    (∀ args : Arguments, args.shown.fails = false →
      s.logArguments id site (.print severity) args =
        s.logMessage id site (.print severity) (String.ofList args.shown.text) []) ∧
    (∀ level : Builtin,
      (∀ message, s.logMessage id site (.named level) message fields =
        s.logMessage id site (.print level.severity) message fields) ∧
      (∀ err, s.logError id site (.named level) err fields =
        s.logError id site (.print level.severity) err fields) ∧
      (∀ args, s.logArguments id site (.named level) args =
        s.logArguments id site (.print level.severity) args)) ∧
    (∀ (m : Shorthand) (args : Arguments),
      s.logShorthand id site m args = s.logArguments id site (.print m.verb.severity) args) ∧
    (∀ (c : Call) (inner inner' : List StackSymbol), c.request.Shows →
      (∀ site ∈ c.sites, Caller.Foreign inner site) → (∀ site ∈ c.sites, Caller.Foreign inner' site) →
      s.perform (c.plain.beneath inner') = s.perform (c.beneath inner)) ∧
    ∀ actions, s.acts (actions.map Action.plain) = s.acts actions := by
  -- A call made now is performed in the state as it is.
  have hnow : ∀ request : Request, request.Shows →
      s.perform ⟨s.now, id, site, .print severity, request⟩ =
        s.logMessage id site (.print severity) request.text (request.leading ++ request.fields) := by
    intro request hshows
    exact (perform_plain s (c := ⟨s.now, id, site, .print severity, request⟩) hshows).symm
  refine ⟨?_, ⟨?_, rfl⟩, ?_, ?_, ?_, ?_, s.acts_plain⟩
  · intro err hshows
    exact hnow (.error (some err) fields) hshows
  · exact hnow (.error none fields) trivial
  · intro args hshows
    rw [logArguments_eq]
    exact hnow (.formatted args.shown) hshows
  · intro level
    exact ⟨fun message => s.logMessage_plain id site (.named level) message fields,
      fun err => s.logError_plain id site (.named level) err fields,
      fun args => s.logArguments_plain id site (.named level) args⟩
  · intro m args
    have hverb : m.verb.plain = .print m.verb.severity := by cases m <;> rfl
    rw [logShorthand, ← hverb, logArguments_plain]
  · intro c inner inner' hshows h h'
    exact perform_plain_beneath s hshows h h'

/-- An object that refuses, in a call of the logger whose sink always fails. -/
def refusedObject : Field :=
  .object "o" (.refusing "no") ⟨"main.rs", 3⟩

/-- A call with that object and with an error. -/
def refusedError : Call :=
  ⟨.epoch, 0, ⟨⟨"main.rs", 9⟩, []⟩, .named .critical, .error (some (.ofMessage "lost")) [refusedObject]⟩

theorem surfaces_agree_failing :
    failing.logError 0 default (.named .critical) (some (.ofMessage "lost")) [refusedObject] =
      failing.logMessage 0 default (.print Builtin.critical.severity) "lost"
        [.error (some (.ofMessage "lost")), .errorStacktrace (some (.ofMessage "lost")),
          refusedObject] ∧
    failing.logShorthand 0 default (.named .critical) (.ofLiteral "ready") =
      failing.logMessage 0 default (.print Builtin.critical.severity) "ready" [] ∧
    failing.perform (refusedError.plain.beneath [⟨some "logger.rs", some 149⟩]) =
      failing.perform (refusedError.beneath [⟨some "error_logger.rs", some 79⟩, ⟨none, some 9⟩]) := by
  obtain ⟨herror, -, hargs, hnamed, hshort, hframes, -⟩ :=
    surfaces_agree failing 0 default Builtin.critical.severity [refusedObject]
  obtain ⟨-, hlevel, -⟩ := hnamed .critical
  refine ⟨?_, ?_, ?_⟩
  · exact (hlevel (some (.ofMessage "lost"))).trans (herror (.ofMessage "lost") rfl)
  · exact (hshort (.named .critical) (.ofLiteral "ready")).trans (hargs (.ofLiteral "ready") rfl)
  · exact hframes refusedError _ _ rfl (by decide) (by decide)

end Session
end LineLog
