import LineLog.Proofs.Logger.Derivation
import LineLog.Proofs.Session.Run
import LineLog.Proofs.Severity.Registry
import Mathlib.Logic.Function.Basic
/-!
# LineLog.Proofs.Session.World

Runs over loggers: making them, deriving them, naming levels and logging.

A `World` is a session together with the names by which its loggers are called, and a `Step`
is what a program does next. Loggers are held by reference there: registering a level changes
the logger that a name refers to, in place. `World.logger?_step` says that this cannot be
told from a `Fleet`, which holds every logger by value, so loggers share nothing that changes.

Design points:

* A name that is given away again refers to the new logger from then on. A logger that has
  lost its name stays where it is; nothing can reach it but the process, if it is the default.
* A step says when and where it is made, so that nothing that a record holds is left to the
  run around it.
* What a step adds to the journal is told from the world before it (`World.exists_tells`).
-/

namespace LineLog

/-- A name for a logger. -/
abbrev LoggerName := String

/-- The objects among the fields of a derivation that cannot be marshalled. -/
def Derivation.failures : Derivation → List MarshalFailure
  | fields fs => Field.marshalFailures fs
  | _ => []

namespace Session

/-- Keep a logger, if it could be made. -/
def keep (s : Session) : Except LogError Logger → Session × Option LoggerId
  | .ok l => ((s.addLogger l).1, some (s.addLogger l).2)
  | .error _ => (s, none)

/-- Derive a logger from the one of this number. -/
def derive (s : Session) (id : LoggerId) (stack : List StackSymbol) :
    Derivation → Session × Option LoggerId
  | .fields fs => s.deriveWith id stack fs
  | how =>
    match s.logger? id with
    | none => (s, none)
    | some l => s.keep (how.apply s.hostname s.fallbackFormat l)

/-- A derivation complains about objects, and then keeps what it makes. -/
theorem derive_eq {s : Session} {id : LoggerId} {l : Logger} (hl : s.logger? id = some l)
    (stack : List StackSymbol) (how : Derivation) :
    s.derive id stack how =
      (s.reportMarshalFailures stack how.failures).keep
        (how.apply s.hostname s.fallbackFormat l) := by
  cases how with
  | fields fs =>
      have halike := alike_reportMarshalFailures s stack (Field.marshalFailures fs)
      show s.deriveWith id stack fs = _
      rw [deriveWith, hl]
      show ((s.reportMarshalFailures stack (Field.marshalFailures fs)).keep
        (.ok (l.withFields (s.reportMarshalFailures stack _).fallbackFormat fs))) = _
      rw [fallbackFormat, halike.timeFormat]
      rfl
  | copy | options | sink | skip =>
      rw [derive, hl]
      · rfl
      · intro fs h
        cases h

/-- Nothing is derived from a logger that there is not. -/
theorem derive_of_unknown {s : Session} {id : LoggerId} (h : s.logger? id = none)
    (stack : List StackSymbol) (how : Derivation) : s.derive id stack how = (s, none) := by
  cases how <;> simp [derive, deriveWith, h]

/-- Registering a level changes one logger, or nothing. -/
theorem addSeverity_cases (s : Session) (id : LoggerId) (entry : SeverityEntry) :
    (∃ l l', s.logger? id = some l ∧ l.addSeverity entry = .ok l' ∧
      (s.addSeverity id entry).1 = { s with loggers := s.loggers.set id l' }) ∨
    (s.addSeverity id entry).1 = s := by
  rw [addSeverity]
  cases hl : s.logger? id with
  | none => exact .inr rfl
  | some l =>
      dsimp only
      cases hnamed : l.addSeverity entry with
      | error e => exact .inr rfl
      | ok l' => exact .inl ⟨l, l', rfl, hnamed, rfl⟩

end Session

/-- What a program does next. -/
inductive Step
  | create (target : LoggerName) (origin : Origin)
  | derive (target source : LoggerName) (now : Time.Instant) (stack : List StackSymbol)
      (how : Derivation)
  | register (name : LoggerName) (entry : SeverityEntry)
  /-- The number in the call gives way to that of the named logger. -/
  | call (name : LoggerName) (call : Call)

/-- A session whose loggers have names. -/
structure World where
  session : Session
  names : LoggerName → Option LoggerId

namespace World

open Function (update)

/-- The logger of this name. -/
def logger? (w : World) (n : LoggerName) : Option Logger :=
  (w.names n).bind w.session.logger?

/-- Give a name to a logger that was just made, if it was. -/
def christen (w : World) (target : LoggerName) (made : Session × Option LoggerId) : World :=
  match made.2 with
  | none => { w with session := made.1 }
  | some id => ⟨made.1, update w.names target (some id)⟩

/-- Take a step. A step on a name without a logger does nothing. -/
def step (w : World) : Step → World
  | .create target origin => w.christen target (w.session.keep (origin.make w.session.hostname))
  | .derive target source now stack how =>
    match w.names source with
    | none => w
    | some id => w.christen target ((w.session.atTime now).derive id stack how)
  | .register name entry =>
    match w.names name with
    | none => w
    | some id => { w with session := (w.session.addSeverity id entry).1 }
  | .call name c =>
    match w.names name with
    | none => w
    | some id => { w with session := (w.session.perform { c with id }).1 }

/-- Take steps in order. -/
def run (w : World) (steps : List Step) : World :=
  steps.foldl step w

/-- Names refer to loggers that there are, no two of them to the same one, and there is a default
logger. -/
structure Sound (w : World) : Prop where
  known : ∀ n id, w.names n = some id → id < w.session.loggers.length
  apart : ∀ m n id, w.names m = some id → w.names n = some id → m = n
  default : w.session.defaultLogger < w.session.loggers.length

end World

/-! ### Loggers by value -/

/-- Loggers by name, each with a value of its own. -/
abbrev Fleet := LoggerName → Option Logger

namespace Fleet

open Function (update)

/-- Keep a logger under a name, if it could be made. -/
def keep (f : Fleet) (target : LoggerName) : Except LogError Logger → Fleet
  | .ok l => update f target (some l)
  | .error _ => f

/-- The loggers after a step. -/
def step (hostname : Except IoError String) (fallback : Time.Format) (f : Fleet) : Step → Fleet
  | .create target origin => f.keep target (origin.make hostname)
  | .derive target source _ _ how =>
    match f source with
    | none => f
    | some l => f.keep target (how.apply hostname fallback l)
  | .register name entry =>
    match f name with
    | none => f
    | some l => update f name (some { l with severities := l.severities.registered entry })
  | .call _ _ => f

/-- The loggers after steps. -/
def run (hostname : Except IoError String) (fallback : Time.Format) (f : Fleet)
    (steps : List Step) : Fleet :=
  steps.foldl (step hostname fallback) f

end Fleet

namespace World

open Function (update)

variable {w : World}

/-! ### One step, by value -/

theorem logger?_eq {n : LoggerName} {id : LoggerId} (h : w.names n = some id) :
    w.logger? n = w.session.logger? id := by
  rw [logger?, h]
  rfl

theorem Sound.exists_logger? (hw : w.Sound) {n : LoggerName} {id : LoggerId}
    (h : w.names n = some id) : ∃ l, w.session.logger? id = some l :=
  ⟨_, List.getElem?_eq_getElem (hw.known n id h)⟩

theorem Sound.exists_default (hw : w.Sound) :
    ∃ d, w.session.logger? w.session.defaultLogger = some d :=
  ⟨_, List.getElem?_eq_getElem hw.default⟩

/-- A new logger is found under its name, and the others where they were. -/
theorem logger?_christen (hw : w.Sound) {s : Session} (hs : s.loggers = w.session.loggers)
    (target : LoggerName) (made : Except LogError Logger) :
    (w.christen target (s.keep made)).logger? = Fleet.keep w.logger? target made := by
  funext n
  cases made with
  | error e =>
      show (w.names n).bind (s.loggers[·]?) = (w.names n).bind (w.session.loggers[·]?)
      rw [hs]
  | ok l =>
      show (update w.names target (some s.loggers.length) n).bind ((s.loggers ++ [l])[·]?) =
        update w.logger? target (some l) n
      by_cases hn : n = target
      · subst hn
        simp
      · rw [Function.update_of_ne hn, Function.update_of_ne hn, hs]
        cases hid : w.names n with
        | none => simp [logger?, hid]
        | some id =>
            have hlt := hw.known n id hid
            rw [logger?_eq hid]
            exact List.getElem?_append_left hlt

/-- A name refers to the new logger or to what it referred to before. -/
theorem names_christen {s : Session} {target : LoggerName} {l : Logger} {n : LoggerName}
    {id : LoggerId} (h : (w.christen target (s.keep (.ok l))).names n = some id) :
    (n = target ∧ id = s.loggers.length) ∨ (n ≠ target ∧ w.names n = some id) := by
  have hnames : update w.names target (some s.loggers.length) n = some id := h
  by_cases hn : n = target
  · subst hn
    rw [Function.update_self] at hnames
    exact .inl ⟨rfl, (Option.some.inj hnames).symm⟩
  · rw [Function.update_of_ne hn] at hnames
    exact .inr ⟨hn, hnames⟩

theorem Sound.christen (hw : w.Sound) {s : Session} (hs : s.loggers = w.session.loggers)
    (hd : s.defaultLogger = w.session.defaultLogger) (target : LoggerName)
    (made : Except LogError Logger) : (w.christen target (s.keep made)).Sound := by
  cases made with
  | error e =>
      constructor
      · intro n id h
        show id < s.loggers.length
        rw [hs]
        exact hw.known n id h
      · exact hw.apart
      · show s.defaultLogger < s.loggers.length
        rw [hs, hd]
        exact hw.default
  | ok l =>
      have hlength : (w.christen target (s.keep (.ok l))).session.loggers.length =
          w.session.loggers.length + 1 := by
        show (s.loggers ++ [l]).length = _
        rw [List.length_append, List.length_singleton, hs]
      -- The number of the new logger is one that no name has had before.
      have hfresh : ∀ n, w.names n ≠ some s.loggers.length := by
        intro n h
        have hlt := hw.known n _ h
        rw [hs] at hlt
        exact absurd hlt (Nat.lt_irrefl _)
      constructor
      · intro n id h
        rw [hlength]
        rcases names_christen h with ⟨-, rfl⟩ | ⟨-, hold⟩
        · rw [hs]
          exact Nat.lt_succ_self _
        · exact Nat.lt_succ_of_lt (hw.known n id hold)
      · intro m n id hm hn
        rcases names_christen hm with ⟨hmt, hid⟩ | ⟨-, hm⟩
        · rcases names_christen hn with ⟨hnt, -⟩ | ⟨-, hn⟩
          · rw [hmt, hnt]
          · rw [hid] at hn
            exact absurd hn (hfresh n)
        · rcases names_christen hn with ⟨-, hid⟩ | ⟨-, hn⟩
          · rw [hid] at hm
            exact absurd hm (hfresh m)
          · exact hw.apart m n id hm hn
      · rw [hlength]
        show s.defaultLogger < _
        rw [hd]
        exact Nat.lt_succ_of_lt hw.default

/-- Registering a level changes the logger of the name and no other. -/
theorem logger?_addSeverity (hw : w.Sound) {name : LoggerName} {id : LoggerId} {l : Logger}
    (hid : w.names name = some id) (hl : w.session.logger? id = some l) (entry : SeverityEntry) :
    (World.mk (w.session.addSeverity id entry).1 w.names).logger? =
      update w.logger? name (some { l with severities := l.severities.registered entry }) := by
  have hname : w.logger? name = some l := (logger?_eq hid).trans hl
  rw [Session.addSeverity, hl, Registry.registered]
  cases hr : l.severities.register entry with
  | error e =>
      have hfails : l.addSeverity entry = .error e := by rw [Logger.addSeverity, hr]; rfl
      have hsame : update w.logger? name (some l) = w.logger? := by
        rw [← hname]
        exact Function.update_eq_self name w.logger?
      simp only [hfails]
      exact hsame.symm
  | ok r =>
      have hok : l.addSeverity entry = .ok { l with severities := r } := by
        rw [Logger.addSeverity, hr]
        rfl
      simp only [hok]
      funext n
      show (w.names n).bind ((w.session.loggers.set id _)[·]?) = _
      by_cases hn : n = name
      · subst hn
        have hlt := hw.known n id hid
        rw [hid, Function.update_self]
        exact List.getElem?_set_self hlt
      · rw [Function.update_of_ne hn]
        cases hother : w.names n with
        | none => rw [logger?, hother]; rfl
        | some id' =>
            -- Another name refers to another logger.
            have hne : id ≠ id' := by
              rintro rfl
              exact hn (hw.apart n name id hother hid)
            rw [logger?_eq hother]
            exact List.getElem?_set_ne hne

/-- **A step by reference is a step by value.** -/
theorem logger?_step (hw : w.Sound) (st : Step) :
    (w.step st).logger? = Fleet.step w.session.hostname w.session.fallbackFormat w.logger? st := by
  cases st with
  | create target origin => exact logger?_christen hw rfl target _
  | derive target source now stack how =>
      rw [step, Fleet.step]
      cases hid : w.names source with
      | none => simp [logger?, hid]
      | some id =>
          obtain ⟨l, hl⟩ := hw.exists_logger? hid
          have hat : (w.session.atTime now).logger? id = some l := hl
          have hname : w.logger? source = some l := (logger?_eq hid).trans hl
          have halike := Session.alike_reportMarshalFailures (w.session.atTime now) stack how.failures
          simp only [hname]
          rw [Session.derive_eq hat]
          exact logger?_christen hw halike.loggers target _
  | register name entry =>
      rw [step, Fleet.step]
      cases hid : w.names name with
      | none => simp [logger?, hid]
      | some id =>
          obtain ⟨l, hl⟩ := hw.exists_logger? hid
          have hname : w.logger? name = some l := (logger?_eq hid).trans hl
          simp only [hname]
          exact logger?_addSeverity hw hid hl entry
  | call name c =>
      rw [step]
      cases hid : w.names name with
      | none => rfl
      | some id =>
          have halike := Session.alike_perform w.session { c with id }
          have hloggers : (w.session.perform { c with id }).1.loggers = w.session.loggers :=
            halike.loggers
          funext n
          show (w.names n).bind ((w.session.perform { c with id }).1.loggers[·]?) = _
          rw [hloggers]
          rfl

/-! ### Runs -/

/-- The sessions agree on what no step changes: the host name, the default format of times, and which
logger is the default. -/
structure SameSetting (s s' : Session) : Prop where
  hostname : s'.hostname = s.hostname
  timeFormat : s'.timeFormat = s.timeFormat
  defaultLogger : s'.defaultLogger = s.defaultLogger

namespace SameSetting

theorem refl (s : Session) : SameSetting s s :=
  ⟨rfl, rfl, rfl⟩

theorem trans {s₁ s₂ s₃ : Session} (h₁ : SameSetting s₁ s₂) (h₂ : SameSetting s₂ s₃) :
    SameSetting s₁ s₃ :=
  ⟨h₂.hostname.trans h₁.hostname, h₂.timeFormat.trans h₁.timeFormat,
    h₂.defaultLogger.trans h₁.defaultLogger⟩

theorem symm {s s' : Session} (h : SameSetting s s') : SameSetting s' s :=
  ⟨h.hostname.symm, h.timeFormat.symm, h.defaultLogger.symm⟩

theorem of_alike {s s' : Session} (h : Session.Alike s s') : SameSetting s s' :=
  ⟨h.hostname, h.timeFormat, h.defaultLogger⟩

theorem fallbackFormat {s s' : Session} (h : SameSetting s s') :
    s'.fallbackFormat = s.fallbackFormat := by
  rw [Session.fallbackFormat, Session.fallbackFormat, h.timeFormat]

end SameSetting

theorem session_christen (w : World) (target : LoggerName) (made : Session × Option LoggerId) :
    (w.christen target made).session = made.1 := by
  obtain ⟨s, id⟩ := made
  cases id <;> rfl

theorem sameSetting_keep (s : Session) (made : Except LogError Logger) :
    SameSetting s (s.keep made).1 := by
  cases made <;> exact ⟨rfl, rfl, rfl⟩

theorem sameSetting_addSeverity (s : Session) (id : LoggerId) (entry : SeverityEntry) :
    SameSetting s (s.addSeverity id entry).1 := by
  rcases s.addSeverity_cases id entry with ⟨l, l', -, -, hs⟩ | hs
  · rw [hs]
    exact ⟨rfl, rfl, rfl⟩
  · rw [hs]
    exact .refl s

theorem length_addSeverity (s : Session) (id : LoggerId) (entry : SeverityEntry) :
    (s.addSeverity id entry).1.loggers.length = s.loggers.length := by
  rcases s.addSeverity_cases id entry with ⟨l, l', -, -, hs⟩ | hs
  · rw [hs]
    exact List.length_set
  · rw [hs]

/-- A session with as many loggers and the same default takes the place of another one. -/
theorem Sound.replace (hw : w.Sound) {s : Session}
    (hlength : s.loggers.length = w.session.loggers.length)
    (hd : s.defaultLogger = w.session.defaultLogger) : (World.mk s w.names).Sound := by
  constructor
  · intro n id h
    show id < s.loggers.length
    rw [hlength]
    exact hw.known n id h
  · exact hw.apart
  · show s.defaultLogger < s.loggers.length
    rw [hlength, hd]
    exact hw.default

/-- A step keeps names and numbers in order, and the setting as it is. -/
theorem Sound.step (hw : w.Sound) (st : Step) :
    (w.step st).Sound ∧ SameSetting w.session (w.step st).session := by
  cases st with
  | create target origin =>
      rw [World.step, session_christen]
      exact ⟨hw.christen rfl rfl target _, sameSetting_keep _ _⟩
  | derive target source now stack how =>
      rw [World.step]
      cases hid : w.names source with
      | none => exact ⟨hw, .refl _⟩
      | some id =>
          obtain ⟨l, hl⟩ := hw.exists_logger? hid
          have hat : (w.session.atTime now).logger? id = some l := hl
          have halike :=
            Session.alike_reportMarshalFailures (w.session.atTime now) stack how.failures
          have hsetting : SameSetting w.session (w.session.atTime now) := ⟨rfl, rfl, rfl⟩
          simp only
          rw [session_christen, Session.derive_eq hat]
          exact ⟨hw.christen halike.loggers halike.defaultLogger target _,
            (hsetting.trans (.of_alike halike)).trans (sameSetting_keep _ _)⟩
  | register name entry =>
      rw [World.step]
      cases hid : w.names name with
      | none => exact ⟨hw, .refl _⟩
      | some id =>
          have hsetting := sameSetting_addSeverity w.session id entry
          exact ⟨hw.replace (length_addSeverity _ _ _) hsetting.defaultLogger, hsetting⟩
  | call name c =>
      rw [World.step]
      cases hid : w.names name with
      | none => exact ⟨hw, .refl _⟩
      | some id =>
          have halike := Session.alike_perform w.session { c with id }
          have hsetting : SameSetting w.session (w.session.atTime c.now) := ⟨rfl, rfl, rfl⟩
          exact ⟨hw.replace (congrArg List.length halike.loggers) halike.defaultLogger,
            hsetting.trans (.of_alike halike)⟩

theorem run_cons (w : World) (st : Step) (steps : List Step) :
    w.run (st :: steps) = (w.step st).run steps :=
  rfl

theorem run_append (w : World) (a b : List Step) : w.run (a ++ b) = (w.run a).run b :=
  List.foldl_append ..

theorem Sound.run (hw : w.Sound) (steps : List Step) :
    (w.run steps).Sound ∧ SameSetting w.session (w.run steps).session := by
  induction steps generalizing w with
  | nil => exact ⟨hw, .refl _⟩
  | cons st steps ih =>
      obtain ⟨hstep, hsetting⟩ := hw.step st
      obtain ⟨hrun, hrest⟩ := ih hstep
      exact ⟨hrun, hsetting.trans hrest⟩

/-- **A run by reference is a run by value.** -/
theorem logger?_run (hw : w.Sound) (steps : List Step) :
    (w.run steps).logger? =
      Fleet.run w.session.hostname w.session.fallbackFormat w.logger? steps := by
  induction steps generalizing w with
  | nil => rfl
  | cons st steps ih =>
      obtain ⟨hstep, hsetting⟩ := hw.step st
      rw [run_cons, ih hstep, hsetting.hostname, hsetting.fallbackFormat, logger?_step hw]
      rfl

/-! ### What a step writes -/

end World

instance (r : Request) : Decidable r.Shows :=
  match r with
  | .message _ _ | .error none _ => .isTrue trivial
  | .formatted value => inferInstanceAs (Decidable (value.fails = false))
  | .error (some f) _ => inferInstanceAs (Decidable (f.message.fails = false))

/-- The record that a call through a logger writes, if the call is heard and its message can be
shown, and the sink that it goes to. -/
def Logger.record? (fallback : Time.Format) (l : Logger) (c : Call) : Option (SinkId × List Char) :=
  if l.accepts c.verb.severity ∧ c.request.Shows then
    some (l.sink, Record.assemble l.config fallback
      { time := c.now
        severityName := l.severityName c.verb.severity
        caller := l.callerOf c.site.stack c.site.location
        message := c.request.text }
      l.context c.request.leading c.request.fields)
  else none

namespace World

variable {w : World}

/-- The record that a step writes, with its sink. -/
def record? (w : World) : Step → Option (SinkId × List Char)
  | .call name c => (w.logger? name).bind fun l => l.record? w.session.fallbackFormat c
  | _ => none

/-- The objects that a step marshals and that refuse. -/
def failures (w : World) : Step → List MarshalFailure
  | .derive _ source _ _ how => if (w.logger? source).isSome then how.failures else []
  | .call name c =>
    if (w.record? (.call name c)).isSome then Field.marshalFailures c.request.fields else []
  | _ => []

/-- The session at the moment of a step. -/
def moment (w : World) : Step → Session
  | .derive _ _ now _ _ => w.session.atTime now
  | .call _ c => w.session.atTime c.now
  | _ => w.session

end World

/-- The stack on which a step is made. -/
def Step.stack : Step → List StackSymbol
  | .derive _ _ _ stack _ => stack
  | .call _ c => c.site.stack
  | _ => []

/-- Where a step is made, as far as a record can say. -/
def Step.site : Step → CallSite
  | .call _ c => c.site
  | _ => default

namespace World

/-- What a step adds to the journal of a world: the complaints about its objects that refused, its
record with what follows if that fails, and calls of the exit function. -/
structure Tells (w : World) (d : Logger) (st : Step) (diagnostics attempt exits : List Event) :
    Prop where
  diagnostics : Session.Diagnostics (w.moment st) d st.stack (w.failures st) diagnostics
  attempt : match w.record? st with
    | none => attempt = []
    | some (sink, record) => Session.Attempt (w.moment st) d st.site sink record attempt
  exits : ∀ e ∈ exits, ∃ handler, e = .exited handler 1

theorem exited_of_mem_endingEvents {s : Session} {ending : Ending} :
    ∀ e ∈ s.endingEvents ending, ∃ handler, e = Event.exited handler 1 := by
  cases ending with
  | returns | panics => simp [Session.endingEvents]
  | exits => exact List.forall_mem_singleton.2 ⟨_, rfl⟩

theorem tells_nothing (w : World) (d : Logger) {st : Step} (hrecord : w.record? st = none)
    (hfailures : w.failures st = []) {exits : List Event}
    (hexits : ∀ e ∈ exits, ∃ handler, e = Event.exited handler 1) :
    w.Tells d st [] [] exits where
  diagnostics := by
    rw [hfailures]
    exact .nil
  attempt := by rw [hrecord]
  exits := hexits

theorem journal_keep (s : Session) (made : Except LogError Logger) :
    (s.keep made).1.journal = s.journal := by
  cases made <;> rfl

theorem journal_addSeverity (s : Session) (id : LoggerId) (entry : SeverityEntry) :
    (s.addSeverity id entry).1.journal = s.journal := by
  rw [Session.addSeverity]
  cases s.logger? id with
  | none => rfl
  | some l => cases hl : l.addSeverity entry <;> simp only [hl]

variable {w : World}

/-- A call that emits nothing may still call the exit function. -/
theorem exists_tells_of_ended (d : Logger) {name : LoggerName} {c : Call} {s : Session}
    {ending : Ending} (hrecord : w.record? (.call name c) = none)
    (hended : s = (w.session.atTime c.now).ended ending) :
    ∃ diagnostics attempt exits, w.Tells d (.call name c) diagnostics attempt exits ∧
      s.journal = w.session.journal ++ (diagnostics ++ attempt ++ exits) := by
  have hfailures : w.failures (.call name c) = [] := by rw [failures, hrecord]; rfl
  refine ⟨[], [], (w.session.atTime c.now).endingEvents ending,
    w.tells_nothing d hrecord hfailures exited_of_mem_endingEvents, ?_⟩
  rw [hended, Session.journal_ended]
  rfl

/-- What a call adds to the journal. -/
theorem exists_tells_call (hw : w.Sound) {d : Logger}
    (hd : w.session.logger? w.session.defaultLogger = some d) {name : LoggerName} {id : LoggerId}
    (hid : w.names name = some id) (c : Call) :
    ∃ diagnostics attempt exits, w.Tells d (.call name c) diagnostics attempt exits ∧
      (w.session.perform { c with id }).1.journal =
        w.session.journal ++ (diagnostics ++ attempt ++ exits) := by
  obtain ⟨l, hl⟩ := hw.exists_logger? hid
  have hat : (w.session.atTime c.now).logger? id = some l := hl
  have hname : w.logger? name = some l := (logger?_eq hid).trans hl
  have hrecord : w.record? (.call name c) = l.record? w.session.fallbackFormat c := by
    rw [record?, hname]
    rfl
  rw [Logger.record?] at hrecord
  by_cases hshows : c.request.Shows
  · cases haccepts : l.accepts c.verb.severity with
    | false =>
        have hsuppressed : (w.session.atTime c.now).accepts id c.emission.severity = false :=
          (Session.accepts_of_logger? hat _).trans haccepts
        have hperform : (w.session.perform { c with id }).1 =
            ((w.session.atTime c.now).log id c.emission).ended c.verb.ending :=
          Session.perform_fst w.session (c := { c with id }) hshows
        rw [Session.log_of_suppressed hsuppressed] at hperform
        rw [if_neg (by simp [haccepts])] at hrecord
        exact exists_tells_of_ended d hrecord hperform
    | true =>
        rw [if_pos ⟨haccepts, hshows⟩] at hrecord
        have hfailures : w.failures (.call name c) = Field.marshalFailures c.request.fields := by
          rw [failures, hrecord]
          rfl
        obtain ⟨diagnostics, attempt, hjournal, hdiagnostics, hattempt⟩ :=
          Session.trace_perform (c := { c with id }) hl hd haccepts hshows
        refine ⟨diagnostics, attempt, _, ⟨?_, ?_, exited_of_mem_endingEvents⟩, hjournal⟩
        · rw [hfailures]
          exact hdiagnostics
        · rw [hrecord]
          exact hattempt
  · obtain ⟨ending, hended⟩ :=
      Session.exists_ended_of_not_shows w.session (c := { c with id }) hshows
    rw [if_neg (by simp [hshows])] at hrecord
    exact exists_tells_of_ended d hrecord hended

/-- Every step adds to the journal what the world before it tells. -/
theorem exists_tells (hw : w.Sound) {d : Logger}
    (hd : w.session.logger? w.session.defaultLogger = some d) (st : Step) :
    ∃ diagnostics attempt exits, w.Tells d st diagnostics attempt exits ∧
      (w.step st).session.journal = w.session.journal ++ (diagnostics ++ attempt ++ exits) := by
  cases st with
  | create target origin =>
      refine ⟨[], [], [], w.tells_nothing d rfl rfl (by simp), ?_⟩
      rw [step, session_christen, journal_keep]
      simp
  | register name entry =>
      refine ⟨[], [], [], w.tells_nothing d rfl rfl (by simp), ?_⟩
      rw [step]
      cases w.names name with
      | none => simp
      | some id => simp [journal_addSeverity]
  | derive target source now stack how =>
      rw [step]
      cases hid : w.names source with
      | none =>
          have hnone : w.failures (.derive target source now stack how) = [] := by
            simp [failures, logger?, hid]
          exact ⟨[], [], [], w.tells_nothing d rfl hnone (by simp), by simp⟩
      | some id =>
          obtain ⟨l, hl⟩ := hw.exists_logger? hid
          have hat : (w.session.atTime now).logger? id = some l := hl
          have hfailures : w.failures (.derive target source now stack how) = how.failures := by
            have hname : w.logger? source = some l := (logger?_eq hid).trans hl
            simp [failures, hname]
          have hdefault : (w.session.atTime now).logger? (w.session.atTime now).defaultLogger =
              some d := hd
          obtain ⟨diagnostics, hperforms, hdiagnostics⟩ :=
            Session.performs_reportMarshalFailures (.inl hdefault) stack how.failures
          refine ⟨diagnostics, [], [], ⟨?_, rfl, by simp⟩, ?_⟩
          · rw [hfailures]
            exact hdiagnostics
          · simp only
            rw [session_christen, Session.derive_eq hat, journal_keep, hperforms.journal]
            simp [Session.atTime]
  | call name c =>
      rw [step]
      cases hid : w.names name with
      | none =>
          have hrecord : w.record? (.call name c) = none := by simp [record?, logger?, hid]
          have hnone : w.failures (.call name c) = [] := by simp [failures, hrecord]
          exact ⟨[], [], [], w.tells_nothing d hrecord hnone (by simp), by simp⟩
      | some id => exact exists_tells_call hw hd hid c

/-- One logger, which is also the default. -/
def family : World where
  session :=
    { hostname := .ok "host", sinks := [.memory []], loggers := [{ config := {}, sink := 0 }] }
  names n := if n = "parent" then some 0 else none

theorem sound_family : family.Sound where
  known n id h := by
    have hid : n = "parent" ∧ 0 = id := by simpa [family] using h
    rw [← hid.2]
    decide
  apart m n id hm hn := by
    have hm : m = "parent" ∧ 0 = id := by simpa [family] using hm
    have hn : n = "parent" ∧ 0 = id := by simpa [family] using hn
    rw [hm.1, hn.1]
  default := by decide

end World
end LineLog
