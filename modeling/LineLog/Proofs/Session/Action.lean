import LineLog.Proofs.Session.Binding
import LineLog.Proofs.Session.World
/-!
# LineLog.Proofs.Session.Action

Everything that a program does with loggers, as data, one thing after the other.

An `Action` is a step of a program whose loggers go by their numbers, and a `Reply` is all that the
program learns from it. Besides what a `World` does there are destinations, which come and are looked
at, bindings, and the settings of the process, which may change at any time.

Design points:

* An action that can log says when it is made. So the moment at which a session stands plays no part
  in what happens next (`SameButTime.act`), and runs can be compared that reach an action at
  different moments.
* What an action can do to loggers and to the settings of the process is said once (`effect_act`),
  and whatever is kept by all actions is derived from that.
* Only a logger that there is can become the default logger, so there always is one
  (`HasDefault.acts`).
-/

namespace LineLog

/-- What a program does next. -/
inductive Action
  | addSink (sink : Sink)
  | openFile (path : String)
  /-- Forget what memory holds. -/
  | clear (id : SinkId)
  /-- Look at what a sink has taken. -/
  | read (id : SinkId)
  | create (origin : Origin)
  | derive (source : LoggerId) (now : Time.Instant) (stack : List StackSymbol) (how : Derivation)
  | register (id : LoggerId) (entry : SeverityEntry)
  | call (c : Call)
  | replaceDefault (id : LoggerId)
  | restoreDefault (previous : LoggerId)
  | replaceExit (handler : ExitHandler)
  | restoreExit (previous : ExitHandler)
  | setTimeFormat (format : Time.Format)
  | bind (id : LoggerId)
  | unbind (g : Guard)
  /-- Look for a bound logger. -/
  | bound
  /-- Ask for the bound logger. -/
  | contextLogger (now : Time.Instant) (site : CallSite)

/-- What a program learns from an action. -/
inductive Reply
  | done
  | sink (id : Except LogError SinkId)
  | bytes (written : Bytes)
  | logger (id : Option LoggerId)
  | registered (result : Except LogError Unit)
  | returned (outcome : Outcome Unit)
  | handler (previous : ExitHandler)
  | format (previous : Time.Format)
  | guard (g : Guard)
  deriving DecidableEq

/-- The action replaces no setting of the process and restores none. -/
def Action.KeepsSettings : Action → Prop
  | .replaceDefault _ | .restoreDefault _ | .replaceExit _ | .restoreExit _ | .setTimeFormat _ => False
  | _ => True

namespace Session

/-- Take an action. A number that no logger has is not made the default logger. -/
def act (s : Session) : Action → Session × Reply
  | .addSink sink =>
    let (s, id) := s.addSink sink
    (s, .sink (.ok id))
  | .openFile path =>
    match s.openFile path with
    | .error e => (s, .sink (.error e))
    | .ok (s, id) => (s, .sink (.ok id))
  | .clear id => (s.setSink id (s.sink id).clear, .done)
  | .read id => (s, .bytes (s.written id))
  | .create origin =>
    let (s, id) := s.keep (origin.make s.hostname)
    (s, .logger id)
  | .derive source now stack how =>
    let (s, id) := (s.atTime now).derive source stack how
    (s, .logger id)
  | .register id entry =>
    let (s, result) := s.addSeverity id entry
    (s, .registered result)
  | .call c =>
    let (s, outcome) := s.perform c
    (s, .returned outcome)
  | .replaceDefault id =>
    if id < s.loggers.length then
      let (s, previous) := s.replaceDefault id
      (s, .logger previous)
    else (s, .logger none)
  | .restoreDefault previous =>
    if previous < s.loggers.length then (s.restoreDefault previous, .done) else (s, .done)
  | .replaceExit handler =>
    let (s, previous) := s.replaceExit handler
    (s, .handler previous)
  | .restoreExit previous => (s.restoreExit previous, .done)
  | .setTimeFormat format =>
    let (s, previous) := s.setTimeFormat format
    (s, .format previous)
  | .bind id =>
    let (s, g) := s.bind id
    (s, .guard g)
  | .unbind g => (s.unbind g, .done)
  | .bound => (s, .logger s.bound?)
  | .contextLogger now site =>
    let (s, id) := (s.atTime now).contextLogger site
    (s, .logger id)

/-- Take actions in order: the state at the end, and what was learnt from each. -/
def acts (s : Session) : List Action → Session × List Reply
  | [] => (s, [])
  | a :: actions =>
    let (s, reply) := s.act a
    let (s, replies) := s.acts actions
    (s, reply :: replies)

theorem acts_append (s : Session) (first second : List Action) :
    s.acts (first ++ second) =
      (((s.acts first).1.acts second).1,
        (s.acts first).2 ++ ((s.acts first).1.acts second).2) := by
  induction first generalizing s with
  | nil => rfl
  | cons a first ih =>
      show ((((s.act a).1.acts (first ++ second)).1),
        (s.act a).2 :: ((s.act a).1.acts (first ++ second)).2) = _
      rw [ih]
      rfl

/-! ### The moment plays no part -/

/-- The states differ at most in the moment at which they stand. -/
def SameButTime (s s' : Session) : Prop :=
  s' = s.atTime s'.now

namespace SameButTime

variable {s s' : Session}

theorem atTime (s : Session) (now : Time.Instant) : SameButTime (s.atTime now) s :=
  rfl

/-- An action says when it is made, or does not ask. -/
theorem act (h : SameButTime s s') (a : Action) :
    SameButTime (s.act a).1 (s'.act a).1 ∧ (s.act a).2 = (s'.act a).2 := by
  obtain ⟨now, rfl⟩ : ∃ now, s' = s.atTime now := ⟨_, h⟩
  cases a with
  | openFile path =>
      simp only [Session.act, Session.openFile, Session.atTime]
      cases s.files.openFile path <;> exact ⟨rfl, rfl⟩
  | create origin =>
      simp only [Session.act, Session.atTime]
      cases origin.make s.hostname <;> exact ⟨rfl, rfl⟩
  | register id entry =>
      simp only [Session.act, addSeverity, logger?, Session.atTime]
      cases s.loggers[id]? with
      | none => exact ⟨rfl, rfl⟩
      | some l =>
          dsimp only
          cases l.addSeverity entry <;> exact ⟨rfl, rfl⟩
  | replaceDefault id | restoreDefault id =>
      have hloggers : (s.atTime now).loggers = s.loggers := rfl
      simp only [Session.act, hloggers]
      by_cases hid : id < s.loggers.length
      · rw [if_pos hid, if_pos hid]
        exact ⟨rfl, rfl⟩
      · rw [if_neg hid, if_neg hid]
        exact ⟨rfl, rfl⟩
  | _ => exact ⟨rfl, rfl⟩

theorem acts (h : SameButTime s s') (actions : List Action) :
    SameButTime (s.acts actions).1 (s'.acts actions).1 ∧
      (s.acts actions).2 = (s'.acts actions).2 := by
  induction actions generalizing s s' with
  | nil => exact ⟨h, rfl⟩
  | cons a actions ih =>
      obtain ⟨hstate, hreply⟩ := h.act a
      obtain ⟨hend, hreplies⟩ := ih hstate
      exact ⟨hend, congrArg₂ List.cons hreply hreplies⟩

end SameButTime

/-! ### What an action changes -/

/-- The loggers of a session after an action. One may have been made, from nothing or from another
one, or one of them may have got names for a level. -/
inductive LoggersAfter (s : Session) : List Logger → Prop
  | same : LoggersAfter s s.loggers
  | created {l : Logger} (origin : Origin) (h : origin.make s.hostname = .ok l) :
      LoggersAfter s (s.loggers ++ [l])
  | derived {source : LoggerId} {l l' : Logger} (hl : s.logger? source = some l) (how : Derivation)
      (h : how.apply s.hostname s.fallbackFormat l = .ok l') : LoggersAfter s (s.loggers ++ [l'])
  | named {id : LoggerId} {l l' : Logger} (hl : s.logger? id = some l) (entry : SeverityEntry)
      (h : l.addSeverity entry = .ok l') : LoggersAfter s (s.loggers.set id l')

/-- No logger is ever removed. -/
theorem LoggersAfter.length_le {s : Session} {loggers : List Logger} (h : LoggersAfter s loggers) :
    s.loggers.length ≤ loggers.length := by
  cases h with
  | same => exact Nat.le_refl _
  | created | derived => simp
  | named => simp

/-- What an action can do to the loggers and the settings of a session. -/
structure Effect (s : Session) (a : Action) (s' : Session) : Prop where
  loggers : LoggersAfter s s'.loggers
  /-- Only a logger that there is becomes the default logger. -/
  defaultLogger : s'.defaultLogger = s.defaultLogger ∨ s'.defaultLogger < s.loggers.length
  settings : a.KeepsSettings → s'.defaultLogger = s.defaultLogger ∧
    s'.exitHandler = s.exitHandler ∧ s'.timeFormat = s.timeFormat

namespace Effect

variable {s s' : Session} {a : Action}

/-- Only the loggers may have changed. -/
theorem of_loggers (h : LoggersAfter s s'.loggers) (hdefault : s'.defaultLogger = s.defaultLogger)
    (hexit : s'.exitHandler = s.exitHandler) (hformat : s'.timeFormat = s.timeFormat) :
    Effect s a s' :=
  ⟨h, .inl hdefault, fun _ => ⟨hdefault, hexit, hformat⟩⟩

/-- Logging changes neither loggers nor settings. -/
theorem of_alike {now : Time.Instant} (h : Alike (s.atTime now) s') : Effect s a s' :=
  of_loggers (h.loggers ▸ .same) h.defaultLogger h.exitHandler h.timeFormat

/-- Keeping a logger that was made adds it. -/
theorem keep {now : Time.Instant} (h : Alike (s.atTime now) s') {made : Except LogError Logger}
    (hmade : ∀ l, made = .ok l → LoggersAfter s (s.loggers ++ [l])) : Effect s a (s'.keep made).1 := by
  cases made with
  | error e => exact .of_alike h
  | ok l =>
      refine of_loggers ?_ h.defaultLogger h.exitHandler h.timeFormat
      show LoggersAfter s (s'.loggers ++ [l])
      rw [h.loggers]
      exact hmade l rfl

end Effect

/-- **What an action does**, for every action. -/
theorem effect_act (s : Session) (a : Action) : Effect s a (s.act a).1 := by
  cases a with
  | openFile path =>
      simp only [Session.act, Session.openFile]
      cases s.files.openFile path <;> exact .of_loggers .same rfl rfl rfl
  | create origin => exact .keep (Alike.refl s) fun l hl => .created origin hl
  | derive source now stack how =>
      cases hl : (s.atTime now).logger? source with
      | none =>
          show Effect s _ ((s.atTime now).derive source stack how).1
          rw [derive_of_unknown hl]
          exact .of_loggers .same rfl rfl rfl
      | some l =>
          show Effect s _ ((s.atTime now).derive source stack how).1
          rw [derive_eq hl stack how]
          exact .keep (alike_reportMarshalFailures (s.atTime now) stack how.failures)
            fun l' hl' => .derived hl how hl'
  | register id entry =>
      show Effect s _ (s.addSeverity id entry).1
      rcases s.addSeverity_cases id entry with ⟨l, l', hl, hnamed, hs⟩ | hs
      · rw [hs]
        exact .of_loggers (.named hl entry hnamed) rfl rfl rfl
      · rw [hs]
        exact .of_loggers .same rfl rfl rfl
  | call c => exact .of_alike (alike_perform s c)
  | contextLogger now site => exact .of_alike (alike_contextLogger (s.atTime now) site)
  | replaceDefault id | restoreDefault id =>
      simp only [Session.act]
      split
      · rename_i hid
        exact ⟨.same, .inr hid, fun h => h.elim⟩
      · exact .of_loggers .same rfl rfl rfl
  | replaceExit | restoreExit | setTimeFormat => exact ⟨.same, .inl rfl, fun h => h.elim⟩
  | addSink | clear | read | bind | unbind | bound => exact .of_loggers .same rfl rfl rfl

/-! ### The default logger -/

/-- There is a default logger. -/
def HasDefault (s : Session) : Prop :=
  s.defaultLogger < s.loggers.length

instance (s : Session) : Decidable s.HasDefault :=
  inferInstanceAs (Decidable (_ < _))

namespace HasDefault

variable {s : Session}

theorem exists_logger? (h : s.HasDefault) : ∃ d, s.logger? s.defaultLogger = some d :=
  ⟨_, List.getElem?_eq_getElem h⟩

theorem act (h : s.HasDefault) (a : Action) : (s.act a).1.HasDefault := by
  obtain ⟨hloggers, hdefault, -⟩ := s.effect_act a
  refine Nat.lt_of_lt_of_le ?_ hloggers.length_le
  rcases hdefault with hsame | hknown
  · rw [hsame]
    exact h
  · exact hknown

theorem acts (h : s.HasDefault) (actions : List Action) : (s.acts actions).1.HasDefault := by
  induction actions generalizing s with
  | nil => exact h
  | cons a actions ih => exact ih (h.act a)

end HasDefault
end Session
end LineLog
