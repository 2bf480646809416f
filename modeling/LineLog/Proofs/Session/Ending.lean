import LineLog.Proofs.Session.Calls
/-!
# LineLog.Proofs.Session.Ending

Calls that do not end with their record.

A fatal call calls the exit function at last, and a call that is meant to panic panics. What happens
before that is what the call of print with the same request does (`Call.printed`), all of it: the
reports about objects, the attempt to write the record, and what follows if it fails
(`Piped.perform_ending`). A call below the threshold has nothing before it, and ends all the same.

Design points:

* A call whose emission was stopped by standard error does not come to its end: it neither calls the exit
  function nor panics with its own message (`Piped.perform_of_refuses`).
* Attempts and complaints are no calls of the exit function (`Reaches.exits_eq`). So there is one for
  each fatal call, behind everything that the call has written.
* The exit function may be a replacement that returns, and a panic may be caught by the caller. Then the
  program goes on, and over a whole run there are as many calls of the exit function as there were fatal
  calls that returned (`Session.exits_acts`).
-/

namespace LineLog

/-- The event is a call of the exit function. -/
def Event.isExit : Event → Bool
  | .exited _ _ => true
  | .offered _ _ _ | .complained _ => false

/-- The call of print with the same request, at the same level. -/
def Call.printed (c : Call) : Call :=
  { c with verb := .print c.verb.severity }

namespace Session

/-- The calls of the exit function so far. -/
def exits (s : Session) : List Event :=
  s.journal.filter Event.isExit

theorem Performs.filter_isExit {s s' : Session} {events : List Event} (h : Performs s events s') :
    events.filter Event.isExit = [] := by
  induction h with
  | nil => rfl
  | offered _ _ ih => exact ih
  | complained _ ih => exact ih

theorem exits_of_journal {s s' : Session} {events : List Event}
    (h : s'.journal = s.journal ++ events) : s'.exits = s.exits ++ events.filter Event.isExit := by
  rw [exits, h, List.filter_append]
  rfl

/-- Neither attempts nor complaints call the exit function. -/
theorem Reaches.exits_eq {s s' : Session} : Reaches s s' → s'.exits = s.exits := by
  rintro ⟨events, h⟩
  rw [exits_of_journal h.journal, h.filter_isExit, List.append_nil]

end Session

/-! ### One call -/

namespace Piped

open Session (Emitted refusedObject)

theorem Performs.filter_isExit {p p' : Piped} {events : List Event} (h : Performs p events p') :
    events.filter Event.isExit = [] := by
  induction h with
  | nil => rfl
  | offered _ _ ih => exact ih
  | complained _ _ ih => exact ih

/-- Printing the request of a call emits its record, and does nothing besides. -/
theorem perform_printed (p : Piped) {c : Call} (hshows : c.request.Shows) :
    p.perform c.printed = (p.atTime c.now).log c.id c.emission := by
  have hprinted : c.printed.request.Shows := hshows
  rw [perform_of_shows p hprinted]
  exact andThen_returned _

/-- What a call writes before it ends. Nothing is known of it if it is not heard. -/
theorem traced_call (p : Piped) (c : Call) :
    Traced (p.atTime c.now)
      (fun events => ∀ l d, p.session.logger? c.id = some l →
        p.session.logger? p.session.defaultLogger = some d → l.accepts c.verb.severity = true →
          Emitted (p.atTime c.now).session d l c.emission events)
      ((p.atTime c.now).log c.id c.emission) := by
  by_cases hheard : ∃ l d, p.session.logger? c.id = some l ∧
      p.session.logger? p.session.defaultLogger = some d ∧ l.accepts c.verb.severity = true
  · obtain ⟨l, d, hl, hd, haccepts⟩ := hheard
    have hat : (p.atTime c.now).session.logger? c.id = some l := hl
    have hdefault : (p.atTime c.now).session.ReportsTo d := .inl hd
    have hheard : l.accepts c.emission.severity = true := haccepts
    rw [log, hat]
    refine (traced_emit hdefault hheard).mono fun events hevents l' d' hl' hd' _ => ?_
    obtain rfl := Option.some.inj (hl.symm.trans hl')
    obtain rfl := Option.some.inj (hd.symm.trans hd')
    exact hevents
  · exact (traced_log (p.atTime c.now) c.id c.emission).mono
      fun _ _ l d hl hd haccepts => absurd ⟨l, d, hl, hd, haccepts⟩ hheard

/-- **Calls that are meant to end more than the emission do so after it, unless the emission itself was
stopped.** Let the message of the call be one that can be shown, and let printing the same request leave the
state `t`. It has come about by attempts and complaints alone, which are the reports about objects that
refuse and the attempt to write the record with what follows a failure; if the level is below the threshold
it is the state at the start. Printing returns if standard error takes what it is given, whatever else
fails. Where it has returned, a fatal call returns and leaves `t` with one call of the exit function that was
installed, with code 1, and a call that is meant to panic leaves `t` and panics with the text of the
request. Where it has not, standard error has refused a complaint: then every call ends in that panic, and
the exit function is not called. Arguments are one of the requests, whether or not their text is known
beforehand. -/
theorem perform_ending (p : Piped) {c : Call} (hshows : c.request.Shows) :
    ∃ t outcome events,
      p.perform c.printed = (t, outcome) ∧
      t.session.journal = p.session.journal ++ events ∧ events.filter Event.isExit = [] ∧
      (p.session.accepts c.id c.verb.severity = false → t = p.atTime c.now ∧ outcome = .ok ()) ∧
      (∀ l d, p.session.logger? c.id = some l →
        p.session.logger? p.session.defaultLogger = some d → l.accepts c.verb.severity = true →
          (outcome = .ok () ∧ Emitted (p.atTime c.now).session d l c.emission events) ∨
            ∃ lost rest, outcome ≠ .ok () ∧
              Emitted (p.atTime c.now).session d l c.emission (events ++ .complained lost :: rest)) ∧
      (p.streams.Takes .stderr → outcome = .ok ()) ∧
      (outcome = .ok () → c.verb.ending = .exits →
        p.perform c =
          ({ t with session.journal := t.session.journal ++ [.exited p.session.exitHandler 1] },
            .ok ())) ∧
      (outcome = .ok () → c.verb.ending = .panics →
        p.perform c = (t, .error (.raised c.request.text.toList))) ∧
      (outcome ≠ .ok () →
        p.perform c = (t, outcome) ∧ ∃ refusal, outcome = .error (.unprinted refusal)) ∧
      ∀ args, c.request = .formatted args.shown →
        (p.atTime c.now).logArguments c.id c.site c.verb args = p.perform c := by
  have hprinted := p.perform_printed hshows
  have hperform := p.perform_of_shows hshows
  have htraced := p.traced_call c
  have hquiet : p.session.accepts c.id c.verb.severity = false →
      (p.atTime c.now).log c.id c.emission = (p.atTime c.now, .ok ()) :=
    fun h => log_of_suppressed h
  generalize (p.atTime c.now).log c.id c.emission = r at hprinted hperform htraced hquiet
  obtain ⟨t, outcome⟩ := r
  have hreturns := htraced.returns
  have hhandler : t.session.exitHandler = p.session.exitHandler := htraced.alike.exitHandler
  obtain ⟨events, hjournal, hends⟩ := htraced.exists_events
  refine ⟨t, outcome, events, hprinted, hjournal, ?_, ?_, ?_, hreturns, ?_, ?_, ?_, ?_⟩
  · rcases hends with ⟨-, h, -⟩ | ⟨q, lost, rest, refusal, -, h, -⟩
    · exact h.filter_isExit
    · exact h.filter_isExit
  · intro h
    exact Prod.mk.inj (hquiet h)
  · intro l d hl hd haccepts
    rcases hends with ⟨hok, -, hshape⟩ | ⟨q, lost, rest, refusal, rfl, -, -, hshape⟩
    · exact .inl ⟨hok, hshape l d hl hd haccepts⟩
    · exact .inr ⟨lost, rest, nofun, hshape l d hl hd haccepts⟩
  · rintro rfl hending
    rw [hperform, hending, ← hhandler]
    rfl
  · rintro rfl hending
    rw [hperform, hending]
    rfl
  · intro hne
    rcases hends with ⟨hok, -⟩ | ⟨q, lost, rest, refusal, rfl, -⟩
    · exact absurd hok hne
    · exact ⟨hperform, refusal, rfl⟩
  · intro args hargs
    rw [logArguments_eq, perform, hargs]

/-- A fatal call, with an error and an object that refuses, through the logger whose sink fails at every
attempt. -/
def doomedCall : Call :=
  ⟨.epoch, 0, default, .fatal Builtin.emergency.severity, .error none [refusedObject]⟩

/-- A call below the threshold that is meant to panic. -/
def mutedCall : Call :=
  ⟨.epoch, 0, default, .panic ⟨-1⟩, .formatted ⟨["a", "b"], false⟩⟩

/-- Sinks may fail; standard error takes what it is given. -/
theorem perform_ending_failing :
    (∃ t, (⟨.failing, {}⟩ : Piped).perform doomedCall.printed = (t, .ok ()) ∧
      (⟨.failing, {}⟩ : Piped).perform doomedCall =
        ({ t with session.journal := t.session.journal ++ [.exited .endProcess 1] }, .ok ())) ∧
    (⟨.failing, {}⟩ : Piped).logArguments 0 default (.panic ⟨-1⟩) (.ofShown ⟨["a", "b"], false⟩) =
      (⟨.failing, {}⟩, .error (.raised ['a', 'b'])) := by
  constructor
  · obtain ⟨t, outcome, -, hprinted, -, -, -, -, hreturns, hexits, -⟩ :=
      perform_ending ⟨.failing, {}⟩ (show doomedCall.request.Shows from trivial)
    obtain rfl := hreturns fun _ => rfl
    exact ⟨t, hprinted, hexits rfl rfl⟩
  · obtain ⟨t, outcome, -, -, -, -, hquiet, -, -, -, hpanics, -, hargs⟩ :=
      perform_ending ⟨.failing, {}⟩ (show mutedCall.request.Shows from rfl)
    obtain ⟨rfl, rfl⟩ := hquiet (by decide)
    have hlogged := hargs (.ofShown ⟨["a", "b"], false⟩) rfl
    rw [hpanics rfl rfl] at hlogged
    exact hlogged

/-- Whatever a call is meant to end with, if its logger and the default logger write to a standard error
that refuses everything then it ends in a panic over that, and the exit function is not called. -/
theorem perform_of_refuses {p : Piped} {c : Call} {l d : Logger} (hshows : c.request.Shows)
    (hl : p.session.logger? c.id = some l)
    (hd : p.session.logger? p.session.defaultLogger = some d)
    (herrors : d.accepts Builtin.error.severity = true) (haccepts : l.accepts c.verb.severity = true)
    (hlsink : (p.session.sink l.sink).stream? = some .stderr)
    (hdsink : (p.session.sink d.sink).stream? = some .stderr)
    (hstderr : p.streams.Refuses .stderr) :
    (∃ refusal, (p.perform c).2 = .error (.unprinted refusal)) ∧
      (p.perform c).1.session.exits = p.session.exits := by
  have hdefault : (p.atTime c.now).session.logger? (p.atTime c.now).session.defaultLogger = some d := hd
  have hat : (p.atTime c.now).session.logger? c.id = some l := hl
  have hheard : l.accepts c.emission.severity = true := haccepts
  obtain ⟨refusal, hrefused⟩ :=
    emit_of_refuses hdefault herrors hheard hlsink hdsink hstderr
  have htraced := traced_log (p.atTime c.now) c.id c.emission
  have hperform := p.perform_of_shows hshows
  rw [log, hat] at htraced hperform
  change Traced _ _ ((p.atTime c.now).emit l c.emission) at htraced
  change p.perform c = andThen ((p.atTime c.now).emit l c.emission) _ at hperform
  generalize (p.atTime c.now).emit l c.emission = r at htraced hperform hrefused
  obtain ⟨t, outcome⟩ := r
  obtain rfl : outcome = .error (.unprinted refusal) := hrefused
  obtain ⟨events, hjournal, ⟨hok, -⟩ | ⟨q, lost, rest, other, -, hevents, -⟩⟩ := htraced.exists_events
  · cases hok
  · have hstopped : p.perform c = (t, .error (.unprinted refusal)) := hperform
    rw [hstopped]
    refine ⟨⟨refusal, rfl⟩, ?_⟩
    show t.session.exits = _
    rw [Session.exits_of_journal hjournal, hevents.filter_isExit, List.append_nil]
    rfl

/-- Where standard error is a pipe that nobody reads, a fatal call does not come to the exit function, and a
call that is meant to panic does so for another reason. -/
theorem unprinted_ending :
    let fatal : Call := ⟨.epoch, 0, default, .fatal Builtin.error.severity, .message "m" []⟩
    let panic : Call := ⟨.epoch, 0, default, .panic Builtin.error.severity, .message "m" []⟩
    (unread.perform fatal).2 = .error (.unprinted ⟨"Broken pipe (os error 32)"⟩) ∧
      (unread.perform fatal).1.session.exits = [] ∧
      (unread.perform panic).2 = .error (.unprinted ⟨"Broken pipe (os error 32)"⟩) :=
  ⟨rfl, rfl, rfl⟩

end Piped

/-! ### Runs -/

namespace Session

theorem exit_of_reaches {s t : Session} (h : Reaches s t) (code : Int) :
    t.exit code = { t with journal := t.journal ++ [.exited s.exitHandler code] } := by
  rw [exit, h.alike.exitHandler]

/-- What a call adds to the calls of the exit function. -/
theorem exits_perform (s : Session) (c : Call) :
    (s.perform c).1.exits = s.exits ++
      if c.verb.ending = .exits ∧ (s.perform c).2 = .ok () then [.exited s.exitHandler 1] else [] := by
  obtain ⟨t, hreaches, ⟨message, hperform⟩ | hperform⟩ := s.perform_cases c
  · have hexits : t.exits = s.exits := hreaches.exits_eq
    rw [hperform]
    cases c.verb.ending with
    | returns | panics => simpa [finish] using hexits
    | exits =>
        have hexit := exit_of_reaches hreaches 1
        simp only [finish, hexit]
        rw [exits_of_journal rfl, hexits]
        rfl
  · have hexits : t.exits = s.exits := hreaches.exits_eq
    rw [hperform]
    simpa using hexits

end Session

/-- The action is a fatal call, and its reply says that it returned. -/
def Action.exits : Action → Reply → Bool
  | .call c, .returned outcome => c.verb.ending = .exits ∧ outcome = .ok ()
  | _, _ => false

namespace Session

theorem exits_keep (s : Session) (made : Except LogError Logger) : (s.keep made).1.exits = s.exits := by
  rw [exits, World.journal_keep, exits]

/-- Of all actions only a fatal call that returns calls the exit function. It calls the one that is
installed, with code 1. -/
theorem exits_act (s : Session) (a : Action) :
    (s.act a).1.exits =
      s.exits ++ if a.exits (s.act a).2 then [.exited s.exitHandler 1] else [] := by
  cases a with
  | call c =>
      have hcall := s.exits_perform c
      simpa [act, Action.exits] using hcall
  | openFile path =>
      simp only [act, openFile]
      cases s.files.openFile path <;> exact (List.append_nil _).symm
  | create origin =>
      exact (s.exits_keep _).trans (List.append_nil _).symm
  | derive source now stack how =>
      refine Eq.trans ?_ (List.append_nil _).symm
      show ((s.atTime now).derive source stack how).1.exits = s.exits
      cases hl : (s.atTime now).logger? source with
      | none =>
          rw [derive_of_unknown hl]
          rfl
      | some l =>
          rw [derive_eq hl, exits_keep]
          exact (reaches_reportMarshalFailures (s.atTime now) stack how.failures).exits_eq
  | register id entry =>
      refine Eq.trans ?_ (List.append_nil _).symm
      show (s.addSeverity id entry).1.exits = s.exits
      rw [exits, World.journal_addSeverity, exits]
  | contextLogger now site =>
      refine Eq.trans ?_ (List.append_nil _).symm
      exact (reaches_contextLogger (s.atTime now) site).exits_eq
  | replaceDefault id | restoreDefault id =>
      simp only [act]
      split <;> exact (List.append_nil _).symm
  | _ => exact (List.append_nil _).symm

/-- **Over a run, the exit function is called once for each fatal call that returned**, with code 1. -/
theorem exits_acts (s : Session) (actions : List Action) :
    ∃ events, (s.acts actions).1.exits = s.exits ++ events ∧
      events.length = (actions.zip (s.acts actions).2).countP (fun p => p.1.exits p.2) ∧
      ∀ e ∈ events, ∃ handler, e = .exited handler 1 := by
  induction actions generalizing s with
  | nil => exact ⟨[], (List.append_nil _).symm, rfl, nofun⟩
  | cons a actions ih =>
      obtain ⟨events, hexits, hlength, hcode⟩ := ih (s.act a).1
      have hstep := s.exits_act a
      refine ⟨(if a.exits (s.act a).2 then [.exited s.exitHandler 1] else []) ++ events, ?_, ?_, ?_⟩
      · show ((s.act a).1.acts actions).1.exits = _
        rw [hexits, hstep, List.append_assoc]
      · show _ = ((a, (s.act a).2) :: actions.zip ((s.act a).1.acts actions).2).countP _
        rw [List.countP_cons, List.length_append, hlength, Nat.add_comm]
        split <;> rfl
      · intro e he
        rcases List.mem_append.1 he with hfirst | hrest
        · split at hfirst
          · exact ⟨_, List.mem_singleton.1 hfirst⟩
          · cases hfirst
        · exact hcode e hrest

end Session
end LineLog
