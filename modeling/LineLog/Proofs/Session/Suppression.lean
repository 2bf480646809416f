import LineLog.Proofs.Session.Action
/-!
# LineLog.Proofs.Session.Suppression

A call below the threshold of its logger might as well not be there.

Each way to call a logger looks at the threshold by itself, and what a call is given may refuse to be
marshalled or fail to be shown. None of this is looked at before the threshold
(`perform_of_suppressed`), so such a call only lets time pass. As the time at which a session stands
plays no part in what comes next, the whole run is as it would be without the call
(`acts_without`). A call that reaches the threshold is noticed: it attempts to write its record, or
panics over its message.
-/

namespace LineLog

/-- A logger drops the levels that are strictly below its threshold, as integers. -/
theorem Logger.accepts_eq_false_iff (l : Logger) (severity : Severity) :
    l.accepts severity = false ↔ severity.level.toInt < l.config.threshold.level.toInt := by
  rw [← Int32.lt_iff_toInt_lt]
  simp [accepts, Severity.below]

namespace Session

variable {s : Session} {c : Call} {l : Logger}

theorem Attempt.ne_nil {d : Logger} {site : CallSite} {sink : SinkId} {record : List Char}
    {events : List Event} (h : Attempt s d site sink record events) : events ≠ [] := by
  cases h <;> exact List.cons_ne_nil _ _

/-- The call returns, and attempts nothing. -/
structure Unheard (s : Session) (c : Call) : Prop where
  returns : (s.perform c).2 = .ok ()
  journal : (s.perform c).1.journal = s.journal

theorem unheard_of_suppressed (hquiet : s.accepts c.id c.verb.severity = false)
    (hverb : c.verb.ending = .returns) : Unheard s c := by
  have hperform := perform_of_suppressed hquiet hverb
  exact ⟨congrArg Prod.snd hperform, congrArg (fun result => result.1.journal) hperform⟩

/-- A call that is heard is noticed. -/
theorem not_unheard_of_accepts (hs : s.HasDefault) (hl : s.logger? c.id = some l)
    (haccepts : l.accepts c.verb.severity = true) : ¬ Unheard s c := by
  rintro ⟨hreturns, hjournal⟩
  by_cases hshows : c.request.Shows
  · obtain ⟨d, hd⟩ := hs.exists_logger?
    obtain ⟨diagnostics, attempt, htrace, -, hattempt⟩ := trace_perform hl hd haccepts hshows
    have hnothing : diagnostics ++ attempt ++ s.endingEvents c.verb.ending = [] := by
      rw [hjournal] at htrace
      exact List.self_eq_append_right.1 htrace
    obtain ⟨hwritten, -⟩ := List.append_eq_nil_iff.1 hnothing
    exact hattempt.ne_nil (List.append_eq_nil_iff.1 hwritten).2
  · rw [perform_of_not_shows ((accepts_of_logger? hl _).trans haccepts) hshows] at hreturns
    cases hreturns

/-- An action that only lets time pass can be left out of a run. -/
theorem acts_without {before : List Action} {a : Action} {now : Time.Instant} {reply : Reply}
    (h : (s.acts before).1.act a = ((s.acts before).1.atTime now, reply)) (after : List Action) :
    SameButTime (s.acts (before ++ a :: after)).1 (s.acts (before ++ after)).1 ∧
      ∃ replies, (s.acts (before ++ a :: after)).2 = (s.acts before).2 ++ reply :: replies ∧
        (s.acts (before ++ after)).2 = (s.acts before).2 ++ replies := by
  have hafter := (SameButTime.atTime (s.acts before).1 now).acts after
  have hwith : (s.acts before).1.acts (a :: after) =
      ((((s.acts before).1.atTime now).acts after).1,
        reply :: (((s.acts before).1.atTime now).acts after).2) := by
    rw [acts, h]
  rw [acts_append, acts_append, hwith, hafter.2]
  exact ⟨hafter.1, _, rfl, rfl⟩

/-- **A suppressed emission is a no-op.** Take any run, and in it any call that is not meant to exit or
to panic, with whatever objects and values that fail. If its level is strictly below the threshold of
its logger, then leaving it out changes nothing: sinks and files hold the same, the same was
attempted and complained about in the same order, loggers with their names of levels, the default
logger, the bindings, the settings and the flag end the same, and every other action is answered the
same. The call itself returns. And these are the only calls that return and attempt nothing. -/
theorem acts_without_suppressed (hs : s.HasDefault) {before : List Action}
    (hl : (s.acts before).1.logger? c.id = some l) (hverb : c.verb.ending = .returns) :
    (c.verb.severity.level.toInt < l.config.threshold.level.toInt → ∀ after,
      SameButTime (s.acts (before ++ .call c :: after)).1 (s.acts (before ++ after)).1 ∧
      ∃ replies,
        (s.acts (before ++ .call c :: after)).2 =
          (s.acts before).2 ++ .returned (.ok ()) :: replies ∧
        (s.acts (before ++ after)).2 = (s.acts before).2 ++ replies) ∧
    (Unheard (s.acts before).1 c ↔
      c.verb.severity.level.toInt < l.config.threshold.level.toInt) := by
  have haccepts := accepts_of_logger? hl c.verb.severity
  constructor
  · intro hbelow
    have hquiet := haccepts.trans ((l.accepts_eq_false_iff _).2 hbelow)
    have hcall : (s.acts before).1.act (.call c) =
        ((s.acts before).1.atTime c.now, .returned (.ok ())) := by
      rw [act, perform_of_suppressed hquiet hverb]
    exact acts_without hcall
  · rw [← l.accepts_eq_false_iff]
    constructor
    · intro hunheard
      by_contra hheard
      exact not_unheard_of_accepts (hs.acts before) hl (by simpa using hheard) hunheard
    · intro hquiet
      exact unheard_of_suppressed (haccepts.trans hquiet) hverb

/-- One logger, with a threshold between the built-in levels. -/
def picky : Session where
  hostname := .ok "host"
  sinks := [.memory []]
  loggers := [{ config := { threshold := ⟨350⟩ }, sink := 0 }]

/-- An error whose text cannot be taken, with an object that cannot be marshalled, just below. -/
def belowPicky : Call where
  now := .epoch
  id := 0
  site := default
  verb := .print ⟨349⟩
  request := .error (some ⟨⟨["boom"], true⟩, []⟩) [.object "o" (.refusing "no") ⟨"main.rs", 3⟩]

/-- The call is made inside a binding, and the memory is read at the end. -/
theorem acts_without_suppressed_picky :
    SameButTime (picky.acts ([.bind 0] ++ .call belowPicky :: [.read 0])).1
        (picky.acts ([.bind 0] ++ [.read 0])).1 ∧
      Unheard (picky.acts [.bind 0]).1 belowPicky := by
  have hs : picky.HasDefault := by decide
  have hl : (picky.acts [.bind 0]).1.logger? belowPicky.id =
      some { config := { threshold := ⟨350⟩ }, sink := 0 } := rfl
  have hbelow : belowPicky.verb.severity.level.toInt < (⟨350⟩ : Severity).level.toInt := by decide
  obtain ⟨hwithout, hunheard⟩ := acts_without_suppressed hs hl rfl
  exact ⟨(hwithout hbelow [.read 0]).1, hunheard.2 hbelow⟩

end Session
end LineLog
