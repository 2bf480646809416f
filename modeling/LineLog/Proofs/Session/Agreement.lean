import LineLog.Proofs.Session.Piped
/-!
# LineLog.Proofs.Session.Agreement

Where the standard streams take what they are given, a call is what it is on a session alone.

Each function of `Piped` is compared with the one of `Session` of the same name (`Piped.Agrees`): it
leaves the same session, and has the same outcome. The traces of the functions of `Session` are read off
those on such streams, since they are the ones where no complaint can be refused.
-/

namespace LineLog

namespace Piped

variable {p : Piped} {d : Logger}

/-- What has come of `p` is what comes of a session: its state and its outcome. -/
structure Agrees {α : Type} (p : Piped) (r : Piped × Outcome α) (s : Session) (outcome : Outcome α) :
    Prop where
  session_eq : r.1.session = s
  outcome_eq : r.2 = outcome
  answers_eq : r.1.streams.answers = p.streams.answers

namespace Agrees

variable {α : Type} {s s' : Session} {outcome : Outcome α}

theorem refl (p : Piped) (outcome : Outcome α) : Agrees p (p, outcome) p.session outcome :=
  ⟨rfl, rfl, rfl⟩

theorem from_answers {q : Piped} {r : Piped × Outcome α} (h : Agrees q r s outcome)
    (hanswers : q.streams.answers = p.streams.answers) : Agrees p r s outcome :=
  ⟨h.session_eq, h.outcome_eq, h.answers_eq.trans hanswers⟩

theorem andThen {r : Piped × Outcome Unit} {next : Piped → Piped × Outcome α}
    (h : Agrees p r s (.ok ()))
    (hnext : ∀ q, q.session = s → q.streams.answers = p.streams.answers →
      Agrees q (next q) s' outcome) : Agrees p (andThen r next) s' outcome := by
  obtain ⟨q, outcome'⟩ := r
  obtain ⟨hsession, rfl, hanswers⟩ := h
  exact (hnext q hsession hanswers).from_answers hanswers

end Agrees

section Takes

variable (hp : ∀ stream, p.streams.Takes stream)

include hp

theorem takes_of_answers {q : Piped} (h : q.streams.answers = p.streams.answers) (stream : Stream) :
    q.streams.Takes stream := by
  intro n
  rw [h]
  exact hp stream n

theorem offer_eq_of_takes {p₁ : Piped} {id : SinkId} {record : List Char} {failure : Option IoError}
    (h : p.offer id record = (p₁, failure)) : p.session.offer id record = (p₁.session, failure) := by
  have hnext : p.streams.next = fun _ => none := funext fun stream => hp stream _
  rw [offer, hnext] at h
  simp only [Prod.mk.injEq] at h
  exact Prod.ext (congrArg Piped.session h.1) h.2

theorem agrees_complain (e : LogError) :
    Agrees p (p.complain e) (p.session.complain e) (.ok ()) := by
  have hnext : p.streams.next .stderr = none := hp .stderr _
  simp only [complain, hnext]
  exact ⟨rfl, rfl, rfl⟩

theorem agrees_emitReport (report : Emission) :
    Agrees p (p.emitReport report) (p.session.emitReport report) (.ok ()) := by
  rw [emitReport, Session.emitReport]
  cases p.session.logger? p.session.defaultLogger with
  | none => exact .refl p _
  | some d =>
      show Agrees p (if d.accepts report.severity then _ else _)
        (if d.accepts report.severity then _ else _) _
      split
      · cases hoffer : p.offer d.sink (p.session.record d report) with
        | mk p₁ failure =>
            have hanswers := p.answers_offer d.sink (p.session.record d report)
            rw [hoffer] at hanswers
            rw [offer_eq_of_takes hp hoffer]
            cases failure with
            | none => exact ⟨rfl, rfl, hanswers⟩
            | some e =>
                exact (agrees_complain (takes_of_answers hp hanswers) _).from_answers hanswers
      · exact .refl p _

theorem agrees_reportWriteFailure (site : CallSite) (writer : String) (e : IoError) :
    Agrees p (p.reportWriteFailure site writer e) (p.session.reportWriteFailure site writer e)
      (.ok ()) := by
  rw [reportWriteFailure, Session.reportWriteFailure]
  split
  · exact agrees_complain hp _
  · have hmarked : ∀ stream, (p.marked true).streams.Takes stream := hp
    obtain ⟨hsession, houtcome, hanswers⟩ :=
      agrees_emitReport hmarked (.writeFailure site writer e)
    refine ⟨?_, houtcome, hanswers⟩
    exact congrArg (fun s : Session => { s with reporting := false }) hsession

theorem agrees_write (l : Logger) (e : Emission) :
    Agrees p (p.write l e) (p.session.write l e) (.ok ()) := by
  cases hoffer : p.offer l.sink (p.session.record l e) with
  | mk p₁ failure =>
      have hanswers := p.answers_offer l.sink (p.session.record l e)
      rw [hoffer] at hanswers
      rw [write, Session.write, hoffer, offer_eq_of_takes hp hoffer]
      cases failure with
      | none => exact ⟨rfl, rfl, hanswers⟩
      | some failure =>
          exact (agrees_reportWriteFailure (takes_of_answers hp hanswers) _ _ _).from_answers hanswers

theorem agrees_emitPlain (e : Emission) :
    Agrees p (p.emitPlain e) (p.session.emitPlain e) (.ok ()) := by
  rw [emitPlain, Session.emitPlain]
  cases p.session.logger? p.session.defaultLogger with
  | none => exact .refl p _
  | some d =>
      show Agrees p (if d.accepts e.severity then _ else _)
        (if d.accepts e.severity then _ else _) _
      split
      · exact agrees_write hp d e
      · exact .refl p _

theorem agrees_reportMarshalFailures (stack : List StackSymbol) (fs : List MarshalFailure) :
    Agrees p (p.reportMarshalFailures stack fs) (p.session.reportMarshalFailures stack fs)
      (.ok ()) := by
  induction fs generalizing p with
  | nil => exact .refl p _
  | cons f fs ih =>
      refine (agrees_emitPlain hp (.marshalFailure stack f)).andThen fun q hsession hanswers => ?_
      have hrest := ih (takes_of_answers hp hanswers)
      rw [hsession] at hrest
      exact hrest

theorem agrees_emit (l : Logger) (e : Emission) :
    Agrees p (p.emit l e) (p.session.emit l e) (.ok ()) := by
  rw [emit, Session.emit]
  split
  · refine (agrees_reportMarshalFailures hp e.site.stack _).andThen fun q hsession hanswers => ?_
    have hwrite := agrees_write (takes_of_answers hp hanswers) l e
    rw [hsession] at hwrite
    exact hwrite
  · exact .refl p _

theorem agrees_log (id : LoggerId) (e : Emission) :
    Agrees p (p.log id e) (p.session.log id e) (.ok ()) := by
  rw [log, Session.log]
  cases p.session.logger? id with
  | none => exact .refl p _
  | some l => exact agrees_emit hp l e

theorem agrees_deriveWith (id : LoggerId) (stack : List StackSymbol) (fields : List Field) :
    Agrees p (p.deriveWith id stack fields) (p.session.deriveWith id stack fields).1
      (.ok (p.session.deriveWith id stack fields).2) := by
  rw [deriveWith, Session.deriveWith]
  cases p.session.logger? id with
  | none => exact .refl p _
  | some l =>
      refine (agrees_reportMarshalFailures hp stack _).andThen fun q hsession hanswers => ?_
      rw [← hsession]
      exact ⟨rfl, rfl, rfl⟩

theorem agrees_contextLogger (site : CallSite) :
    Agrees p (p.contextLogger site) (p.session.contextLogger site).1
      (.ok (p.session.contextLogger site).2) := by
  rw [contextLogger, Session.contextLogger]
  cases p.session.bound? with
  | some id => exact .refl p _
  | none =>
      refine (agrees_log hp _ _).andThen fun q hsession hanswers => ?_
      exact ⟨hsession, rfl, rfl⟩

/-- A trace that was performed is one of the session. -/
theorem Performs.session {p' : Piped} {events : List Event} (h : Performs p events p') :
    Session.Performs p.session events p'.session := by
  induction h with
  | nil p => exact .nil _
  | @offered p p₁ p' id record failure events h _ ih =>
      have hanswers := p.answers_offer id record
      rw [h] at hanswers
      exact .offered (offer_eq_of_takes hp h) (ih (takes_of_answers hp hanswers))
  | @complained p p₁ p' e events h _ ih =>
      have hfirst := eq_of_complain h
      rw [hfirst] at ih
      exact .complained (ih hp)

end Takes

end Piped

/-! ### Sessions -/

namespace Session

variable {s : Session} {d : Logger}

/-- A function of `Session` performs the traces that it performs on streams that take everything. -/
theorem performs_of_traced {S : List Event → Prop} {r : Piped × Outcome Unit} {s' : Session}
    (h : Piped.Traced ⟨s, {}⟩ S r) (hagrees : Piped.Agrees ⟨s, {}⟩ r s' (.ok ())) :
    ∃ events, Performs s events s' ∧ S events := by
  have htakes : ∀ stream, ({} : Streams).Takes stream := fun _ _ => rfl
  obtain ⟨p', outcome⟩ := r
  obtain ⟨rfl, rfl, -⟩ := hagrees
  cases h with
  | whole h hshape => exact ⟨_, h.session htakes, hshape⟩

/-- The complaints about objects, one after the other. -/
theorem performs_reportMarshalFailures (hd : s.ReportsTo d) (stack : List StackSymbol)
    (fs : List MarshalFailure) :
    ∃ events, Performs s events (s.reportMarshalFailures stack fs) ∧
      Diagnostics s d stack fs events :=
  performs_of_traced (Piped.traced_reportMarshalFailures hd stack fs)
    (Piped.agrees_reportMarshalFailures (fun _ _ => rfl) stack fs)

/-- The trace of an emission that reaches the threshold: the complaints about its objects, then one
attempt to write its record. -/
theorem performs_emit (hd : s.logger? s.defaultLogger = some d) {l : Logger} {e : Emission}
    (haccepts : l.accepts e.severity = true) :
    ∃ diagnostics attempt, Performs s (diagnostics ++ attempt) (s.emit l e) ∧
      Diagnostics s d e.site.stack (Field.marshalFailures (e.leading ++ e.fields)) diagnostics ∧
      Attempt s d e.site l.sink (s.record l e) attempt := by
  obtain ⟨_, hperforms, diagnostics, attempt, rfl, hdiagnostics, hattempt⟩ :=
    performs_of_traced (Piped.traced_emit (p := ⟨s, {}⟩) (.inl hd) haccepts)
      (Piped.agrees_emit (fun _ _ => rfl) l e)
  exact ⟨diagnostics, attempt, hperforms, hdiagnostics, hattempt⟩

end Session
end LineLog
