import LineLog.Proofs.Session.Trace
import LineLog.Session.Piped
/-!
# LineLog.Proofs.Session.Piped

What an emission attempts to write where the standard streams may refuse, and what stops it.

There are two ways for an emission to end (`Traced`). It has performed a whole trace of the shape that an
emission has, or standard error has refused a complaint of such a trace: then the call panics, and what
lies behind the complaint is not attempted. In both cases the mark of a report under way is as it was.

Design points:

* A complaint is the last event of the attempt that it belongs to (`Attempt.rest_eq_nil`). So what a panic
  leaves out is never a part of the attempt at hand, but the attempts that come after it.
* Only standard error makes an emission stop. It returns if the stream takes what it is given
  (`Traced.returns`), whatever sinks and standard output answer.
* A session without a default logger is traced like one whose default logger does not take errors
  (`Session.ReportsTo`).
-/

namespace LineLog

/-- The stream takes what it is given. -/
def Streams.Takes (t : Streams) (stream : Stream) : Prop :=
  ∀ n, t.answers stream n = none

/-- The stream refuses whatever it is given. -/
def Streams.Refuses (t : Streams) (stream : Stream) : Prop :=
  ∀ n, ∃ refusal, t.answers stream n = some refusal

namespace Session

/-- Reports go to the logger `d`. It is the default logger; where there is none, which writes no reports,
any logger that does not take errors will do. -/
def ReportsTo (s : Session) (d : Logger) : Prop :=
  s.logger? s.defaultLogger = some d ∨
    (s.logger? s.defaultLogger = none ∧ d.accepts Builtin.error.severity = false)

theorem exists_reportsTo (s : Session) : ∃ d, s.ReportsTo d := by
  cases hd : s.logger? s.defaultLogger with
  | some d => exact ⟨d, .inl hd⟩
  | none =>
      exact ⟨{ config := { threshold := ⟨Int32.maxValue⟩ }, sink := 0 }, .inr ⟨hd, by decide⟩⟩

theorem ReportsTo.congr {s s' : Session} {d : Logger} (hd : s.ReportsTo d) (h : Alike s s') :
    s'.ReportsTo d := by
  rw [ReportsTo, h.logger?, h.defaultLogger]
  exact hd

theorem ReportsTo.logger? {s : Session} {d : Logger} (hd : s.ReportsTo d)
    (haccepts : d.accepts Builtin.error.severity = true) : s.logger? s.defaultLogger = some d := by
  rcases hd with hd | ⟨-, hsilent⟩
  · exact hd
  · rw [haccepts] at hsilent
    cases hsilent

end Session

namespace Piped

open Session (Alike Report Attempt Diagnostics Emitted)

/-! ### One write -/

theorem answers_offer (p : Piped) (id : SinkId) (record : List Char) :
    (p.offer id record).1.streams.answers = p.streams.answers := by
  rw [offer]
  cases (p.session.sink id).stream? <;> rfl

/-- A complaint is written, or it is refused and the call panics. -/
theorem complain_cases (p : Piped) (e : LogError) :
    (p.streams.next .stderr = none ∧
      p.complain e = (⟨p.session.complain e, p.streams.wrote .stderr⟩, .ok ())) ∨
    ∃ refusal, p.streams.next .stderr = some refusal ∧
      p.complain e = (⟨p.session, p.streams.wrote .stderr⟩, .error (.unprinted refusal)) := by
  cases hnext : p.streams.next .stderr with
  | none => exact .inl ⟨rfl, by simp [complain, hnext]⟩
  | some refusal => exact .inr ⟨refusal, rfl, by simp [complain, hnext]⟩

/-! ### Performing a trace -/

/-- `p` becomes `p'` by these attempts and complaints, in order. -/
inductive Performs : Piped → List Event → Piped → Prop
  | nil (p : Piped) : Performs p [] p
  | offered {p p₁ p' : Piped} {id : SinkId} {record : List Char} {failure : Option IoError}
      {events : List Event} (h : p.offer id record = (p₁, failure)) (hs : Performs p₁ events p') :
      Performs p (.offered id record failure :: events) p'
  | complained {p p₁ p' : Piped} {e : LogError} {events : List Event}
      (h : p.complain e = (p₁, .ok ())) (hs : Performs p₁ events p') :
      Performs p (.complained e :: events) p'

/-- A complaint that was not refused is in the journal, and standard error has answered. -/
theorem eq_of_complain {p p₁ : Piped} {e : LogError} (h : p.complain e = (p₁, .ok ())) :
    p₁ = ⟨p.session.complain e, p.streams.wrote .stderr⟩ := by
  rcases p.complain_cases e with ⟨-, hcomplain⟩ | ⟨refusal, -, hcomplain⟩
  · exact (Prod.ext_iff.1 (h.symm.trans hcomplain)).1
  · cases h.symm.trans hcomplain

/-- A complaint that was refused is lost. -/
theorem eq_of_complain_error {p p₁ : Piped} {e : LogError} {panic : Panic}
    (h : p.complain e = (p₁, .error panic)) :
    p₁ = ⟨p.session, p.streams.wrote .stderr⟩ ∧
      ∃ refusal, p.streams.next .stderr = some refusal ∧ panic = .unprinted refusal := by
  rcases p.complain_cases e with ⟨-, hcomplain⟩ | ⟨refusal, hnext, hcomplain⟩
  · cases h.symm.trans hcomplain
  · have hsame := h.symm.trans hcomplain
    simp only [Prod.mk.injEq, Except.error.injEq] at hsame
    exact ⟨hsame.1, refusal, hnext, hsame.2⟩

namespace Performs

theorem trans {p p₁ p' : Piped} {a b : List Event} (ha : Performs p a p₁) (hb : Performs p₁ b p') :
    Performs p (a ++ b) p' := by
  induction ha with
  | nil => exact hb
  | offered h _ ih => exact .offered h (ih hb)
  | complained h _ ih => exact .complained h (ih hb)

theorem alike {p p' : Piped} {events : List Event} (h : Performs p events p') :
    Alike p.session p'.session := by
  induction h with
  | nil p => exact .refl _
  | @offered p p₁ p' id record failure events h _ ih =>
      have hoffer := Session.alike_offer p.session id record p.streams.next
      have hfirst : p₁ = (p.offer id record).1 := (congrArg Prod.fst h).symm
      rw [hfirst] at ih
      exact hoffer.trans ih
  | @complained p p₁ p' e events h _ ih =>
      rw [eq_of_complain h] at ih
      exact (Session.alike_complain p.session e).trans ih

/-- The journal gains the trace and nothing else. -/
theorem journal {p p' : Piped} {events : List Event} (h : Performs p events p') :
    p'.session.journal = p.session.journal ++ events := by
  induction h with
  | nil => simp
  | @offered p p₁ p' id record failure events h _ ih =>
      have hjournal : (p.offer id record).1.session.journal =
          p.session.journal ++ [.offered id record (p.offer id record).2] := rfl
      rw [h] at hjournal
      rw [ih, hjournal, List.append_assoc]
      rfl
  | @complained p p₁ p' e events h _ ih =>
      rw [ih, eq_of_complain h, Session.complain, List.append_assoc]
      rfl

/-- What the streams are going to answer does not depend on what they are given. -/
theorem answers {p p' : Piped} {events : List Event} (h : Performs p events p') :
    p'.streams.answers = p.streams.answers := by
  induction h with
  | nil => rfl
  | @offered p p₁ p' id record failure events h _ ih =>
      have hoffer := p.answers_offer id record
      rw [h] at hoffer
      exact ih.trans hoffer
  | @complained p p₁ p' e events h _ ih =>
      rw [ih, eq_of_complain h]
      rfl

end Performs

/-- The state with the mark of a report under way set to `b`. -/
def marked (p : Piped) (b : Bool) : Piped :=
  { p with session.reporting := b }

theorem offer_marked (p : Piped) (b : Bool) (id : SinkId) (record : List Char) :
    (p.marked b).offer id record = ((p.offer id record).1.marked b, (p.offer id record).2) := rfl

theorem complain_marked (p : Piped) (b : Bool) (e : LogError) :
    (p.marked b).complain e = ((p.complain e).1.marked b, (p.complain e).2) := by
  have hnext : (p.marked b).streams.next .stderr = p.streams.next .stderr := rfl
  rw [complain, complain, hnext]
  cases p.streams.next .stderr <;> rfl

/-- Whether a report is under way plays no part in what sinks and streams answer. -/
theorem Performs.marked {p p' : Piped} {events : List Event} (h : Performs p events p') (b : Bool) :
    Performs (p.marked b) events (p'.marked b) := by
  induction h with
  | nil p => exact .nil _
  | @offered p p₁ p' id record failure events h _ ih =>
      exact .offered (by rw [offer_marked, h]) ih
  | @complained p p₁ p' e events h _ ih =>
      exact .complained (by rw [complain_marked, h]) ih

/-! ### The two ways to end -/

/-- What comes of performing a trace of a certain shape. All of it was performed, or standard error has
refused a complaint in it, and what lies behind the complaint is left out. -/
inductive Traced (p : Piped) (Shape : List Event → Prop) : Piped × Outcome Unit → Prop
  | whole {p' : Piped} {events : List Event} (h : Performs p events p') (hshape : Shape events) :
      Traced p Shape (p', .ok ())
  | cut {q p' : Piped} {events rest : List Event} {lost : LogError} {refusal : IoError}
      (h : Performs p events q) (hlost : q.complain lost = (p', .error (.unprinted refusal)))
      (hshape : Shape (events ++ .complained lost :: rest)) :
      Traced p Shape (p', .error (.unprinted refusal))

namespace Traced

variable {p : Piped} {S T : List Event → Prop} {r : Piped × Outcome Unit}

theorem mono (h : Traced p S r) (hmono : ∀ events, S events → T events) : Traced p T r := by
  cases h with
  | whole h hshape => exact .whole h (hmono _ hshape)
  | cut h hlost hshape => exact .cut h hlost (hmono _ hshape)

/-- A trace that goes on from where another one has led. -/
theorem after {q : Piped} {first : List Event} (hfirst : Performs p first q) (h : Traced q T r)
    (hshape : ∀ events, T events → S (first ++ events)) : Traced p S r := by
  cases h with
  | whole h hevents => exact .whole (hfirst.trans h) (hshape _ hevents)
  | cut h hlost hevents =>
      have hall := hshape _ hevents
      rw [← List.append_assoc] at hall
      exact .cut (hfirst.trans h) hlost hall

/-- One trace and then another. If the first one is cut off, there has to be some second one that would
have followed. -/
theorem andThen {next : Piped → Piped × Outcome Unit} (h : Traced p S r)
    (hnext : ∀ events q, Performs p events q → Traced q T (next q)) (hsome : ∃ events, T events) :
    Traced p (fun events => ∃ first second, events = first ++ second ∧ S first ∧ T second)
      (andThen r next) := by
  cases h with
  | whole h hfirst =>
      exact .after h (hnext _ _ h) fun second hsecond => ⟨_, second, rfl, hfirst, hsecond⟩
  | @cut q p' events rest lost refusal h hlost hfirst =>
      obtain ⟨second, hsecond⟩ := hsome
      have hall : events ++ .complained lost :: (rest ++ second) =
          (events ++ .complained lost :: rest) ++ second := by
        rw [List.append_assoc, List.cons_append]
      exact .cut h hlost ⟨_, second, hall, hfirst, hsecond⟩

/-- A trace that was performed while a report was marked as under way. -/
theorem unmarked (h : Traced (p.marked true) S r) (hflag : p.session.reporting = false) :
    Traced p S (r.1.marked false, r.2) := by
  have hback : (p.marked true).marked false = p := by
    show p.marked false = p
    rw [marked, ← hflag]
  cases h with
  | whole h hshape =>
      have hperforms := h.marked false
      rw [hback] at hperforms
      exact .whole hperforms hshape
  | cut h hlost hshape =>
      have hperforms := h.marked false
      rw [hback] at hperforms
      exact .cut hperforms (by rw [complain_marked, hlost]) hshape

theorem alike (h : Traced p S r) : Alike p.session r.1.session := by
  cases h with
  | whole h _ => exact h.alike
  | cut h hlost _ =>
      rw [(eq_of_complain_error hlost).1]
      exact h.alike

/-- The journal has gained the part of the trace that was performed. -/
theorem exists_events {p' : Piped} {outcome : Outcome Unit} (h : Traced p S (p', outcome)) :
    ∃ events, p'.session.journal = p.session.journal ++ events ∧
      ((outcome = .ok () ∧ Performs p events p' ∧ S events) ∨
        ∃ q lost rest refusal, outcome = .error (.unprinted refusal) ∧ Performs p events q ∧
          q.complain lost = (p', outcome) ∧ S (events ++ .complained lost :: rest)) := by
  cases h with
  | whole h hshape => exact ⟨_, h.journal, .inl ⟨rfl, h, hshape⟩⟩
  | @cut q p' events rest lost refusal h hlost hshape =>
      refine ⟨events, ?_, .inr ⟨q, lost, rest, refusal, rfl, h, hlost, hshape⟩⟩
      rw [(eq_of_complain_error hlost).1]
      exact h.journal

/-- Nothing but standard error makes it stop. -/
theorem returns (h : Traced p S r) (hstderr : p.streams.Takes .stderr) : r.2 = .ok () := by
  cases h with
  | whole => rfl
  | @cut q p' events rest lost refusal h hlost _ =>
      obtain ⟨-, refusal, hnext, -⟩ := eq_of_complain_error hlost
      rw [Streams.next, h.answers, hstderr] at hnext
      cases hnext

end Traced

/-! ### Writing -/

variable {p : Piped} {d : Logger}

theorem traced_complain (p : Piped) (e : LogError) :
    Traced p (· = [.complained e]) (p.complain e) := by
  rcases p.complain_cases e with ⟨-, hcomplain⟩ | ⟨refusal, -, hcomplain⟩
  · have hperforms : Performs p [.complained e] ⟨p.session.complain e, p.streams.wrote .stderr⟩ :=
      .complained hcomplain (.nil _)
    rw [hcomplain]
    exact .whole hperforms rfl
  · rw [hcomplain]
    exact .cut (.nil p) hcomplain rfl

theorem traced_emitReport (hd : p.session.ReportsTo d)
    {report : Emission} (hreport : report.severity = Builtin.error.severity) :
    Traced p (Report p.session d report) (p.emitReport report) := by
  cases haccepts : d.accepts Builtin.error.severity with
  | false =>
      have hsame : p.emitReport report = (p, .ok ()) := by
        rcases hd with hd | ⟨hd, -⟩ <;> simp [emitReport, hd, hreport, haccepts]
      rw [hsame]
      exact .whole (.nil p) (.silent haccepts)
  | true =>
      have hdefault := hd.logger? haccepts
      cases hoffer : p.offer d.sink (p.session.record d report) with
      | mk p₁ failure =>
          have hstep := Performs.offered hoffer (.nil p₁)
          cases failure with
          | none =>
              have hdone : p.emitReport report = (p₁, .ok ()) := by
                simp [emitReport, hdefault, hreport, haccepts, hoffer]
              rw [hdone]
              exact .whole hstep (.written haccepts)
          | some e =>
              have hdone : p.emitReport report =
                  p₁.complain (.writeFailed (p.session.sink d.sink).name e) := by
                simp [emitReport, hdefault, hreport, haccepts, hoffer, hstep.alike.name]
              rw [hdone]
              refine (traced_complain p₁ _).after hstep ?_
              rintro _ rfl
              exact .lost haccepts e

/-- What follows a failed write while no report is under way. -/
theorem traced_reportWriteFailure (hd : p.session.ReportsTo d)
    (hflag : p.session.reporting = false) (site : CallSite) (writer : String) (e : IoError) :
    Traced p (Report p.session d (.writeFailure site writer e))
      (p.reportWriteFailure site writer e) := by
  have hreport : Traced (p.marked true) (Report p.session d (.writeFailure site writer e))
      ((p.marked true).emitReport (.writeFailure site writer e)) := by
    have hmarked : (p.marked true).session.ReportsTo d := hd
    refine (traced_emitReport hmarked rfl).mono fun events hevents => ?_
    -- The report's record and the names of sinks do not depend on the mark.
    cases hevents with
    | silent h => exact .silent h
    | written h => exact .written h
    | lost h e => exact .lost h e
  rw [reportWriteFailure, hflag, if_neg (by decide)]
  exact hreport.unmarked hflag

/-- An attempt to write the record of an emission, and what follows. -/
theorem traced_write (hd : p.session.ReportsTo d) (l : Logger) (e : Emission) :
    Traced p (Attempt p.session d e.site l.sink (p.session.record l e)) (p.write l e) := by
  cases hoffer : p.offer l.sink (p.session.record l e) with
  | mk p₁ failure =>
      have hstep := Performs.offered hoffer (.nil p₁)
      have halike := hstep.alike
      cases failure with
      | none =>
          have hdone : p.write l e = (p₁, .ok ()) := by simp [write, hoffer]
          rw [hdone]
          exact .whole hstep .taken
      | some failure =>
          have hdone : p.write l e =
              p₁.reportWriteFailure e.site (p.session.sink l.sink).name failure := by
            simp [write, hoffer, halike.name]
          rw [hdone]
          cases hflag : p.session.reporting with
          | true =>
              have hnested : p₁.session.reporting = true := halike.reporting.trans hflag
              rw [reportWriteFailure, if_pos hnested]
              refine (traced_complain p₁ _).after hstep ?_
              rintro _ rfl
              exact .nested hflag
          | false =>
              have hreport := traced_reportWriteFailure (hd.congr halike)
                (halike.reporting.trans hflag) e.site (p.session.sink l.sink).name failure
              exact hreport.after hstep fun events hevents =>
                .failed hflag (Session.isFailureReport_writeFailure _ _ _) (hevents.congr halike)

/-! ### Emitting -/

/-- There is always some trace of the complaints about objects. -/
theorem exists_diagnostics (s : Session) (d : Logger) (stack : List StackSymbol)
    (fs : List MarshalFailure) : ∃ events, Diagnostics s d stack fs events := by
  cases haccepts : d.accepts Builtin.error.severity with
  | false => exact ⟨[], .silent haccepts⟩
  | true =>
      induction fs with
      | nil => exact ⟨[], .nil⟩
      | cons f fs ih =>
          obtain ⟨rest, hrest⟩ := ih
          exact ⟨_, .cons haccepts (Session.isMarshalReport_marshalFailure stack f) .taken hrest⟩

/-- The complaints about objects, one after the other. -/
theorem traced_reportMarshalFailures (hd : p.session.ReportsTo d) (stack : List StackSymbol)
    (fs : List MarshalFailure) :
    Traced p (Diagnostics p.session d stack fs) (p.reportMarshalFailures stack fs) := by
  cases haccepts : d.accepts Builtin.error.severity with
  | false =>
      have hsame : p.reportMarshalFailures stack fs = (p, .ok ()) := by
        induction fs with
        | nil => rfl
        | cons f fs ih =>
            have hplain : p.emitPlain (.marshalFailure stack f) = (p, .ok ()) := by
              rcases hd with hd | ⟨hd, -⟩ <;> simp [emitPlain, hd, Emission.marshalFailure, haccepts]
            rw [reportMarshalFailures, hplain]
            exact ih
      rw [hsame]
      exact .whole (.nil p) (.silent haccepts)
  | true =>
      -- Each complaint leaves a state that is alike, so the rest is told from where it started.
      induction fs generalizing p with
      | nil => exact .whole (.nil p) .nil
      | cons f fs ih =>
          have hplain : p.emitPlain (.marshalFailure stack f) =
              p.write d (.marshalFailure stack f) := by
            simp [emitPlain, hd.logger? haccepts, Emission.marshalFailure, haccepts]
          rw [reportMarshalFailures, hplain]
          refine ((traced_write hd d (.marshalFailure stack f)).andThen
            (fun events q hevents => ?_) (exists_diagnostics p.session d stack fs)).mono ?_
          · have halike := hevents.alike
            exact (ih (hd.congr halike)).mono
              fun events hevents => hevents.congr halike
          · rintro _ ⟨first, rest, rfl, hfirst, hrest⟩
            exact .cons haccepts (Session.isMarshalReport_marshalFailure stack f) hfirst hrest

/-- What an emission does that reaches the threshold. -/
theorem traced_emit (hd : p.session.ReportsTo d) {l : Logger} {e : Emission}
    (haccepts : l.accepts e.severity = true) :
    Traced p (Emitted p.session d l e) (p.emit l e) := by
  rw [emit, if_pos haccepts]
  refine ((traced_reportMarshalFailures hd e.site.stack _).andThen
    (fun events q hevents => ?_) ⟨_, .taken⟩).mono fun events hevents => hevents
  have halike := hevents.alike
  refine (traced_write (hd.congr halike) l e).mono
    fun events hevents => ?_
  rw [halike.record] at hevents
  exact hevents.congr halike

/-- Through whatever logger an emission goes, it does nothing but attempts and complaints. -/
theorem traced_log (p : Piped) (id : LoggerId) (e : Emission) :
    Traced p (fun _ => True) (p.log id e) := by
  obtain ⟨d, hd⟩ := p.session.exists_reportsTo
  rw [log]
  cases p.session.logger? id with
  | none => exact .whole (.nil p) trivial
  | some l =>
      cases haccepts : l.accepts e.severity with
      | true => exact (traced_emit hd haccepts).mono fun _ _ => trivial
      | false =>
          have hsame : p.emit l e = (p, .ok ()) := by simp [emit, haccepts]
          show Traced p _ (p.emit l e)
          rw [hsame]
          exact .whole (.nil p) trivial

/-! ### A standard error stream that refuses everything -/

/-- A sink keeps the stream that it writes to. -/
theorem stream?_offer (p : Piped) (id j : SinkId) (record : List Char) :
    ((p.offer id record).1.session.sink j).stream? = (p.session.sink j).stream? := by
  have hsink : ∀ (sink : Sink) (files : Files) (answer : Stream → Option IoError),
      (sink.offer files record answer).2.1.stream? = sink.stream? := by
    intro sink files answer
    cases sink <;> rfl
  show ((p.session.setSink id
    ((p.session.sink id).offer p.session.files record p.streams.next).2.1).sink j).stream? = _
  rw [Session.sink_setSink]
  split
  · rename_i hj
    rw [hsink, hj.1]
  · rfl

/-- A sink on a stream answers what the stream answers. -/
theorem offer_of_stream (p : Piped) {id : SinkId} {stream : Stream}
    (h : (p.session.sink id).stream? = some stream) (record : List Char) :
    (p.offer id record).2 = p.streams.next stream := by
  show ((p.session.sink id).offer p.session.files record p.streams.next).2.2 = _
  cases hsink : p.session.sink id with
  | console other =>
      rw [hsink] at h
      cases h
      rfl
  | memory | file | writer | unreliable =>
      rw [hsink] at h
      cases h

/-- Nothing that was performed is a complaint, nor a record that a sink on the stream has taken. -/
theorem Performs.of_refuses {p' : Piped} {events : List Event} (h : Performs p events p')
    (hstderr : p.streams.Refuses .stderr) :
    (∀ e, .complained e ∉ events) ∧
      ∀ id record, (p.session.sink id).stream? = some .stderr → .offered id record none ∉ events := by
  induction h with
  | nil => exact ⟨fun _ => List.not_mem_nil, fun _ _ _ => List.not_mem_nil⟩
  | @offered p p₁ p' id record failure events h _ ih =>
      have hanswers := p.answers_offer id record
      have hstream := fun j => p.stream?_offer id j record
      rw [h] at hanswers hstream
      obtain ⟨hcomplained, hoffered⟩ := ih fun n => by rw [hanswers]; exact hstderr n
      refine ⟨fun e he => ?_, fun j text hj hmem => ?_⟩
      · rcases List.mem_cons.1 he with heq | hrest
        · cases heq
        · exact hcomplained e hrest
      · rcases List.mem_cons.1 hmem with heq | hrest
        · -- The stream has answered the attempt itself.
          obtain ⟨rfl, -, hfailure⟩ := Event.offered.inj heq
          obtain ⟨refusal, hrefusal⟩ := hstderr (p.streams.writes .stderr)
          have htaken := p.offer_of_stream hj record
          rw [h, ← hfailure] at htaken
          cases htaken.trans hrefusal
        · exact hoffered j text ((hstream j).trans hj) hrest
  | @complained p p₁ p' e events h _ ih =>
      obtain ⟨refusal, hrefusal⟩ := hstderr (p.streams.writes .stderr)
      rcases p.complain_cases e with ⟨hnext, -⟩ | ⟨refusal, -, hcomplain⟩
      · cases hrefusal.symm.trans hnext
      · cases h.symm.trans hcomplain

/-- **The last resort can stop an emission.** If the logger and the default logger write to a standard
error that refuses everything, and the default logger takes errors, each emission that reaches the
threshold ends in a panic. -/
theorem emit_of_refuses (hd : p.session.logger? p.session.defaultLogger = some d)
    (herrors : d.accepts Builtin.error.severity = true) {l : Logger} {e : Emission}
    (haccepts : l.accepts e.severity = true) (hl : (p.session.sink l.sink).stream? = some .stderr)
    (hdsink : (p.session.sink d.sink).stream? = some .stderr)
    (hstderr : p.streams.Refuses .stderr) :
    ∃ refusal, (p.emit l e).2 = .error (.unprinted refusal) := by
  have htraced := traced_emit (.inl hd) haccepts
  generalize p.emit l e = r at htraced
  cases htraced with
  | cut => exact ⟨_, rfl⟩
  | whole h hshape =>
      -- A whole trace holds a complaint that was written, or a record that the stream has taken.
      exfalso
      obtain ⟨hcomplained, hoffered⟩ := h.of_refuses hstderr
      obtain ⟨diagnostics, attempt, rfl, -, hattempt⟩ := hshape
      have hmem : ∀ x ∈ attempt, x ∈ diagnostics ++ attempt :=
        fun x hx => List.mem_append_right diagnostics hx
      cases hattempt with
      | taken => exact hoffered _ _ hl (hmem _ List.mem_cons_self)
      | nested => exact hcomplained _ (hmem _ (List.mem_cons_of_mem _ List.mem_cons_self))
      | failed hflag hreport hevents =>
          cases hevents with
          | silent hsilent =>
              rw [herrors] at hsilent
              cases hsilent
          | written => exact hoffered _ _ hdsink (hmem _ (List.mem_cons_of_mem _ List.mem_cons_self))
          | lost =>
              exact hcomplained _
                (hmem _ (List.mem_cons_of_mem _ (List.mem_cons_of_mem _ List.mem_cons_self)))

/-! ### Logging a message -/

/-- A method that does nothing besides emitting comes to what the emission comes to. -/
theorem andThen_returned (r : Piped × Outcome Unit) : andThen r (fun p => (p, .ok ())) = r := by
  obtain ⟨p, panic | ⟨⟩⟩ := r <;> rfl

/-- An emission through a default logger that does not take errors makes one attempt, whether or not it
comes to its end. -/
theorem attempts_of_silent {s : Session} {l : Logger} {e : Emission}
    (hsilent : d.accepts Builtin.error.severity = false) {events : List Event}
    (h : Emitted s d l e events ∨
      ∃ lost rest, Emitted s d l e (events ++ .complained lost :: rest)) :
    events.filterMap Session.attempt? = [(l.sink, s.record l e)] := by
  rcases h with hwhole | ⟨lost, rest, hcut⟩
  · obtain ⟨diagnostics, attempt, rfl, hdiagnostics, hattempt⟩ := hwhole
    rw [hdiagnostics.eq_nil_of_silent hsilent]
    exact hattempt.attempts_of_silent hsilent
  · obtain ⟨diagnostics, attempt, hevents, hdiagnostics, hattempt⟩ := hcut
    rw [hdiagnostics.eq_nil_of_silent hsilent, List.nil_append] at hevents
    rw [← hevents] at hattempt
    have hattempts := hattempt.attempts_of_silent hsilent
    rw [hattempt.rest_eq_nil, List.filterMap_append] at hattempts
    exact (List.append_nil _).symm.trans hattempts

/-- **A failed write is reported once, its report is not reported again, and what cannot be reported is
written to standard error.** Let a message be printed that reaches the threshold of its logger. Whatever
sinks and streams answer, what is attempted are the complaints about the objects that could not be
marshalled, in the order of the fields, and then the record; each failure of these is followed by one
report, and the failure of a report by no attempt but by a complaint. The call goes through all of this and
returns, or standard error refuses one of the complaints: then it panics, and what lies behind the
complaint is left out. It returns if standard error takes what it is given. If the default logger does not
take errors, the record is the only attempt. The mark of a report under way is as it was, also after a
panic. -/
theorem traced_logMessage {p : Piped} {id : LoggerId} {l d : Logger}
    (hl : p.session.logger? id = some l)
    (hd : p.session.logger? p.session.defaultLogger = some d) (site : CallSite) {verb : Verb}
    (hverb : verb.ending = .returns) (haccepts : l.accepts verb.severity = true) (message : String)
    (fields : List Field) :
    let e : Emission := { site, severity := verb.severity, message, fields }
    ∃ p' outcome events,
      p.logMessage id site verb message fields = (p', outcome) ∧
      p'.session.journal = p.session.journal ++ events ∧
      ((outcome = .ok () ∧ Performs p events p' ∧ Emitted p.session d l e events) ∨
        ∃ q lost rest refusal, outcome = .error (.unprinted refusal) ∧ Performs p events q ∧
          q.complain lost = (p', outcome) ∧
          Emitted p.session d l e (events ++ .complained lost :: rest)) ∧
      (p.streams.Takes .stderr → outcome = .ok ()) ∧
      (d.accepts Builtin.error.severity = false →
        events.filterMap Session.attempt? = [(l.sink, p.session.record l e)]) ∧
      p'.session.reporting = p.session.reporting := by
  intro e
  have htraced := traced_emit (.inl hd) (e := e) haccepts
  have hdone : p.logMessage id site verb message fields = p.emit l e := by
    rw [logMessage, log, hl, hverb]
    exact andThen_returned _
  rw [hdone]
  have hreturns := htraced.returns
  have hflag := htraced.alike.reporting
  generalize p.emit l e = r at htraced hreturns hflag
  obtain ⟨p', outcome⟩ := r
  obtain ⟨events, hjournal, hends⟩ := htraced.exists_events
  refine ⟨p', outcome, events, rfl, hjournal, hends, hreturns, fun hsilent => ?_, hflag⟩
  refine attempts_of_silent hsilent ?_
  rcases hends with ⟨-, -, hwhole⟩ | ⟨q, lost, rest, refusal, -, -, -, hcut⟩
  · exact .inl hwhole
  · exact .inr ⟨lost, rest, hcut⟩

/-- The default logger itself fails at every attempt, and an object cannot be marshalled. Standard error
takes what it is given. -/
theorem traced_logMessage_failing :
    let l : Logger := { config := {}, sink := 0 }
    let fields : List Field := [.object "o" (.refusing "no") ⟨"main.rs", 3⟩]
    ∃ p', (⟨.failing, {}⟩ : Piped).logMessage 0 default (.named .info) "m" fields = (p', .ok ()) ∧
      Emitted .failing l l
        { site := default, severity := Builtin.info.severity, message := "m", fields }
        p'.session.journal ∧
      p'.session.reporting = false := by
  intro l fields
  obtain ⟨p', outcome, events, hresult, hjournal, hends, hreturns, -, hreporting⟩ :=
    traced_logMessage (p := ⟨.failing, {}⟩) (show Session.failing.logger? 0 = some l from rfl) rfl
      default (show (Verb.named .info).ending = .returns from rfl) (by decide) "m" fields
  obtain rfl := hreturns fun _ => rfl
  rcases hends with ⟨-, -, hemitted⟩ | ⟨q, lost, rest, refusal, hpanic, -⟩
  · rw [← show p'.session.journal = events from hjournal] at hemitted
    exact ⟨p', hresult, hemitted, hreporting⟩
  · cases hpanic

/-- A process at its start: the default logger writes to standard error. That is a pipe which nobody
reads. -/
def unread : Piped where
  session := {
    hostname := .ok "host"
    sinks := [.console .stderr]
    loggers := [{ config := .withSystemHostname (.ok "host"), sink := 0 }] }
  streams := { answers := fun _ _ => some ⟨"Broken pipe (os error 32)"⟩ }

/-- Printing through it panics: the record, its report and the complaint about the report are refused. -/
theorem unprinted_logMessage :
    unread.session.accepts 0 Builtin.info.severity = true ∧
      (unread.logMessage 0 default (.named .info) "m" []).2 =
        .error (.unprinted ⟨"Broken pipe (os error 32)"⟩) :=
  ⟨by decide, rfl⟩

end Piped
end LineLog
