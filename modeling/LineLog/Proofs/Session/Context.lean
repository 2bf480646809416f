import LineLog.Proofs.Logger.Derivation
import LineLog.Proofs.Session.Lines
/-!
# LineLog.Proofs.Session.Context

Context fields are fields that are given in advance.

A derived logger holds its context as text. That text is what the same fields come to at the
call (`Session.record_withFields`), so a record cannot be told from one that was given all
fields at once. With an error the context stands before the fields that the error is attached
as, which would not be so had it been given at the call.

Both hold for any fields and whatever the context was before, also where the text of a raw
value is no JSON.
-/

namespace LineLog.Session

open Text Json

variable {s : Session} {id : LoggerId} {G d : Logger}

/-! ### Records -/

/-- A record of a logger that was derived with `a` is the record with `a` before the fields. -/
theorem record_withFields (s : Session) (l : Logger) (a : List Field) {e : Emission}
    (h : e.leading = []) :
    s.record (l.withFields s.fallbackFormat a) e = s.record l { e with fields := a ++ e.fields } := by
  simp only [record, Record.assemble, Record.body, Logger.withFields, h, List.nil_append,
    Field.renderAll_append, List.append_assoc, List.cons_append]
  rfl

/-- The record's own part of an emission: what the blocks show. -/
def shown (s : Session) (l : Logger) (e : Emission) : Record where
  time := s.now
  severityName := l.severityName e.severity
  caller := l.callerOf e.site.stack e.site.location
  message := e.message

/-- The text of a record in which fields follow the context that a logger has: blocks, context, the
fields, and then those of the emission. -/
def laidOut (s : Session) (l : Logger) (a : List Field) (e : Emission) : List Char :=
  Record.close ('{' :: (s.shown l e).blocks l.config ++ l.context ++
    Field.renderAll s.fallbackFormat a ++ Field.renderAll s.fallbackFormat e.leading ++
    Field.renderAll s.fallbackFormat e.fields) ++ l.config.lineSeparator.toList

theorem record_withFields_eq (s : Session) (l : Logger) (a : List Field) (e : Emission) :
    s.record (l.withFields s.fallbackFormat a) e = s.laidOut l a e := by
  simp only [record, laidOut, Record.assemble, Record.body, Logger.withFields,
    Field.renderAll_append, List.append_assoc, List.cons_append]
  rfl

/-- The same text, read: the members of the blocks, of the context, of the fields, and of those of the
emission. -/
theorem exists_members_laidOut (s : Session) {l : Logger} {context : List (List Char)}
    {wanted : List Record.Wanted} (hcontext : l.context = context.flatMap (· ++ [',']))
    (hcarries : Record.Carries context wanted) {a : List Field} {e : Emission}
    (ha : ∀ f ∈ a, f.Typed) (he : ∀ f ∈ e.leading ++ e.fields, f.Typed) :
    ∃ body members, s.laidOut l a e = body ++ l.config.lineSeparator.toList ∧
      parse body = .ok (.object members) ∧
      Record.AllFound members ((s.shown l e).wantedBlocks l.config ++ wanted ++
        a.map (Record.Wanted.ofField s.fallbackFormat) ++
        (e.leading ++ e.fields).map (Record.Wanted.ofField s.fallbackFormat)) := by
  have hall := hcarries.append (Record.carries_fields s.fallbackFormat fun f hf => (ha f hf).sound)
  obtain ⟨members, hcompact, hfound⟩ := (s.shown l e).exists_compact_body l.config s.fallbackFormat
    hall fun f hf => (he f hf).sound
  have hpairs : (context ++ a.map (Field.render s.fallbackFormat)).flatMap (· ++ [',']) =
      (l.withFields s.fallbackFormat a).context := by
    rw [List.flatMap_append, ← hcontext, ← Record.renderAll_eq]
    rfl
  rw [hpairs] at hcompact
  refine ⟨_, members, (s.record_withFields_eq l a e).symm, hcompact.parse, ?_⟩
  simpa only [List.append_assoc] using hfound

/-! ### Calls -/

/-- A call returns, and the last thing that it attempts is to write the record to the sink. -/
def Writes (s : Session) (d : Logger) (site : CallSite) (sink : SinkId) (record : List Char)
    (result : Session × Outcome Unit) : Prop :=
  ∃ s' diagnostics attempt, result = (s', .ok ()) ∧ Performs s (diagnostics ++ attempt) s' ∧
    Attempt s d site sink record attempt

theorem writes_emit (hd : s.logger? s.defaultLogger = some d) {l : Logger} {e : Emission}
    (haccepts : l.accepts e.severity = true) :
    Writes s d e.site l.sink (s.record l e) (s.emit l e, .ok ()) := by
  obtain ⟨diagnostics, attempt, hperforms, -, hattempt⟩ := performs_emit hd haccepts
  exact ⟨_, diagnostics, attempt, rfl, hperforms, hattempt⟩

section Call

variable (hG : s.logger? id = some G) {verb : Verb} (hverb : verb.ending = .returns)

include hG hverb

theorem logMessage_eq_emit (site : CallSite) (message : String) (fields : List Field) :
    s.logMessage id site verb message fields =
      (s.emit G { site, severity := verb.severity, message, fields }, .ok ()) := by
  simp [logMessage, log, hG, finish, hverb]

theorem logMessage_of_suppressed (hquiet : G.accepts verb.severity = false) (site : CallSite)
    (message : String) (fields : List Field) :
    s.logMessage id site verb message fields = (s, .ok ()) :=
  perform_of_suppressed (s := s) (c := ⟨s.now, id, site, verb, .message message fields⟩)
    ((accepts_of_logger? hG _).trans hquiet) hverb

theorem logError_of_suppressed (hquiet : G.accepts verb.severity = false) (site : CallSite)
    (err : Option Fault) (fields : List Field) :
    s.logError id site verb err fields = (s, .ok ()) :=
  perform_of_suppressed (s := s) (c := ⟨s.now, id, site, verb, .error err fields⟩)
    ((accepts_of_logger? hG _).trans hquiet) hverb

theorem logError_eq_emit (haccepts : G.accepts verb.severity = true) {err : Option Fault}
    {text : String} (htext : errorMessage err = .ok text) (site : CallSite) (fields : List Field) :
    s.logError id site verb err fields =
      (s.emit G { site, severity := verb.severity, message := text, leading := errorFields err,
                  fields := fields }, .ok ()) := by
  simp [logError, accepts, log, hG, haccepts, htext, finish, hverb]

end Call

/-- Deriving with fields adds one logger, which has them in its context, and changes nothing that a
later record depends on. -/
theorem deriveWith_spec (hG : s.logger? id = some G) (stack : List StackSymbol) (a : List Field) :
    ∃ s₁, s.deriveWith id stack a = (s₁, some s.loggers.length) ∧
      s₁.loggers = s.loggers ++ [G.withFields s.fallbackFormat a] ∧
      s₁.defaultLogger = s.defaultLogger ∧ s₁.timeFormat = s.timeFormat := by
  have halike := alike_reportMarshalFailures s stack (Field.marshalFailures a)
  have hformat : (s.reportMarshalFailures stack (Field.marshalFailures a)).fallbackFormat =
      s.fallbackFormat := by
    rw [fallbackFormat, halike.timeFormat]
    rfl
  refine ⟨((s.reportMarshalFailures stack (Field.marshalFailures a)).addLogger
    (G.withFields s.fallbackFormat a)).1, ?_, ?_, halike.defaultLogger, halike.timeFormat⟩
  · rw [deriveWith, hG]
    simp only [hformat, addLogger, halike.loggers]
  · show (s.reportMarshalFailures stack (Field.marshalFailures a)).loggers ++ [_] = _
    rw [halike.loggers]

/-! ### Given in advance -/

/-- The emission of an error that shows as `text`. -/
def errorEmission (site : CallSite) (verb : Verb) (err : Option Fault) (text : String)
    (fields : List Field) : Emission :=
  { site, severity := verb.severity, message := text, leading := errorFields err, fields := fields }

/-- At the state `t`, calls of the logger `k` with the fields `b` write what calls of the logger `id`
write with the fields `a` and `b`. With an error, `a` stands before the fields that the error is
attached as. `G` is the logger `id`, and `d` the default logger. -/
structure GivenAhead (t : Session) (d G : Logger) (id k : LoggerId) (a : List Field) (site : CallSite)
    (verb : Verb) (b : List Field) : Prop where
  suppressed : G.accepts verb.severity = false → ∀ message err,
    t.logMessage k site verb message b = (t, .ok ()) ∧
    t.logMessage id site verb message (a ++ b) = (t, .ok ()) ∧
    t.logError k site verb err b = (t, .ok ())
  message : G.accepts verb.severity = true → ∀ message, ∃ record,
    Writes t d site G.sink record (t.logMessage k site verb message b) ∧
    Writes t d site G.sink record (t.logMessage id site verb message (a ++ b))
  error : G.accepts verb.severity = true → ∀ err text, errorMessage err = .ok text →
    Writes t d site G.sink (t.laidOut G a (errorEmission site verb err text b))
      (t.logError k site verb err b)
  members : ∀ context wanted, G.context = context.flatMap (· ++ [',']) →
    Record.Carries context wanted → (∀ f ∈ a, f.Typed) → (∀ f ∈ b, f.Typed) → ∀ err text,
    ∃ body members,
      t.laidOut G a (errorEmission site verb err text b) = body ++ G.config.lineSeparator.toList ∧
      parse body = .ok (.object members) ∧
      Record.AllFound members
        ((t.shown G (errorEmission site verb err text b)).wantedBlocks G.config ++ wanted ++
          a.map (Record.Wanted.ofField t.fallbackFormat) ++
          (errorFields err ++ b).map (Record.Wanted.ofField t.fallbackFormat))

theorem givenAhead {t : Session} {k : LoggerId} {a : List Field} (hid : t.logger? id = some G)
    (hk : t.logger? k = some (G.withFields t.fallbackFormat a))
    (hd : t.logger? t.defaultLogger = some d) {verb : Verb} (hverb : verb.ending = .returns)
    (site : CallSite) (b : List Field) : GivenAhead t d G id k a site verb b := by
  constructor
  · intro h message err
    exact ⟨logMessage_of_suppressed hk hverb h site message b,
      logMessage_of_suppressed hid hverb h site message (a ++ b),
      logError_of_suppressed hk hverb h site err b⟩
  · intro h message
    have hrecord := record_withFields t G a
      (e := { site, severity := verb.severity, message, fields := b }) rfl
    refine ⟨t.record G { site, severity := verb.severity, message, fields := a ++ b }, ?_, ?_⟩
    · rw [logMessage_eq_emit hk hverb, ← hrecord]
      exact writes_emit (l := G.withFields t.fallbackFormat a) hd h
    · rw [logMessage_eq_emit hid hverb]
      exact writes_emit hd h
  · intro h err text htext
    rw [logError_eq_emit hk hverb h htext, ← record_withFields_eq]
    exact writes_emit (l := G.withFields t.fallbackFormat a) hd h
  · intro context wanted hcontext hcarries ha hb err text
    refine exists_members_laidOut t hcontext hcarries ha ?_
    intro f hf
    rcases List.mem_append.1 hf with hf | hf
    · exact typed_leading (.error err []) f hf
    · exact hb f hf

/-- **Context fields are fields that are given in advance.** Take any logger that can be obtained.
Adding `a` to its context and then `b` is adding both. Whatever is called after `a` was added, a
message with the fields `b` is then recorded as one with the fields `a` and `b` through the logger
itself, and an error with the members of the blocks, of the logger's own context, of `a`, of the
error, and of `b`. Derivations of different kinds commute, and so do two changes of the skip; to skip
more frames is an option, and two rounds of options that pass are one. -/
theorem context_as_fields (hG : s.logger? id = some G) (hobtained : G.Obtained)
    (hd : s.logger? s.defaultLogger = some d) (stack : List StackSymbol) (a : List Field) :
    (∀ b, (G.withFields s.fallbackFormat a).withFields s.fallbackFormat b =
      G.withFields s.fallbackFormat (a ++ b)) ∧
    (∃ s₁ k, s.deriveWith id stack a = (s₁, some k) ∧
      ∀ (calls : List Call) (now : Time.Instant) (site : CallSite) (verb : Verb) (b : List Field),
        verb.ending = .returns → GivenAhead ((s₁.run calls).atTime now) d G id k a site verb b) ∧
    (∀ x y : Derivation, x.kind ≠ y.kind ∨ x.kind = .skip →
      Derivation.Commute s.hostname s.fallbackFormat x y) ∧
    (∀ n, G.renew s.hostname [.callerSkip n] = .ok (G.addCallerSkip n)) ∧
    (∀ o₁ o₂ G₁ G₂, G.renew s.hostname o₁ = .ok G₁ → G₁.renew s.hostname o₂ = .ok G₂ →
      G.renew s.hostname (o₁ ++ o₂) = .ok G₂) := by
  obtain ⟨s₁, hderive, hloggers, hdefault, hformat⟩ := deriveWith_spec hG stack a
  refine ⟨fun b => G.withFields_withFields s.fallbackFormat a b, ⟨s₁, _, hderive, ?_⟩,
    fun x y h => Derivation.commute h, fun n => Logger.renew_callerSkip hobtained.validate _ n,
    fun o₁ o₂ G₁ G₂ h₁ h₂ => Logger.renew_append h₁ h₂⟩
  intro calls now site verb b hverb
  obtain ⟨hrunLoggers, hrunDefault, hrunFormat⟩ := setting_run s₁ calls
  have hlater : ∀ j, ((s₁.run calls).atTime now).logger? j =
      (s.loggers ++ [G.withFields s.fallbackFormat a])[j]? := by
    intro j
    show (s₁.run calls).loggers[j]? = _
    rw [hrunLoggers, hloggers]
  have hfallback : ((s₁.run calls).atTime now).fallbackFormat = s.fallbackFormat := by
    show (s₁.run calls).timeFormat.getD .rfc3339Nano = _
    rw [hrunFormat, hformat]
    rfl
  -- The loggers that there were before are where they were.
  have hkept : ∀ {j l}, s.logger? j = some l →
      ((s₁.run calls).atTime now).logger? j = some l := by
    intro j l hj
    obtain ⟨hlt, -⟩ := List.getElem?_eq_some_iff.1 hj
    rw [hlater, List.getElem?_append_left hlt]
    exact hj
  refine givenAhead (hkept hG) ?_ ?_ hverb site b
  · rw [hlater, hfallback]
    exact List.getElem?_concat_length
  · show ((s₁.run calls).atTime now).logger? (s₁.run calls).defaultLogger = some d
    rw [hrunDefault, hdefault]
    exact hkept hd

/-- A configuration without blocks. -/
def blockless : Config where
  timestamp := ⟨false, "timestamp"⟩
  severity := ⟨false, "severity"⟩
  caller := ⟨false, "caller"⟩
  message := ⟨false, "message"⟩

/-- A logger with a context of its own, which records nothing else. -/
def carrier : Logger :=
  Logger.withFields .rfc3339Nano [.bool "c" true] { config := blockless, sink := 0 }

/-- The only logger is one with a context of its own. -/
def carrying : Session where
  hostname := .ok "host"
  sinks := [.memory []]
  loggers := [carrier]

theorem context_as_fields_carrying :
    ∃ s₁ k record, carrying.deriveWith 0 [] [.bool "a" true] = (s₁, some k) ∧
      Writes (s₁.atTime .epoch) carrier default 0 record
        ((s₁.atTime .epoch).logMessage k default (.named .info) "m" [.bool "b" false]) ∧
      Writes (s₁.atTime .epoch) carrier default 0 record
        ((s₁.atTime .epoch).logMessage 0 default (.named .info) "m"
          [.bool "a" true, .bool "b" false]) := by
  have hobtained : carrier.Obtained :=
    .derived (.made (.ok "host") (.config 0 blockless) rfl) (.ok "host") .rfc3339Nano
      (.fields [.bool "c" true]) rfl
  have hG : carrying.logger? 0 = some carrier := rfl
  obtain ⟨-, ⟨s₁, k, hderive, hahead⟩, -⟩ :=
    context_as_fields hG hobtained (d := carrier) rfl [] [.bool "a" true]
  obtain ⟨record, hderived, hplain⟩ :=
    (hahead [] .epoch default (.named .info) [.bool "b" false] rfl).message (by decide) "m"
  exact ⟨s₁, k, record, hderive, hderived, hplain⟩

/-- The state once `a` was added to the context of the carrier. -/
def added : Session :=
  (carrying.deriveWith 0 [] [.bool "a" true]).1

/-- What a logger carries stands before what is added to it, so its record of an error is not made of
blocks, added fields, error and fields alone. An error whose text cannot be taken is not recorded. -/
theorem carried_before_added :
    (∃ record,
      (added.logError 1 default (.named .error) (some (.ofMessage "boom")) [.bool "b" true]).1.journal =
        [.offered 0 record none] ∧
      record ≠ added.laidOut { carrier with context := [] } [.bool "a" true]
        (errorEmission default (.named .error) (some (.ofMessage "boom")) "boom" [.bool "b" true])) ∧
    (added.logError 1 default (.named .error) (some ⟨⟨["boom"], true⟩, []⟩) [.bool "b" true]).2 =
      .error .display ∧
    (added.logError 1 default (.named .error) (some ⟨⟨["boom"], true⟩, []⟩)
      [.bool "b" true]).1.journal = [] := by
  refine ⟨⟨_, rfl, ?_⟩, rfl, rfl⟩
  decide

end LineLog.Session
