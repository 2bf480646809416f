import LineLog.Proofs.Session.Context
/-!
# LineLog.Proofs.Session.FailingValues

Values that write some text and then fail.

In a field such a value does no harm: what it has written by then stands in the record, as any text
does (`retains`). That holds for values in every kind of field that shows one, for errors in a list,
and at every place in the chain of an error's causes.

A message is another matter. It is taken as a whole before the record is put together, and taking it
panics if the value fails. So a call whose logger takes its level returns exactly if its message can be
shown (`perform_of_heard`), and otherwise has written nothing and not reached the exit function. With
an error this concerns its own message only; its causes are in fields.
-/

namespace LineLog

open Text Json

/-! ### Values that are shown in fields -/

/-- The values whose text a field shows. -/
def FieldValue.shown : FieldValue → List Shown
  | stringer (some shown) | formatter (some shown) | interface (some shown) => [shown]
  | error (some fault) => [fault.message]
  | errors (some faults) => faults.map Fault.message
  | errorStacktrace (some (.verbose shown)) => [shown]
  | errorStacktrace (some (.chain fault)) => fault.message :: fault.causes
  | _ => []

/-- The text is part of a string, or of a string in an array. -/
def Json.Tree.Mentions (cs : List Char) : Tree → Prop
  | .string text => cs <:+: text
  | .array items => ∃ text, .string text ∈ items ∧ cs <:+: text
  | _ => False

theorem Json.Tree.IsText.mentions {cs text : List Char} {t : Tree} (ht : t.IsText text)
    (h : cs <:+: text) : t.Mentions cs := by
  rw [IsText] at ht
  subst ht
  exact h

theorem Json.Tree.AreTexts.mentions {cs : List Char} {texts : List (List Char)} {t : Tree}
    (ht : t.AreTexts texts) (h : cs ∈ texts) : t.Mentions cs := by
  rw [AreTexts] at ht
  subst ht
  exact ⟨cs, List.mem_map_of_mem h, List.infix_refl cs⟩

/-- Every message of a chain is part of its text. -/
theorem Fault.infix_traceText {f : Fault} {shown : Shown} (h : shown ∈ f.message :: f.causes) :
    shown.text <:+: f.traceText := by
  rw [traceText]
  rcases List.mem_cons.1 h with rfl | hcause
  · exact (List.prefix_append _ _).isInfix
  · have hown : causedBy ++ shown.text <:+: f.causes.flatMap fun cause => causedBy ++ cause.text :=
      List.infix_of_mem_flatten (List.mem_map_of_mem hcause)
    have htext : shown.text <:+: causedBy ++ shown.text := (List.suffix_append _ _).isInfix
    exact (htext.trans hown).trans (List.suffix_append _ _).isInfix

namespace FieldValue

/-- A value that shows another one is one that JSON can express. -/
theorem sound_of_mem_shown {v : FieldValue} {shown : Shown} (h : shown ∈ v.shown) : v.Sound := by
  cases v with
  | float | floatOpt | object => simp [FieldValue.shown] at h
  | _ => trivial

/-- What a value has written, failing or not, is part of what a reader finds for its field. -/
theorem Denotes.mentions {v : FieldValue} {fallback : Time.Format} {t : Tree}
    (ht : v.Denotes fallback t) {shown : Shown} (h : shown ∈ v.shown) : t.Mentions shown.text := by
  cases v with
  | stringer value | formatter value | interface value =>
      cases value with
      | none => simp [FieldValue.shown] at h
      | some value =>
          obtain rfl := List.mem_singleton.1 h
          exact Tree.IsText.mentions ht (List.infix_refl _)
  | error fault =>
      cases fault with
      | none => simp [FieldValue.shown] at h
      | some fault =>
          obtain rfl := List.mem_singleton.1 h
          exact Tree.IsText.mentions ht (List.infix_refl _)
  | errors faults =>
      cases faults with
      | none => simp [FieldValue.shown] at h
      | some faults =>
          obtain ⟨fault, hfault, rfl⟩ := List.mem_map.1 h
          exact Tree.AreTexts.mentions ht (List.mem_map_of_mem hfault)
  | errorStacktrace trace =>
      cases trace with
      | none => simp [FieldValue.shown] at h
      | some trace =>
          cases trace with
          | verbose value =>
              obtain rfl := List.mem_singleton.1 h
              exact Tree.IsText.mentions ht (List.infix_refl _)
          | chain fault => exact Tree.IsText.mentions ht (Fault.infix_traceText h)
  | _ => simp [FieldValue.shown] at h

end FieldValue

/-! ### Their place in a record -/

namespace Record

/-- Closing a record takes away a comma at most. -/
theorem infix_close {pair before after : List Char} :
    pair <:+: close (before ++ (pair ++ [',']) ++ after) := by
  have hsplit : before ++ (pair ++ [',']) ++ after = before ++ pair ++ ',' :: after := by simp
  rw [hsplit, close]
  split
  · rw [List.dropLast_append_of_ne_nil (List.cons_ne_nil _ _)]
    exact ⟨before, (',' :: after).dropLast ++ ['}'], by simp⟩
  · exact ⟨before, ',' :: after ++ ['}'], by simp⟩

/-- A wanted member is among the members. -/
theorem AllFound.exists_mem {members : List (List Char × Tree)} {wanted : List Wanted}
    (h : AllFound members wanted) {w : Wanted} (hw : w ∈ wanted) : ∃ m ∈ members, w.Found m := by
  induction h with
  | nil => cases hw
  | @cons m w' members wanted hfound _ ih =>
      rcases List.mem_cons.1 hw with rfl | hw
      · exact ⟨m, List.mem_cons_self, hfound⟩
      · obtain ⟨m', hm', hfound'⟩ := ih hw
        exact ⟨m', List.mem_cons_of_mem _ hm', hfound'⟩

end Record

namespace Session

/-- Whatever values of an emission fail, the record holds what each has written, under the key of its
field. If the context and the other fields can be read, then so can the whole record, and the text is
found there. -/
structure Retains (s : Session) (l : Logger) (e : Emission) : Prop where
  written : ∀ f ∈ e.leading ++ e.fields, ∀ shown ∈ f.value.shown,
    f.render s.fallbackFormat <:+: s.record l e ∧
      Reads (f.value.render s.fallbackFormat) (Tree.Mentions shown.text)
  found : ∀ context wanted, l.context = context.flatMap (· ++ [',']) →
    Record.Carries context wanted → (∀ f ∈ e.leading ++ e.fields, f.value.Sound) →
    ∃ body members, s.record l e = body ++ l.config.lineSeparator.toList ∧
      parse body = .ok (.object members) ∧
      ∀ f ∈ e.leading ++ e.fields, ∀ shown ∈ f.value.shown,
        ∃ t, (f.key.toList, t) ∈ members ∧ t.Mentions shown.text

/-- **A value that fails in a field spoils nothing.** -/
theorem retains (s : Session) (l : Logger) (e : Emission) : Retains s l e where
  written f hf shown hshown := by
    constructor
    · obtain ⟨before, after, hfields⟩ := List.append_of_mem hf
      have hclosed : f.render s.fallbackFormat <:+:
          (s.shown l e).body l.config s.fallbackFormat l.context (e.leading ++ e.fields) := by
        rw [Record.body, hfields, Field.renderAll_append, ← List.append_assoc, Field.renderAll,
          Field.renderAll, List.flatMap_cons, ← List.append_assoc]
        exact Record.infix_close
      exact hclosed.trans (List.prefix_append _ _).isInfix
    · obtain ⟨t, hcompact, hdenotes⟩ :=
        FieldValue.reads_render s.fallbackFormat (FieldValue.sound_of_mem_shown hshown)
      exact ⟨t, hcompact, hdenotes.mentions hshown⟩
  found context wanted hcontext hcarries hsound := by
    obtain ⟨members, hcompact, hfound⟩ :=
      (s.shown l e).exists_compact_body l.config s.fallbackFormat hcarries hsound
    rw [← hcontext] at hcompact
    refine ⟨_, members, rfl, hcompact.parse, ?_⟩
    intro f hf shown hshown
    obtain ⟨⟨name, t⟩, hmember, hname, hdenotes⟩ :=
      hfound.exists_mem (List.mem_append_right _ (List.mem_map_of_mem hf))
    obtain rfl : name = f.key.toList := hname
    exact ⟨t, hmember, hdenotes.mentions hshown⟩

variable {s : Session} {c : Call} {l d : Logger}

/-- **What a failing value does to a call.** Take a call whose logger takes its level, and that is not
meant to panic. It returns exactly if nothing fails that its message is made of. Then it attempts one
record besides the complaints about objects, exits if it is meant to, and whatever failed in a field,
an error's cause included, is in the record as far as it was written. Otherwise the call panics with
no record written and the exit function not called. -/
theorem perform_of_heard (hl : s.logger? c.id = some l)
    (hd : s.logger? s.defaultLogger = some d) (haccepts : l.accepts c.verb.severity = true)
    (hverb : c.verb.ending ≠ .panics) :
    ((s.perform c).2 = .ok () ↔ c.request.Shows) ∧
    (c.request.Shows →
      Retains (s.atTime c.now) l c.emission ∧
      ∃ diagnostics attempt,
        (s.perform c).1.journal =
          s.journal ++ (diagnostics ++ attempt ++ s.endingEvents c.verb.ending) ∧
        Diagnostics (s.atTime c.now) d c.site.stack (Field.marshalFailures c.request.fields)
          diagnostics ∧
        Attempt (s.atTime c.now) d c.site l.sink ((s.atTime c.now).record l c.emission) attempt) ∧
    (¬ c.request.Shows → s.perform c = (s.atTime c.now, .error c.request.failure)) := by
  have hheard : s.accepts c.id c.verb.severity = true := (accepts_of_logger? hl _).trans haccepts
  refine ⟨⟨?_, fun hshows => perform_snd_of_shows s hshows hverb⟩, ?_,
    perform_of_not_shows hheard⟩
  · intro hreturns
    by_contra hfails
    rw [perform_of_not_shows hheard hfails] at hreturns
    cases hreturns
  · intro hshows
    exact ⟨retains _ l c.emission, trace_perform hl hd haccepts hshows⟩

/-- A logger that writes no blocks. -/
def plainLogger : Logger :=
  { config := blockless, sink := 0 }

/-- One such logger, which writes to memory. -/
def plain : Session where
  hostname := .ok "host"
  sinks := [.memory []]
  loggers := [plainLogger]

/-- An error that shows itself, with a cause that writes some text and fails. -/
def brokenCause : Fault :=
  ⟨.ofString "boom", [⟨["ha", "lf"], true⟩]⟩

/-- The error is fatal, and comes with a field that fails. -/
def brokenCauseCall : Call where
  now := .epoch
  id := 0
  site := default
  verb := .fatal ⟨600⟩
  request := .error (some brokenCause) [.stringer "user" (some ⟨["par", "tial"], true⟩)]

/-- Both texts are in the record, and the call exits and returns. -/
theorem perform_of_heard_brokenCause :
    (plain.perform brokenCauseCall).2 = .ok () ∧
      ∃ body members,
        (plain.atTime .epoch).record plainLogger brokenCauseCall.emission = body ++ ['\n'] ∧
        parse body = .ok (.object members) ∧
        (∃ t, ("user".toList, t) ∈ members ∧ t.Mentions "partial".toList) ∧
        (∃ t, ("errorStacktrace".toList, t) ∈ members ∧ t.Mentions "half".toList) := by
  have hshows : brokenCauseCall.request.Shows := rfl
  have hsound : ∀ f ∈ brokenCauseCall.emission.leading ++ brokenCauseCall.emission.fields,
      f.value.Sound := by
    simp [brokenCauseCall, Call.emission, Request.leading, Request.fields, errorFields,
      FieldValue.Sound, Field.error, Field.errorStacktrace, Field.stringer]
  obtain ⟨hreturns, hheard, -⟩ := perform_of_heard (s := plain) (c := brokenCauseCall)
    (l := plainLogger) rfl rfl (by decide) (by decide)
  obtain ⟨body, members, hrecord, hparse, hfound⟩ :=
    (hheard hshows).1.found [] [] rfl .nil hsound
  refine ⟨hreturns.2 hshows, body, members, hrecord, hparse, ?_, ?_⟩
  · exact hfound (.stringer "user" (some ⟨["par", "tial"], true⟩)) (.tail _ (.tail _ (.head _))) _
      (.head _)
  · exact hfound (.errorStacktrace (some brokenCause)) (.tail _ (.head _)) _ (.tail _ (.head _))

/-- A value that writes some text and fails. -/
def halfShown : Shown :=
  ⟨["half"], true⟩

/-- As an error or as a value to be formatted, a value that fails makes the call panic with nothing
written, and a fatal call does not exit. -/
theorem heard_not_returning :
    plain.perform ⟨.epoch, 0, default, .print ⟨600⟩, .error (some ⟨halfShown, []⟩) []⟩ =
        (plain, .error .display) ∧
      plain.perform ⟨.epoch, 0, default, .named .info, .formatted halfShown⟩ =
        (plain, .error .formatting) ∧
      plain.perform ⟨.epoch, 0, default, .fatal ⟨600⟩, .error (some ⟨halfShown, []⟩) []⟩ =
        (plain, .error .display) :=
  ⟨rfl, rfl, rfl⟩

end Session
end LineLog
