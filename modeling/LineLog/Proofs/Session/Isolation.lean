import LineLog.Proofs.Session.World
/-!
# LineLog.Proofs.Session.Isolation

Loggers do not disturb one another.

Since a run by reference is a run by value, a step can only matter for what a logger writes by
changing that logger, or one that it is derived from later. `Slice` reads a run from its end and
picks these steps; `World.records_slice` says that the others may as well not be there.

Design points:

* A slice is computed from the steps alone. It does not know which derivations fail, so it follows
  both what a name refers to before a derivation and what it would refer to after it.
* Calls of other loggers are never part of a slice, whatever they write and wherever it goes: the
  records that a call writes do not depend on what sinks hold.
-/

namespace LineLog

namespace Step

/-- The name that a step may give to a new logger. -/
def makes? : Step → Option LoggerName
  | create target _ | derive target _ _ _ _ => some target
  | register _ _ | call _ _ => none

/-- The name whose logger a step may put in place or change. -/
def touches? : Step → Option LoggerName
  | create target _ | derive target _ _ _ _ => some target
  | register name _ => some name
  | call _ _ => none

/-- The name of the logger that a step derives from. -/
def source? : Step → Option LoggerName
  | derive _ source _ _ _ => some source
  | _ => none

/-- The step is a call of the logger of this name. -/
def Calls (n : LoggerName) : Step → Prop
  | call name _ => name = n
  | _ => False

instance (n : LoggerName) : DecidablePred (Calls n) := fun st =>
  match st with
  | call name _ => inferInstanceAs (Decidable (name = n))
  | create _ _ | derive _ _ _ _ _ | register _ _ => .isFalse id

/-- The entry that a step registers with the logger of this name. -/
def entryFor? (n : LoggerName) : Step → Option SeverityEntry
  | register name entry => if name = n then some entry else none
  | _ => none

end Step

namespace Fleet

open Function (update)

variable {hostname : Except IoError String} {fallback : Time.Format} {f g : Fleet}

theorem keep_of_ne {target n : LoggerName} (hn : n ≠ target) (made : Except LogError Logger) :
    f.keep target made n = f n := by
  cases made with
  | error e => rfl
  | ok l => exact Function.update_of_ne hn ..

theorem keep_congr {target n : LoggerName} (h : f n = g n) (made : Except LogError Logger) :
    f.keep target made n = g.keep target made n := by
  cases made with
  | error e => exact h
  | ok l =>
      show update f target (some l) n = update g target (some l) n
      by_cases hn : n = target
      · subst hn
        rw [Function.update_self, Function.update_self]
      · rw [Function.update_of_ne hn, Function.update_of_ne hn, h]

/-- A step changes no logger but the one that it touches. -/
theorem step_of_untouched {st : Step} {n : LoggerName} (h : st.touches? ≠ some n) :
    f.step hostname fallback st n = f n := by
  have hne : ∀ target, st.touches? = some target → n ≠ target := by
    rintro target htarget rfl
    exact h htarget
  cases st with
  | create target origin => exact keep_of_ne (hne target rfl) _
  | derive target source now stack how =>
      rw [step]
      cases f source with
      | none => rfl
      | some l => exact keep_of_ne (hne target rfl) _
  | register name entry =>
      rw [step]
      cases f name with
      | none => rfl
      | some l => exact Function.update_of_ne (hne name rfl) ..
  | call name c => rfl

/-- What a step makes of a logger depends on that logger and on the one that it derives from. -/
theorem step_congr {st : Step} {n : LoggerName} (h : f n = g n)
    (hsource : ∀ source ∈ st.source?, f source = g source) :
    f.step hostname fallback st n = g.step hostname fallback st n := by
  cases st with
  | create target origin => exact keep_congr h _
  | derive target source now stack how =>
      have hsame : f source = g source := hsource source rfl
      rw [step, step, hsame]
      cases g source with
      | none => exact h
      | some l => exact keep_congr h _
  | register name entry =>
      by_cases hn : n = name
      · subst hn
        rw [step, step, h]
        cases hl : g n with
        | none => exact h
        | some l => simp
      · have htouch : (Step.register name entry).touches? ≠ some n := by
          rintro ⟨⟩
          exact hn rfl
        rw [step_of_untouched htouch, step_of_untouched htouch, h]
  | call name c => exact h

/-- A logger that keeps its name gains what is registered with it, and changes in nothing else. -/
theorem run_kept {n : LoggerName} {l : Logger} (hl : f n = some l) {steps : List Step}
    (h : ∀ st ∈ steps, st.makes? ≠ some n) :
    f.run hostname fallback steps n = some { l with
      severities := (steps.filterMap (Step.entryFor? n)).foldl Registry.registered l.severities } := by
  induction steps generalizing f l with
  | nil => exact hl
  | cons st steps ih =>
      have hsteps : ∀ st' ∈ steps, st'.makes? ≠ some n := by
        intro st' hst'
        exact h st' (List.mem_cons_of_mem _ hst')
      have hmakes : st.makes? ≠ some n := h st List.mem_cons_self
      show run hostname fallback (f.step hostname fallback st) steps n = _
      by_cases htouch : st.touches? = some n
      · cases st with
        | create | derive => exact absurd htouch hmakes
        | call => cases htouch
        | register name entry =>
            obtain rfl : name = n := Option.some.inj htouch
            have hstep : f.step hostname fallback (.register name entry) name =
                some { l with severities := l.severities.registered entry } := by
              rw [step, hl]
              exact Function.update_self ..
            have hentry : Step.entryFor? name (.register name entry) = some entry := if_pos rfl
            rw [ih hstep hsteps, List.filterMap_cons_some hentry]
            rfl
      · have hentry : st.entryFor? n = none := by
          cases st with
          | create | derive | call => rfl
          | register name entry =>
              exact if_neg fun hname => htouch (congrArg some hname)
        have hstep : f.step hostname fallback st n = some l := (step_of_untouched htouch).trans hl
        rw [ih hstep hsteps, List.filterMap_cons_none hentry]

end Fleet

/-! ### Slices -/

/-- What matters in a run for what one logger writes: the names whose loggers do so at the start, and
the steps. -/
structure Slice where
  names : List LoggerName
  steps : List Step

namespace Slice

/-- The step matters for the logger `n`, if later on these names do. -/
def Concerns (n : LoggerName) (names : List LoggerName) (st : Step) : Prop :=
  st.Calls n ∨ ∃ m ∈ st.touches?, m ∈ names

instance (n : LoggerName) (names : List LoggerName) : DecidablePred (Concerns n names) := fun _ =>
  inferInstanceAs (Decidable (_ ∨ _))

/-- What matters with one more step before. -/
def extend (n : LoggerName) (st : Step) (later : Slice) : Slice :=
  if Concerns n later.names st then ⟨st.source?.toList ++ later.names, st :: later.steps⟩
  else later

/-- What matters for the logger `n`. -/
def of (n : LoggerName) (steps : List Step) : Slice :=
  steps.foldr (extend n) ⟨[n], []⟩

theorem mem_names (n : LoggerName) (steps : List Step) : n ∈ (of n steps).names := by
  induction steps with
  | nil => exact List.mem_singleton_self n
  | cons st steps ih =>
      show n ∈ (extend n st (of n steps)).names
      rw [extend]
      split
      · exact List.mem_append_right _ ih
      · exact ih

/-- While a logger keeps its name, it is the only one that matters for it. -/
theorem names_of_kept {n : LoggerName} {steps : List Step}
    (h : ∀ st ∈ steps, st.makes? ≠ some n) : (of n steps).names = [n] := by
  induction steps with
  | nil => rfl
  | cons st steps ih =>
      have hnames := ih fun st' hst' => h st' (List.mem_cons_of_mem _ hst')
      have hmakes : st.makes? ≠ some n := h st List.mem_cons_self
      show (extend n st (of n steps)).names = [n]
      rw [extend, hnames]
      split
      · rename_i hconcerns
        -- Only a step that makes the logger has a source.
        cases st with
        | create | register | call => rfl
        | derive target source now stack how =>
            rcases hconcerns with hcalls | ⟨m, htouch, hm⟩
            · exact absurd hcalls id
            · obtain rfl := List.mem_singleton.1 hm
              exact absurd htouch hmakes
      · exact hnames

theorem of_append (n : LoggerName) (a b : List Step) :
    of n (a ++ b) = a.foldr (extend n) (of n b) :=
  List.foldr_append ..

/-- Steps that do not matter can be put in anywhere. -/
theorem of_insert {n : LoggerName} {others post : List Step}
    (h : ∀ st ∈ others, ¬ Concerns n (of n post).names st) (pre : List Step) :
    of n (pre ++ others ++ post) = of n (pre ++ post) := by
  have hothers : of n (others ++ post) = of n post := by
    induction others with
    | nil => rfl
    | cons st others ih =>
        have hrest := ih fun st' hst' => h st' (List.mem_cons_of_mem _ hst')
        show extend n st (of n (others ++ post)) = of n post
        rw [hrest, extend, if_neg (h st List.mem_cons_self)]
  rw [List.append_assoc, of_append n pre, of_append n pre, hothers]

end Slice

namespace World

/-- What the calls of the logger `n` write in a run, call by call. -/
def records (n : LoggerName) : World → List Step → List (Option (SinkId × List Char))
  | _, [] => []
  | w, st :: steps => (if st.Calls n then [w.record? st] else []) ++ records n (w.step st) steps

variable {w : World}

/-- What a logger writes is told from its slice, in any world in which the loggers of the slice are
the same. -/
theorem records_slice {w' : World} (hw : w.Sound) (hw' : w'.Sound)
    (hsetting : SameSetting w.session w'.session) {n : LoggerName} {steps : List Step}
    (h : ∀ m ∈ (Slice.of n steps).names, w'.logger? m = w.logger? m) :
    w.records n steps = w'.records n (Slice.of n steps).steps := by
  induction steps generalizing w w' with
  | nil => rfl
  | cons st steps ih =>
      have hof : Slice.of n (st :: steps) = Slice.extend n st (Slice.of n steps) := rfl
      rw [hof, Slice.extend] at h ⊢
      obtain ⟨hstep, hkeeps⟩ := hw.step st
      obtain ⟨hstep', hkeeps'⟩ := hw'.step st
      split at h
      · rename_i hconcerns
        rw [if_pos hconcerns]
        have hnames : ∀ m ∈ (Slice.of n steps).names, w'.logger? m = w.logger? m := by
          intro m hm
          exact h m (List.mem_append_right _ hm)
        have hsource : ∀ m ∈ st.source?, w'.logger? m = w.logger? m := by
          intro m hm
          exact h m (List.mem_append_left _ (by simpa using hm))
        have hrecord : st.Calls n → w'.record? st = w.record? st := by
          intro hcalls
          cases st with
          | create | derive | register => exact absurd hcalls id
          | call name c =>
              obtain rfl : name = n := hcalls
              rw [record?, record?, hnames _ (Slice.mem_names name steps), hsetting.fallbackFormat]
        have hlater : ∀ m ∈ (Slice.of n steps).names,
            (w'.step st).logger? m = (w.step st).logger? m := by
          intro m hm
          rw [logger?_step hw, logger?_step hw', hsetting.hostname, hsetting.fallbackFormat]
          exact Fleet.step_congr (hnames m hm) hsource
        have hrest := ih hstep hstep' (hkeeps.symm.trans (hsetting.trans hkeeps')) hlater
        rw [records, records, hrest]
        split
        · rename_i hcalls
          rw [hrecord hcalls]
        · rfl
      · rename_i hconcerns
        rw [if_neg hconcerns]
        have hcalls : ¬ st.Calls n := fun hcalls => hconcerns (.inl hcalls)
        rw [records, if_neg hcalls, List.nil_append]
        refine ih hstep hw' (hkeeps.symm.trans hsetting) ?_
        intro m hm
        have huntouched : st.touches? ≠ some m := by
          intro htouch
          exact hconcerns (.inr ⟨m, htouch, hm⟩)
        rw [logger?_step hw, Fleet.step_of_untouched huntouched]
        exact h m hm

/-- A derivation makes what it says of its source as that is at the moment, and nothing if it fails. -/
theorem logger?_derive (hw : w.Sound) {source : LoggerName} {l : Logger}
    (hl : w.logger? source = some l) (target : LoggerName) (now : Time.Instant)
    (stack : List StackSymbol) (how : Derivation) :
    (w.step (.derive target source now stack how)).logger? =
      Fleet.keep w.logger? target
        (how.apply w.session.hostname w.session.fallbackFormat l) := by
  rw [logger?_step hw, Fleet.step, hl]

/-- **Loggers are isolated from one another.** Whatever steps a program takes, a logger keeps its
configuration, context and sink, and its names of levels change only by what is registered with it
and can be. A derived logger starts with the names that its source has at that moment, and a
derivation that fails changes nothing. What the calls of a logger write is told from its slice
alone, so steps outside the slice can be put in or left out: once the logger has its name, whatever
is done with others. What is called the record of a call is what it offers to the logger's sink. -/
theorem isolated (hw : w.Sound) :
    (∀ steps n l, w.logger? n = some l → (∀ st ∈ steps, st.makes? ≠ some n) →
      (w.run steps).logger? n = some { l with
        severities := (steps.filterMap (Step.entryFor? n)).foldl Registry.registered
          l.severities }) ∧
    (∀ target source now stack how l, w.logger? source = some l →
      (∃ l', how.apply w.session.hostname w.session.fallbackFormat l = .ok l' ∧
        l'.severities = l.severities ∧
        (w.step (.derive target source now stack how)).logger? =
          Function.update w.logger? target (some l')) ∨
      (∃ e, how.apply w.session.hostname w.session.fallbackFormat l = .error e ∧
        (w.step (.derive target source now stack how)).logger? = w.logger?)) ∧
    (∀ n steps steps', (Slice.of n steps).steps = (Slice.of n steps').steps →
      w.records n steps = w.records n steps') ∧
    (∀ n pre others post, (∀ st ∈ others, ¬ Slice.Concerns n (Slice.of n post).names st) →
      w.records n (pre ++ others ++ post) = w.records n (pre ++ post)) ∧
    (∀ n pre others post, (∀ st ∈ post, st.makes? ≠ some n) →
      (∀ st ∈ others, ¬ st.Calls n ∧ st.touches? ≠ some n) →
      w.records n (pre ++ others ++ post) = w.records n (pre ++ post)) ∧
    (∀ steps st, ∃ d diagnostics attempt exits,
      (w.run steps).session.logger? (w.run steps).session.defaultLogger = some d ∧
      (w.run steps).Tells d st diagnostics attempt exits ∧
      (w.run (steps ++ [st])).session.journal =
        (w.run steps).session.journal ++ (diagnostics ++ attempt ++ exits)) := by
  have hslice : ∀ n steps, w.records n steps = w.records n (Slice.of n steps).steps := by
    intro n steps
    exact records_slice hw hw (.refl _) fun m _ => rfl
  have hinsert : ∀ n pre others post,
      (∀ st ∈ others, ¬ Slice.Concerns n (Slice.of n post).names st) →
      w.records n (pre ++ others ++ post) = w.records n (pre ++ post) := by
    intro n pre others post hothers
    rw [hslice n (pre ++ others ++ post), hslice n (pre ++ post), Slice.of_insert hothers]
  refine ⟨?_, ?_, ?_, hinsert, ?_, ?_⟩
  · intro steps n l hl hkeeps
    rw [logger?_run hw]
    exact Fleet.run_kept hl hkeeps
  · intro target source now stack how l hl
    rw [logger?_derive hw hl]
    cases hmade : how.apply w.session.hostname w.session.fallbackFormat l with
    | error e => exact .inr ⟨e, rfl, rfl⟩
    | ok l' => exact .inl ⟨l', rfl, Derivation.severities_apply hmade, rfl⟩
  · intro n steps steps' hsame
    rw [hslice n steps, hslice n steps', hsame]
  · intro n pre others post hpost hothers
    apply hinsert
    intro st hst hconcerns
    obtain ⟨hcalls, htouches⟩ := hothers st hst
    rw [Slice.names_of_kept hpost] at hconcerns
    rcases hconcerns with h | ⟨m, htouch, hm⟩
    · exact hcalls h
    · obtain rfl := List.mem_singleton.1 hm
      exact htouches htouch
  · intro steps st
    obtain ⟨hrun, -⟩ := hw.run steps
    obtain ⟨d, hd⟩ := hrun.exists_default
    obtain ⟨diagnostics, attempt, exits, htells, hjournal⟩ := exists_tells hrun hd st
    refine ⟨d, diagnostics, attempt, exits, hd, htells, ?_⟩
    rw [run_append]
    exact hjournal

/-- What goes on around a child: its parent learns the name of a level and has another child, which
cannot learn a name that is taken. -/
def commotion : List Step :=
  [.register "parent" Registry.between, .derive "sibling" "parent" .epoch [] (.skip 1),
    .register "sibling" ⟨⟨7⟩, "debug", "X"⟩, .derive "sibling" "parent" .epoch [] (.options [.messageKey ""]),
    .call "parent" ⟨.epoch, 0, default, .named .error, .message "m" []⟩]

theorem isolated_family :
    (∃ l, (family.run (.derive "child" "parent" .epoch [] .copy :: commotion)).logger? "child" =
      some l ∧ l.severityName ⟨250⟩ = "250") ∧
    family.records "child" ([.derive "child" "parent" .epoch [] .copy] ++ commotion ++
        [.call "child" ⟨.epoch, 0, default, .print ⟨250⟩, .message "m" []⟩]) =
      family.records "child" ([.derive "child" "parent" .epoch [] .copy] ++
        [.call "child" ⟨.epoch, 0, default, .print ⟨250⟩, .message "m" []⟩]) := by
  obtain ⟨-, -, -, -, hinsert, -⟩ := isolated sound_family
  have hborn : (family.step (.derive "child" "parent" .epoch [] .copy)).Sound :=
    (sound_family.step _).1
  obtain ⟨hkept, -⟩ := isolated hborn
  have hchild := hkept commotion "child" { config := {}, sink := 0 } rfl (by decide)
  refine ⟨⟨_, hchild, by decide⟩, hinsert "child" _ _ _ (by decide) ?_⟩
  decide

end World
end LineLog
