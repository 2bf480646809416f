import LineLog.Proofs.Session.Action
/-!
# LineLog.Proofs.Session.Settings

Settings of the process that are replaced and restored.

Replacing a setting answers what it was, and that is what restoring it installs. A `Setup` keeps
account, beside the session, of the replacements that were made and of those that are pending, that is
not restored. `Chain` is the invariant of each setting: what is in force is what the last pending
replacement installed, and what each of them replaced is what the one before it installed.

Design points:

* The three settings are read, replaced and restored in the same way, so a session is looked at as a
  function on settings (`Session.setting`) that each operation updates at one place. That is why
  settings do not disturb each other, however their replacements are interleaved.
* A default format of times that was never set cannot be restored as such. The format that stood for it
  is set instead, and reads the same (`Session.setting_restore`).
-/

namespace LineLog

open Function (update)

/-- What holds for the whole process and can be replaced. -/
inductive Setting
  | defaultLogger
  | exitHandler
  | timeFormat
  deriving Repr, DecidableEq

/-- What a setting is set to. -/
def Setting.Value : Setting → Type
  | defaultLogger => LoggerId
  | exitHandler => ExitHandler
  | timeFormat => Time.Format

namespace Session

/-! ### Settings of a session -/

/-- What is in force. -/
def setting (s : Session) : (k : Setting) → k.Value
  | .defaultLogger => s.defaultLogger
  | .exitHandler => s.exitHandler
  | .timeFormat => s.fallbackFormat

/-- Replace a setting; answers what it was. -/
def replace (s : Session) : (k : Setting) → k.Value → Session × k.Value
  | .defaultLogger, id => s.replaceDefault id
  | .exitHandler, handler => s.replaceExit handler
  | .timeFormat, format => s.setTimeFormat format

/-- Restore what replacing a setting answered. A format is restored by setting it. -/
def restore (s : Session) : (k : Setting) → k.Value → Session
  | .defaultLogger, previous => s.restoreDefault previous
  | .exitHandler, previous => s.restoreExit previous
  | .timeFormat, previous => (s.setTimeFormat previous).1

theorem replace_snd (s : Session) (k : Setting) (value : k.Value) :
    (s.replace k value).2 = s.setting k := by
  cases k <;> rfl

theorem setting_replace (s : Session) (k : Setting) (value : k.Value) :
    (s.replace k value).1.setting = update s.setting k value := by
  funext k'
  cases k <;> cases k' <;> rfl

theorem setting_restore (s : Session) (k : Setting) (previous : k.Value) :
    (s.restore k previous).setting = update s.setting k previous := by
  funext k'
  cases k <;> cases k' <;> rfl

/-- Nothing but replacing and restoring changes any. -/
theorem setting_act (s : Session) {a : Action} (h : a.KeepsSettings) :
    (s.act a).1.setting = s.setting := by
  obtain ⟨hdefault, hexit, hformat⟩ := (s.effect_act a).settings h
  funext k
  cases k with
  | defaultLogger => exact hdefault
  | exitHandler => exact hexit
  | timeFormat => exact congrArg (·.getD .rfc3339Nano) hformat

end Session

/-! ### Replacements -/

/-- A replacement as it was made. -/
structure Replacement (k : Setting) where
  value : k.Value
  previous : k.Value

/-- A session with its replacements. Those of one setting go by how many were made before them. -/
structure Setup where
  session : Session
  made : (k : Setting) → List (Replacement k) := fun _ => []
  /-- The replacements that were not restored, the innermost first. -/
  pending : (k : Setting) → List Nat := fun _ => []

/-- What a program does next. -/
inductive SetupStep
  | replace (k : Setting) (value : k.Value)
  /-- Restore what the replacement of this number replaced. That is done once at most. -/
  | restore (k : Setting) (n : Nat)
  /-- Anything else that a program does with loggers. -/
  | other (a : Action) (h : a.KeepsSettings)

namespace Setup

/-- Replace a setting. -/
def replace (p : Setup) (k : Setting) (value : k.Value) : Setup where
  session := (p.session.replace k value).1
  made := update p.made k (p.made k ++ [⟨value, (p.session.replace k value).2⟩])
  pending := update p.pending k ((p.made k).length :: p.pending k)

/-- Restore what the replacement `r` of number `n`, which is pending, replaced. -/
def restore (p : Setup) (k : Setting) (n : Nat) (r : Replacement k) : Setup :=
  { p with
    session := p.session.restore k r.previous
    pending := update p.pending k ((p.pending k).erase n) }

/-- Take a step. Nothing happens if there is no such replacement any more. -/
def step (p : Setup) : SetupStep → Setup
  | .replace k value => p.replace k value
  | .restore k n =>
    match (p.made k)[n]? with
    | none => p
    | some r => if n ∈ p.pending k then p.restore k n r else p
  | .other a _ => { p with session := (p.session.act a).1 }

/-- Take steps in order. -/
def run (p : Setup) (steps : List SetupStep) : Setup :=
  steps.foldl step p

/-- A restoration is in order: what it restores was replaced by the innermost pending replacement of
the setting. -/
def InOrder (p : Setup) : SetupStep → Prop
  | .restore k n => n ∈ p.pending k → (p.pending k).head? = some n
  | _ => True

/-- All restorations are in order. -/
def Nested (p : Setup) : List SetupStep → Prop
  | [] => True
  | st :: steps => p.InOrder st ∧ (p.step st).Nested steps

theorem nested_append {p : Setup} {first second : List SetupStep} :
    p.Nested (first ++ second) ↔ p.Nested first ∧ (p.run first).Nested second := by
  induction first generalizing p with
  | nil => simp [Nested, run]
  | cons st first ih =>
      rw [List.cons_append, Nested, Nested, ih, and_assoc]
      rfl

/-! ### The invariant -/

/-- The pending replacements link what is in force to what was in force at first: the innermost one
installed it, and each of them replaced what the next one installed. -/
inductive Chain {k : Setting} (made : List (Replacement k)) (original : k.Value) :
    List Nat → k.Value → Prop
  | nil : Chain made original [] original
  | cons {n : Nat} {pending : List Nat} {r : Replacement k} (hn : made[n]? = some r)
      (h : Chain made original pending r.previous) : Chain made original (n :: pending) r.value

namespace Chain

variable {k : Setting} {made : List (Replacement k)} {original inForce : k.Value}

/-- Replacements that were made stay what they are. -/
theorem concat {pending : List Nat} (h : Chain made original pending inForce) (r : Replacement k) :
    Chain (made ++ [r]) original pending inForce := by
  induction h with
  | nil => exact .nil
  | cons hn _ ih =>
      exact .cons ((List.getElem?_append_left (List.getElem?_eq_some_iff.1 hn).1).trans hn) ih

/-- One more replacement. -/
theorem push {pending : List Nat} (h : Chain made original pending inForce) (value : k.Value) :
    Chain (made ++ [⟨value, inForce⟩]) original (made.length :: pending) value :=
  .cons (r := ⟨value, inForce⟩) List.getElem?_concat_length (h.concat _)

/-- Without the innermost replacement, what it replaced is in force. -/
theorem pop {n : Nat} {pending : List Nat} (h : Chain made original (n :: pending) inForce)
    {r : Replacement k} (hr : made[n]? = some r) : Chain made original pending r.previous := by
  cases h with
  | cons hn h =>
      obtain rfl := Option.some.inj (hn.symm.trans hr)
      exact h

/-- The innermost replacement is in force. -/
theorem value_eq {n : Nat} {pending : List Nat} (h : Chain made original (n :: pending) inForce) :
    ∃ r, made[n]? = some r ∧ inForce = r.value := by
  cases h with
  | cons hn h => exact ⟨_, hn, rfl⟩

/-- Without replacements, what was in force at first is in force. -/
theorem eq_original (h : Chain made original [] inForce) : inForce = original := by
  cases h
  rfl

end Chain

/-- Every setting is linked to what it was in the session `s`. -/
def Linked (s : Session) (p : Setup) : Prop :=
  ∀ k, Chain (p.made k) (s.setting k) (p.pending k) (p.session.setting k)

namespace Linked

variable {s : Session} {p : Setup}

theorem start (s : Session) : Linked s { session := s } :=
  fun _ => .nil

theorem replace (h : Linked s p) (k : Setting) (value : k.Value) : Linked s (p.replace k value) := by
  intro k'
  simp only [Setup.replace, Session.setting_replace, Session.replace_snd]
  by_cases hk : k' = k
  · subst hk
    simp only [Function.update_self]
    exact (h k').push value
  · simp only [Function.update_of_ne hk]
    exact h k'

theorem restore (h : Linked s p) {k : Setting} {n : Nat} {r : Replacement k}
    (hr : (p.made k)[n]? = some r) (hlast : (p.pending k).head? = some n) :
    Linked s (p.restore k n r) := by
  intro k'
  simp only [Setup.restore, Session.setting_restore]
  by_cases hk : k' = k
  · subst hk
    obtain ⟨others, hpending⟩ := List.head?_eq_some_iff.1 hlast
    have hchain := h k'
    rw [hpending] at hchain
    simp only [Function.update_self, hpending, List.erase_cons_head]
    exact hchain.pop hr
  · simp only [Function.update_of_ne hk]
    exact h k'

theorem step (h : Linked s p) {st : SetupStep} (hst : p.InOrder st) : Linked s (p.step st) := by
  cases st with
  | replace k value => exact h.replace k value
  | restore k n =>
      rw [Setup.step]
      split
      · exact h
      · rename_i r hr
        split
        · rename_i hpending
          exact h.restore hr (hst hpending)
        · exact h
  | other a ha =>
      intro k
      show Chain _ _ _ ((p.session.act a).1.setting k)
      rw [p.session.setting_act ha]
      exact h k

theorem run (h : Linked s p) {steps : List SetupStep} (hsteps : p.Nested steps) :
    Linked s (p.run steps) := by
  induction steps generalizing p with
  | nil => exact h
  | cons st steps ih => exact ih (h.step hsteps.1) hsteps.2

end Linked

/-! ### What is in force -/

/-- What is in force of each setting, given that it was `s` at the start, and what a fatal call comes
to at last. -/
structure InForce (s : Session) (p : Setup) : Prop where
  innermost : ∀ k n, (p.pending k).head? = some n →
    ∃ r, (p.made k)[n]? = some r ∧ p.session.setting k = r.value
  original : ∀ k, p.pending k = [] → p.session.setting k = s.setting k
  exits : ∀ c : Call, c.verb.ending = .exits → (p.session.perform c).2 = .ok () →
    (p.session.perform c).1.journal.getLast? = some (.exited (p.session.setting .exitHandler) 1)

theorem Linked.inForce {s : Session} {p : Setup} (h : Linked s p) : InForce s p where
  innermost k n hlast := by
    obtain ⟨others, hpending⟩ := List.head?_eq_some_iff.1 hlast
    have hchain := h k
    rw [hpending] at hchain
    exact hchain.value_eq
  original k hnone := by
    have hchain := h k
    rw [hnone] at hchain
    exact hchain.eq_original
  exits c hverb hreturns := p.session.exited_of_returns hverb hreturns

/-- **Replacements nest like a stack.** Take any steps in which the restorations of each setting are in
order; the settings may be interleaved, and anything else may happen in between. After every step, what
is in force of a setting is what its innermost pending replacement installed, and what it was at the
start if there is none; that is also so for the exit function as a fatal call meets it. Once everything
is restored, all settings are what they were at the start, though a default format of times that was
never set is set by then. -/
theorem inForce_run (s : Session) {steps : List SetupStep}
    (h : Setup.Nested { session := s } steps) :
    (∀ before after, steps = before ++ after → InForce s (Setup.run { session := s } before)) ∧
    ((∀ k, (Setup.run { session := s } steps).pending k = []) →
      (Setup.run { session := s } steps).session.setting = s.setting) := by
  have hinForce : ∀ before after, steps = before ++ after →
      InForce s (Setup.run { session := s } before) := by
    rintro before after rfl
    exact ((Linked.start s).run (nested_append.1 h).1).inForce
  refine ⟨hinForce, ?_⟩
  intro hrestored
  funext k
  exact (hinForce steps [] (List.append_nil _).symm).original k (hrestored k)

/-- A fatal call of the first logger. -/
def fatalCall : Call where
  now := .epoch
  id := 0
  site := default
  verb := .fatal ⟨600⟩
  request := .message "boom" []

/-- The format of times is replaced twice, around replacements of the other settings and a fatal call,
and the settings are restored in another order than they were replaced in. -/
def interleaved : List SetupStep :=
  [.replace .timeFormat Time.Format.unix, .replace .exitHandler (ExitHandler.replacement 7),
   .replace .defaultLogger (1 : LoggerId), .replace .timeFormat Time.Format.rfc3339,
   .other (.call fatalCall) trivial,
   .restore .exitHandler 0, .restore .timeFormat 1, .restore .defaultLogger 0,
   .restore .timeFormat 0]

/-- No format of times was set at the start. At the end one is set, and stands for the same. -/
theorem inForce_run_interleaved :
    InForce Thread.pair (Setup.run { session := Thread.pair } (interleaved.take 5)) ∧
      (Setup.run { session := Thread.pair } interleaved).session.setting = Thread.pair.setting ∧
      Thread.pair.timeFormat = none ∧
      (Setup.run { session := Thread.pair } interleaved).session.timeFormat = some .rfc3339Nano := by
  have hnested : Setup.Nested { session := Thread.pair } interleaved := by
    refine ⟨trivial, trivial, trivial, trivial, trivial, ?_, ?_, ?_, ?_, trivial⟩ <;> exact fun _ => rfl
  obtain ⟨hinForce, hrestored⟩ := inForce_run Thread.pair hnested
  refine ⟨hinForce (interleaved.take 5) (interleaved.drop 5) rfl, hrestored ?_, rfl, rfl⟩
  intro k
  cases k <;> rfl

end Setup
end LineLog
