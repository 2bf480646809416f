import LineLog.Proofs.Session.Run
import LineLog.Session.Binding
import Mathlib.Data.List.Induction
/-!
# LineLog.Proofs.Session.Binding

Bindings of a thread, with guards that are dropped in any order.

A guard remembers a depth and no binding, so dropping it cuts off whatever is bound at that depth or
above. A `Thread` therefore keeps account, beside the session, of which binding each bound logger is
from and of whose guards are alive. `Tracked` is the invariant: the bound loggers come from live
bindings, in the order of their making, each at the depth that its guard remembers.

Design points:

* A binding that was cut off is gone for good, though its guard lives on (`mem_stack_iff`). Its depth
  may then be that of a later binding, which dropping the stale guard cuts off as well.
* If guards are dropped in the reverse order of their making, none is ever cut off by another one
  (`stack_eq_live`).
-/

namespace LineLog

/-- What a thread does with bindings. -/
inductive BindingStep
  | bind (id : LoggerId)
  /-- Drop the guard of the binding of this number. A guard is dropped once at most. -/
  | drop (n : Nat)
  /-- Ask for the bound logger. -/
  | ask (now : Time.Instant) (site : CallSite)

/-- A binding as it was made. -/
structure Binding where
  logger : LoggerId
  guard : Guard
  deriving Repr, DecidableEq

/-- A thread with its bindings. They go by how many were made before them. -/
structure Thread where
  session : Session
  made : List Binding := []
  /-- The bindings whose guards are alive, in the order of their making. -/
  live : List Nat := []
  /-- The bindings that the bound loggers are from, the innermost last. -/
  stack : List Nat := []

namespace Session

/-! ### Asking for the bound logger -/

theorem reaches_contextLogger (s : Session) (site : CallSite) :
    Reaches s (s.contextLogger site).1 := by
  rw [contextLogger]
  split
  · exact .refl s
  · exact reaches_log s _ _

theorem alike_contextLogger (s : Session) (site : CallSite) :
    Alike s (s.contextLogger site).1 :=
  (s.reaches_contextLogger site).alike

theorem contextLogger_of_bound {s : Session} {id : LoggerId} (h : s.bound? = some id)
    (site : CallSite) : s.contextLogger site = (s, id) := by
  rw [contextLogger, h]

/-- The record that announces that no logger is bound. -/
def missingBinding (site : CallSite) : Emission :=
  { site, severity := Builtin.error.severity, message := noBindingMessage }

/-- Without a bound logger, the default logger is answered, and has recorded an error if it takes
errors. -/
theorem contextLogger_of_unbound {s : Session} {d : Logger} (h : s.bound? = none)
    (hd : s.logger? s.defaultLogger = some d) (site : CallSite) :
    ∃ s' events, s.contextLogger site = (s', s.defaultLogger) ∧ Performs s events s' ∧
      (d.accepts Builtin.error.severity = true →
        Attempt s d site d.sink (s.record d (missingBinding site)) events) ∧
      (d.accepts Builtin.error.severity = false → events = []) := by
  have hanswer : s.contextLogger site = (s.emit d (missingBinding site), s.defaultLogger) := by
    rw [contextLogger, h]
    show (s.log s.defaultLogger (missingBinding site), s.defaultLogger) = _
    rw [log, hd]
  cases haccepts : d.accepts Builtin.error.severity with
  | false =>
      have hsame : s.emit d (missingBinding site) = s :=
        if_neg (by simp [missingBinding, haccepts])
      exact ⟨s, [], by rw [hanswer, hsame], .nil s, by simp, fun _ => rfl⟩
  | true =>
      obtain ⟨diagnostics, attempt, hperforms, hdiagnostics, hattempt⟩ :=
        performs_emit hd (e := missingBinding site) haccepts
      -- The record has no fields, so there is nothing to complain about before it.
      obtain rfl := hdiagnostics.eq_nil
      exact ⟨_, attempt, hanswer, hperforms, fun _ => hattempt, by simp⟩

end Session

namespace Thread

/-! ### Steps and runs -/

/-- A thread of the session on which nothing was bound yet. -/
def start (s : Session) : Thread where
  session := { s with bindings := [] }

/-- Bind a logger. -/
def bind (t : Thread) (id : LoggerId) : Thread where
  session := (t.session.bind id).1
  made := t.made ++ [⟨id, (t.session.bind id).2⟩]
  live := t.live ++ [t.made.length]
  stack := t.stack ++ [t.made.length]

/-- Drop the guard of the binding `b` of number `n`, which is alive. -/
def release (t : Thread) (n : Nat) (b : Binding) : Thread :=
  { t with
    session := t.session.unbind b.guard
    live := t.live.erase n
    stack := t.stack.take b.guard.depth }

/-- Take a step. Nothing happens if there is no such guard any more. -/
def step (t : Thread) : BindingStep → Thread
  | .bind id => t.bind id
  | .drop n =>
    match t.made[n]? with
    | none => t
    | some b => if n ∈ t.live then t.release n b else t
  | .ask now site => { t with session := ((t.session.atTime now).contextLogger site).1 }

/-- Take steps in order. -/
def run (t : Thread) (steps : List BindingStep) : Thread :=
  steps.foldl step t

/-- A drop releases the binding, or does nothing. -/
theorem step_drop_cases (t : Thread) (n : Nat) :
    (∃ b, t.made[n]? = some b ∧ n ∈ t.live ∧ t.step (.drop n) = t.release n b) ∨
      ((t.made[n]? = none ∨ n ∉ t.live) ∧ t.step (.drop n) = t) := by
  cases hb : t.made[n]? with
  | none => exact .inr ⟨.inl rfl, by simp [step, hb]⟩
  | some b =>
      by_cases hn : n ∈ t.live
      · exact .inl ⟨b, rfl, hn, by simp [step, hb, hn]⟩
      · exact .inr ⟨.inr hn, by simp [step, hb, hn]⟩

theorem run_append (t : Thread) (first second : List BindingStep) :
    t.run (first ++ second) = (t.run first).run second :=
  List.foldl_append ..

theorem run_concat (t : Thread) (steps : List BindingStep) (st : BindingStep) :
    t.run (steps ++ [st]) = (t.run steps).step st :=
  t.run_append steps [st]

/-! ### The invariant -/

/-- The account of the bindings is true. -/
structure Tracked (t : Thread) : Prop where
  length_bindings : t.session.bindings.length = t.stack.length
  /-- A binding on the stack lies where its guard will look for it. -/
  stack_at : ∀ i n, t.stack[i]? = some n →
    ∃ b : Binding, t.made[n]? = some b ∧ t.session.bindings[i]? = some b.logger ∧ b.guard.depth = i
  stack_live : t.stack.Sublist t.live
  ordered : t.live.Pairwise (· < ·)
  known : ∀ n ∈ t.live, n < t.made.length

namespace Tracked

variable {t : Thread}

theorem start (s : Session) : (start s).Tracked where
  length_bindings := rfl
  stack_at i n h := by simp [Thread.start] at h
  stack_live := .slnil
  ordered := .nil
  known n h := by simp [Thread.start] at h

theorem depth_eq (h : t.Tracked) {i n : Nat} {b : Binding} (hi : t.stack[i]? = some n)
    (hb : t.made[n]? = some b) : b.guard.depth = i := by
  obtain ⟨b', hb', -, hdepth⟩ := h.stack_at i n hi
  obtain rfl : b = b' := Option.some.inj (hb.symm.trans hb')
  exact hdepth

/-- Cutting the stack at a depth keeps the bindings below it. -/
theorem mem_take_iff (h : t.Tracked) {n depth : Nat} {b : Binding} (hb : t.made[n]? = some b) :
    n ∈ t.stack.take depth ↔ n ∈ t.stack ∧ b.guard.depth < depth := by
  constructor
  · intro hn
    refine ⟨List.mem_of_mem_take hn, ?_⟩
    obtain ⟨i, hi⟩ := List.mem_iff_getElem?.1 hn
    rw [List.getElem?_take] at hi
    split at hi
    · rename_i hlt
      rw [h.depth_eq hi hb]
      exact hlt
    · cases hi
  · rintro ⟨hn, hlt⟩
    obtain ⟨i, hi⟩ := List.mem_iff_getElem?.1 hn
    rw [h.depth_eq hi hb] at hlt
    refine List.mem_iff_getElem?.2 ⟨i, ?_⟩
    rw [List.getElem?_take_of_lt hlt]
    exact hi

/-- The guards that can still be dropped are those of live bindings. -/
theorem drop_cases (h : t.Tracked) (n : Nat) :
    (∃ b, t.made[n]? = some b ∧ n ∈ t.live ∧ t.step (.drop n) = t.release n b) ∨
      (n ∉ t.live ∧ t.step (.drop n) = t) := by
  rcases t.step_drop_cases n with hreleased | ⟨hb | hdead, hstep⟩
  · exact .inl hreleased
  · refine .inr ⟨?_, hstep⟩
    intro hn
    exact absurd (h.known n hn) (Nat.not_lt.2 (List.getElem?_eq_none_iff.1 hb))
  · exact .inr ⟨hdead, hstep⟩

theorem bind (h : t.Tracked) (id : LoggerId) : (t.bind id).Tracked where
  length_bindings := by simp [Thread.bind, Session.bind, h.length_bindings]
  stack_at i n hi := by
    have hcases : t.stack[i]? = some n ∨ (i = t.stack.length ∧ n = t.made.length) := by
      rcases Nat.lt_trichotomy i t.stack.length with hlt | rfl | hgt
      · rw [Thread.bind, List.getElem?_append_left hlt] at hi
        exact .inl hi
      · rw [Thread.bind, List.getElem?_concat_length] at hi
        exact .inr ⟨rfl, (Option.some.inj hi).symm⟩
      · rw [Thread.bind, List.getElem?_eq_none (by simp; omega)] at hi
        cases hi
    rcases hcases with hold | ⟨rfl, rfl⟩
    · obtain ⟨b, hb, hlogger, hdepth⟩ := h.stack_at i n hold
      refine ⟨b, ?_, ?_, hdepth⟩
      · exact (List.getElem?_append_left (List.getElem?_eq_some_iff.1 hb).1).trans hb
      · exact (List.getElem?_append_left (List.getElem?_eq_some_iff.1 hlogger).1).trans hlogger
    · refine ⟨⟨id, ⟨t.session.bindings.length⟩⟩, List.getElem?_concat_length, ?_,
        h.length_bindings⟩
      show (t.session.bindings ++ [id])[t.stack.length]? = some id
      rw [← h.length_bindings]
      exact List.getElem?_concat_length
  stack_live := h.stack_live.append (.refl _)
  ordered := by
    refine List.pairwise_append.2 ⟨h.ordered, List.pairwise_singleton .., ?_⟩
    intro n hn m hm
    obtain rfl := List.mem_singleton.1 hm
    exact h.known n hn
  known n hn := by
    show n < (t.made ++ [_]).length
    rw [List.length_append, List.length_singleton]
    rcases List.mem_append.1 hn with hn | hn
    · exact Nat.lt_succ_of_lt (h.known n hn)
    · obtain rfl := List.mem_singleton.1 hn
      exact Nat.lt_succ_self _

theorem release (h : t.Tracked) {n : Nat} {b : Binding} (hb : t.made[n]? = some b) :
    (t.release n b).Tracked where
  length_bindings := by simp [Thread.release, Session.unbind, h.length_bindings]
  stack_at i m hi := by
    rw [Thread.release, List.getElem?_take] at hi
    split at hi
    · rename_i hlt
      obtain ⟨b', hb', hlogger, hdepth⟩ := h.stack_at i m hi
      refine ⟨b', hb', ?_, hdepth⟩
      show (t.session.bindings.take b.guard.depth)[i]? = _
      rw [List.getElem?_take_of_lt hlt]
      exact hlogger
    · cases hi
  stack_live := by
    -- The binding itself is cut off, so what is left of the stack does not miss it.
    have hcut : n ∉ t.stack.take b.guard.depth := by
      intro hn
      exact absurd ((h.mem_take_iff hb).1 hn).2 (Nat.lt_irrefl _)
    have hsub : (t.stack.take b.guard.depth).Sublist t.live :=
      (List.take_sublist _ _).trans h.stack_live
    have herase := hsub.erase n
    rwa [List.erase_of_not_mem hcut] at herase
  ordered := h.ordered.sublist List.erase_sublist
  known m hm := h.known m (List.mem_of_mem_erase hm)

theorem step (h : t.Tracked) (st : BindingStep) : (t.step st).Tracked := by
  cases st with
  | bind id => exact h.bind id
  | drop n =>
      rcases h.drop_cases n with ⟨b, hb, -, hstep⟩ | ⟨-, hstep⟩
      · rw [hstep]
        exact h.release hb
      · rw [hstep]
        exact h
  | ask now site =>
      have hbindings : (t.step (.ask now site)).session.bindings = t.session.bindings :=
        (Session.alike_contextLogger (t.session.atTime now) site).bindings
      refine ⟨?_, ?_, h.stack_live, h.ordered, h.known⟩
      · rw [hbindings]
        exact h.length_bindings
      · intro i n hi
        rw [hbindings]
        exact h.stack_at i n hi

theorem run (h : t.Tracked) (steps : List BindingStep) : (t.run steps).Tracked := by
  induction steps generalizing t with
  | nil => exact h
  | cons st steps ih => exact ih (h.step st)

end Tracked

/-! ### Bindings that were made -/

variable {t : Thread}

theorem made_drop (t : Thread) (n : Nat) : (t.step (.drop n)).made = t.made := by
  rcases t.step_drop_cases n with ⟨b, -, -, hstep⟩ | ⟨-, hstep⟩
  · rw [hstep]
    rfl
  · rw [hstep]

/-- Bindings that were made stay what they are. -/
theorem made_step (t : Thread) (st : BindingStep) : t.made <+: (t.step st).made := by
  cases st with
  | bind id => exact List.prefix_append _ _
  | drop n => simp [made_drop]
  | ask now site => exact List.prefix_refl _

theorem made_run (t : Thread) (steps : List BindingStep) : t.made <+: (t.run steps).made := by
  induction steps generalizing t with
  | nil => exact List.prefix_refl _
  | cons st steps ih => exact (t.made_step st).trans (ih (t.step st))

theorem length_made_le (t : Thread) (steps : List BindingStep) :
    t.made.length ≤ (t.run steps).made.length :=
  (t.made_run steps).length_le

/-- A binding whose guard was dropped. -/
structure Dropped (t : Thread) (n : Nat) : Prop where
  made : n < t.made.length
  not_live : n ∉ t.live

/-- A dropped guard does not come back. -/
theorem Dropped.step (ht : t.Tracked) {n : Nat} (h : t.Dropped n) (st : BindingStep) :
    (t.step st).Dropped n := by
  refine ⟨Nat.lt_of_lt_of_le h.made (t.made_step st).length_le, ?_⟩
  cases st with
  | bind id =>
      intro hn
      rcases List.mem_append.1 hn with hn | hn
      · exact h.not_live hn
      · rw [List.mem_singleton.1 hn] at h
        exact absurd h.made (Nat.lt_irrefl _)
  | drop m =>
      rcases ht.drop_cases m with ⟨b, -, -, hstep⟩ | ⟨-, hstep⟩
      · rw [hstep]
        exact fun hn => h.not_live (List.mem_of_mem_erase hn)
      · rw [hstep]
        exact h.not_live
  | ask now site => exact h.not_live

theorem Dropped.run (ht : t.Tracked) {n : Nat} (h : t.Dropped n) (steps : List BindingStep) :
    (t.run steps).Dropped n := by
  induction steps generalizing t with
  | nil => exact h
  | cons st steps ih => exact ih (ht.step st) (h.step ht st)

/-- Dropping the guard of `m` cuts off `n`: it does not lie below. -/
def Cuts (t : Thread) (m n : Nat) : Prop :=
  ∃ b b' : Binding, t.made[m]? = some b ∧ t.made[n]? = some b' ∧ b.guard.depth ≤ b'.guard.depth

/-- The step does not cut off the binding. -/
def Spares (t : Thread) (st : BindingStep) (n : Nat) : Prop :=
  ∀ m, st = .drop m → m ∈ t.live → ¬ t.Cuts m n

/-- No step of a run cuts off the binding. -/
def Uncut (s : Session) (steps : List BindingStep) (n : Nat) : Prop :=
  ∀ before st after, steps = before ++ st :: after → ((start s).run before).Spares st n

theorem uncut_concat {s : Session} {steps : List BindingStep} {st : BindingStep} {n : Nat} :
    Uncut s (steps ++ [st]) n ↔ Uncut s steps n ∧ ((start s).run steps).Spares st n := by
  constructor
  · intro h
    refine ⟨?_, h steps st [] rfl⟩
    intro before st' after hsteps
    exact h before st' (after ++ [st]) (by rw [hsteps]; simp)
  · rintro ⟨hsteps, hlast⟩ before st' after hsplit
    rcases List.eq_nil_or_concat after with rfl | ⟨after', last, rfl⟩
    · obtain ⟨rfl, hst⟩ := List.append_inj' hsplit rfl
      obtain rfl := (List.cons.inj hst).1
      exact hlast
    · have hinit : steps ++ [st] = (before ++ st' :: after') ++ [last] := by
        rw [hsplit]
        simp
      exact hsteps before st' after' (List.append_inj' hinit rfl).1

/-- A binding that is not made yet cannot be cut off. -/
theorem uncut_of_length_le {s : Session} {steps : List BindingStep} {n : Nat}
    (h : ((start s).run steps).made.length ≤ n) : Uncut s steps n := by
  rintro before st after rfl m - - ⟨-, b, -, hb, -⟩
  have hmade := length_made_le ((start s).run before) (st :: after)
  rw [← run_append] at hmade
  exact absurd (List.getElem?_eq_some_iff.1 hb).1 (Nat.not_lt.2 (Nat.le_trans hmade h))

/-- A step makes one more binding or none. -/
theorem lt_length_made_step (t : Thread) (st : BindingStep) (n : Nat) :
    n < (t.step st).made.length ↔
      n < t.made.length ∨ (n = t.made.length ∧ ∃ id, st = .bind id) := by
  cases st with
  | bind id =>
      have hlength : (t.step (.bind id)).made.length = t.made.length + 1 := List.length_append ..
      rw [hlength, Nat.lt_succ_iff_lt_or_eq]
      exact or_congr_right (and_iff_left ⟨id, rfl⟩).symm
  | drop m => simp [made_drop]
  | ask now site => simp [step]

/-- What is bound after a step was bound before and is spared, or is bound by the step. -/
theorem mem_stack_step_iff (ht : t.Tracked) (st : BindingStep) (n : Nat) :
    n ∈ (t.step st).stack ↔
      (n ∈ t.stack ∧ t.Spares st n) ∨ (n = t.made.length ∧ ∃ id, st = .bind id) := by
  cases st with
  | bind id => simp [step, bind, Spares]
  | ask now site => simp [step, Spares]
  | drop m =>
      rcases ht.drop_cases m with ⟨b, hb, hlive, hstep⟩ | ⟨hdead, hstep⟩
      · rw [hstep]
        show n ∈ t.stack.take b.guard.depth ↔ _
        constructor
        · intro hn
          refine .inl ⟨List.mem_of_mem_take hn, ?_⟩
          rintro m' hm' - ⟨bm, bn, hbm, hbn, hle⟩
          obtain rfl := BindingStep.drop.inj hm'
          obtain rfl : b = bm := Option.some.inj (hb.symm.trans hbm)
          exact absurd ((ht.mem_take_iff hbn).1 hn).2 (Nat.not_lt.2 hle)
        · rintro (⟨hn, hspares⟩ | ⟨-, id, hid⟩)
          · have hbn := List.getElem?_eq_getElem (ht.known n (ht.stack_live.subset hn))
            refine (ht.mem_take_iff hbn).2 ⟨hn, Nat.lt_of_not_le ?_⟩
            intro hle
            exact hspares m rfl hlive ⟨b, _, hb, hbn, hle⟩
          · cases hid
      · rw [hstep]
        simp [Spares, hdead]

/-- **Exactly the bindings that were not cut off are bound.** -/
theorem mem_stack_iff (s : Session) (steps : List BindingStep) (n : Nat) :
    n ∈ ((start s).run steps).stack ↔
      n < ((start s).run steps).made.length ∧ Uncut s steps n := by
  induction steps using List.reverseRecOn with
  | nil => simp [run, start]
  | append_singleton steps st ih =>
      have ht : ((start s).run steps).Tracked := (Tracked.start s).run steps
      rw [run_concat, uncut_concat, mem_stack_step_iff ht, lt_length_made_step, ih]
      constructor
      · rintro (⟨⟨hlt, huncut⟩, hspares⟩ | ⟨rfl, id, rfl⟩)
        · exact ⟨.inl hlt, huncut, hspares⟩
        · exact ⟨.inr ⟨rfl, id, rfl⟩, uncut_of_length_le (Nat.le_refl _), by simp [Spares]⟩
      · rintro ⟨hlt | hnew, huncut, hspares⟩
        · exact .inl ⟨⟨hlt, huncut⟩, hspares⟩
        · exact .inr hnew

/-! ### The innermost binding -/

/-- The innermost bound logger is that of the last binding on the stack. -/
theorem Tracked.bound_of_getLast? (ht : t.Tracked) {n : Nat} (hn : t.stack.getLast? = some n) :
    ∃ b : Binding, t.made[n]? = some b ∧ t.session.bound? = some b.logger := by
  rw [List.getLast?_eq_getElem?] at hn
  obtain ⟨b, hb, hlogger, -⟩ := ht.stack_at _ n hn
  refine ⟨b, hb, ?_⟩
  rw [Session.bound?, List.getLast?_eq_getElem?, ht.length_bindings]
  exact hlogger

theorem Tracked.bound_eq_none_iff (ht : t.Tracked) :
    t.session.bound? = none ↔ t.stack = [] := by
  rw [Session.bound?, List.getLast?_eq_none_iff, ← List.length_eq_zero_iff, ht.length_bindings,
    List.length_eq_zero_iff]

/-- The last binding on the stack is the one that was made last. -/
theorem Tracked.getLast?_stack (ht : t.Tracked) {n : Nat} (hn : n ∈ t.stack)
    (hlast : ∀ m ∈ t.stack, m ≤ n) : t.stack.getLast? = some n := by
  have hordered : t.stack.Pairwise (· < ·) := ht.ordered.sublist ht.stack_live
  cases hlast? : t.stack.getLast? with
  | none =>
      rw [List.getLast?_eq_none_iff.1 hlast?] at hn
      cases hn
  | some last =>
      obtain ⟨init, hsplit⟩ := List.getLast?_eq_some_iff.1 hlast?
      have hle : last ≤ n := hlast last (List.mem_of_getLast? hlast?)
      rw [hsplit] at hn hordered
      rcases List.mem_append.1 hn with hinit | hn
      · have hlt : n < last :=
          (List.pairwise_append.1 hordered).2.2 n hinit last (List.mem_singleton_self _)
        exact absurd hle (Nat.not_le.2 hlt)
      · rw [List.mem_singleton.1 hn]

/-- **The bound logger is that of the last binding that was not cut off.** After any steps, it is the
logger of the most recent binding that is spared by every drop since it was made, and there is none
exactly if no binding is. Where no guard is alive there is none. -/
theorem bound_run (s : Session) (steps : List BindingStep) :
    (∀ n < ((start s).run steps).made.length, Uncut s steps n →
      (∀ m < ((start s).run steps).made.length, n < m → ¬ Uncut s steps m) →
      ∃ b : Binding, ((start s).run steps).made[n]? = some b ∧
        ((start s).run steps).session.bound? = some b.logger) ∧
    (((start s).run steps).session.bound? = none ↔
      ∀ n < ((start s).run steps).made.length, ¬ Uncut s steps n) ∧
    (((start s).run steps).live = [] → ((start s).run steps).session.bound? = none) := by
  have ht : ((start s).run steps).Tracked := (Tracked.start s).run steps
  refine ⟨?_, ?_, ?_⟩
  · intro n hlt huncut hlater
    refine ht.bound_of_getLast? (ht.getLast?_stack ((mem_stack_iff s steps n).2 ⟨hlt, huncut⟩) ?_)
    intro m hm
    obtain ⟨hmlt, hmuncut⟩ := (mem_stack_iff s steps m).1 hm
    exact Nat.le_of_not_lt fun hnm => hlater m hmlt hnm hmuncut
  · rw [ht.bound_eq_none_iff, List.eq_nil_iff_forall_not_mem]
    constructor
    · intro hnone n hlt huncut
      exact hnone n ((mem_stack_iff s steps n).2 ⟨hlt, huncut⟩)
    · intro hnone n hn
      obtain ⟨hlt, huncut⟩ := (mem_stack_iff s steps n).1 hn
      exact hnone n hlt huncut
  · intro hlive
    have hsub := ht.stack_live
    rw [hlive] at hsub
    exact ht.bound_eq_none_iff.2 (List.sublist_nil.1 hsub)

/-- Two loggers, of which the first is the default. -/
def pair : Session where
  hostname := .ok "host"
  sinks := [.memory []]
  loggers := [{ config := {}, sink := 0 }, { config := {}, sink := 0 }]

/-- Both loggers are bound and the outer guard is dropped. They are bound again, and now the inner
guard of the first time is dropped. -/
def outOfOrder : List BindingStep :=
  [.bind 0, .bind 1, .drop 0, .bind 0, .bind 1, .drop 1]

/-- At the first drop a binding is cut off whose guard is alive, and none is left. The second drop, of
this stale guard, cuts off a binding that was made since: the guard of logger 1 is alive and was made
last, but logger 0 is bound. -/
theorem bound_run_outOfOrder :
    ((start pair).run (outOfOrder.take 3)).live = [1] ∧
      ((start pair).run (outOfOrder.take 3)).session.bound? = none ∧
      ((start pair).run outOfOrder).live = [2, 3] ∧
      ((start pair).run outOfOrder).made[3]? = some ⟨1, ⟨1⟩⟩ ∧
      ((start pair).run outOfOrder).session.bound? = some 0 :=
  ⟨rfl, rfl, rfl, rfl, rfl⟩

/-! ### Guards that are dropped in order -/

/-- What asking for the bound logger answers. With bindings it is the logger of the innermost one,
and nothing else happens. Without any it is the default logger `d`, through which an error was
recorded, if it takes errors. -/
structure Answers (t : Thread) (d : Logger) : Prop where
  bound : ∀ n, t.stack.getLast? = some n → ∃ b : Binding, t.made[n]? = some b ∧
    t.session.bound? = some b.logger ∧
    ∀ now site, (t.session.atTime now).contextLogger site = (t.session.atTime now, b.logger)
  unbound : t.stack = [] → t.session.bound? = none ∧ ∀ now site, ∃ s' events,
    (t.session.atTime now).contextLogger site = (s', t.session.defaultLogger) ∧
    s'.journal = t.session.journal ++ events ∧
    (d.accepts Builtin.error.severity = true →
      Session.Attempt (t.session.atTime now) d site d.sink
        ((t.session.atTime now).record d (Session.missingBinding site)) events) ∧
    (d.accepts Builtin.error.severity = false → events = [])

theorem Tracked.answers (ht : t.Tracked) {d : Logger}
    (hd : t.session.logger? t.session.defaultLogger = some d) : t.Answers d where
  bound n hn := by
    obtain ⟨b, hb, hbound⟩ := ht.bound_of_getLast? hn
    refine ⟨b, hb, hbound, ?_⟩
    intro now site
    exact Session.contextLogger_of_bound (s := t.session.atTime now) hbound site
  unbound hempty := by
    have hnone : t.session.bound? = none := ht.bound_eq_none_iff.2 hempty
    refine ⟨hnone, ?_⟩
    intro now site
    obtain ⟨s', events, hanswer, hperforms, hattempt, hsilent⟩ :=
      Session.contextLogger_of_unbound (s := t.session.atTime now) hnone hd site
    exact ⟨s', events, hanswer, hperforms.journal, hattempt, hsilent⟩

/-- Steps change neither the loggers nor which one is the default. -/
theorem setting_step (t : Thread) (st : BindingStep) :
    (t.step st).session.loggers = t.session.loggers ∧
      (t.step st).session.defaultLogger = t.session.defaultLogger := by
  cases st with
  | bind id => exact ⟨rfl, rfl⟩
  | drop n =>
      rcases t.step_drop_cases n with ⟨b, -, -, hstep⟩ | ⟨-, hstep⟩
      · rw [hstep]
        exact ⟨rfl, rfl⟩
      · rw [hstep]
        exact ⟨rfl, rfl⟩
  | ask now site =>
      have halike := Session.alike_contextLogger (t.session.atTime now) site
      exact ⟨halike.loggers, halike.defaultLogger⟩

theorem setting_run (t : Thread) (steps : List BindingStep) :
    (t.run steps).session.loggers = t.session.loggers ∧
      (t.run steps).session.defaultLogger = t.session.defaultLogger := by
  induction steps generalizing t with
  | nil => exact ⟨rfl, rfl⟩
  | cons st steps ih =>
      obtain ⟨hloggers, hdefault⟩ := t.setting_step st
      obtain ⟨hloggers', hdefault'⟩ := ih (t.step st)
      exact ⟨hloggers'.trans hloggers, hdefault'.trans hdefault⟩

end Thread
end LineLog
