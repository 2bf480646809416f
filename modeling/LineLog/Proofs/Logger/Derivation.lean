import LineLog.Logger
import LineLog.Proofs.Value.Marshal
/-!
# LineLog.Proofs.Logger.Derivation

Ways to make loggers, as data, and the laws between them.

An `Origin` makes a logger out of nothing, a `Derivation` makes one from another. The loggers
that can be made are `Logger.Obtained`; their configurations can be used (`Obtained.validate`)
and their contexts are made of pairs.

Design points:

* Derivations change different parts of a logger, so those of different kinds commute
  (`Derivation.commute`). The one exception is the skip, which options add to as well: sums of
  skips are held at the largest word, and it does not matter in which order that happens
  (`addSkip_right_comm`).
* Options are applied one after the other and checked once at the end, so two rounds of them that
  both pass come to one round (`Logger.renew_append`). A failure between two rounds has no
  counterpart in one.
-/

namespace LineLog

/-! ### Skips -/

theorem toNat_addSkip (a b : SkipCount) :
    (addSkip a b).toNat = min (a.toNat + b.toNat) (UInt64.size - 1) := by
  have hlt : min (a.toNat + b.toNat) (UInt64.size - 1) < UInt64.size :=
    Nat.lt_of_le_of_lt (Nat.min_le_right ..) (by decide)
  rw [addSkip, UInt64.toNat_ofNat_of_lt' hlt]

theorem addSkip_right_comm (a b c : SkipCount) :
    addSkip (addSkip a b) c = addSkip (addSkip a c) b := by
  apply UInt64.toNat_inj.1
  simp only [toNat_addSkip]
  omega

namespace Config

/-- With more frames to skip. -/
def skipping (n : SkipCount) (c : Config) : Config :=
  { c with callerSkip := addSkip c.callerSkip n }

theorem skipping_comm (m n : SkipCount) (c : Config) :
    (c.skipping m).skipping n = (c.skipping n).skipping m := by
  simp only [skipping, addSkip_right_comm c.callerSkip m n]

/-- The skip plays no part in whether a configuration can be used. -/
theorem validate_skipping (n : SkipCount) (c : Config) : (c.skipping n).validate = c.validate := rfl

end Config

/-! ### Options -/

/-- An option does the same to a configuration with a larger skip. -/
theorem ConfigOption.apply_skipping (hostname : Except IoError String) (o : ConfigOption)
    (n : SkipCount) (c : Config) :
    o.apply hostname (c.skipping n) = (o.apply hostname c).map (Config.skipping n) := by
  cases o with
  | useHostname on => cases hostname <;> rfl
  | callerSkip m => exact congrArg Except.ok (Config.skipping_comm n m c)
  | _ => rfl

namespace Config

variable (hostname : Except IoError String)

theorem applyAll_skipping (n : SkipCount) (options : List ConfigOption) (c : Config) :
    applyAll hostname options (c.skipping n) =
      ((applyAll hostname options c).1.skipping n, (applyAll hostname options c).2) := by
  induction options generalizing c with
  | nil => rfl
  | cons o options ih =>
      rw [applyAll, applyAll, o.apply_skipping]
      cases o.apply hostname c with
      | error e => rfl
      | ok c' => exact ih c'

theorem configured_skipping (n : SkipCount) (options : List ConfigOption) (c : Config) :
    (c.skipping n).configured hostname options =
      (c.configured hostname options).map (skipping n) := by
  rw [configured, configured, applyAll_skipping]
  cases applyAll hostname options c with
  | mk c' result =>
      cases result with
      | error e => rfl
      | ok =>
          show ((c'.skipping n).validate.map fun () => c'.skipping n) =
            (c'.validate.map fun () => c').map (skipping n)
          rw [validate_skipping]
          cases c'.validate <;> rfl

theorem configured_eq_ok_iff {options : List ConfigOption} {c c' : Config} :
    c.configured hostname options = .ok c' ↔
      applyAll hostname options c = (c', .ok ()) ∧ c'.validate = .ok () := by
  rw [configured]
  cases applyAll hostname options c with
  | mk c₁ result =>
      cases result with
      | error e => simp
      | ok =>
          cases hvalid : c₁.validate with
          | error e =>
              constructor
              · intro h
                simp [hvalid, Except.map] at h
              · rintro ⟨h, h'⟩
                cases h
                rw [hvalid] at h'
                cases h'
          | ok =>
              constructor
              · intro h
                simp only [hvalid, Except.map, Except.ok.injEq] at h
                subst h
                exact ⟨rfl, hvalid⟩
              · rintro ⟨h, -⟩
                cases h
                simp [hvalid, Except.map]

/-- Options that are applied after others that did not fail. -/
theorem applyAll_append {a b : List ConfigOption} {c c' : Config}
    (h : applyAll hostname a c = (c', .ok ())) :
    applyAll hostname (a ++ b) c = applyAll hostname b c' := by
  induction a generalizing c with
  | nil =>
      cases h
      rfl
  | cons o a ih =>
      rw [applyAll] at h
      rw [List.cons_append, applyAll]
      cases ho : o.apply hostname c with
      | error e =>
          rw [ho] at h
          cases h
      | ok c₁ =>
          rw [ho] at h
          exact ih h

/-- Two rounds of options that both pass come to one. -/
theorem configured_append {a b : List ConfigOption} {c c₁ c₂ : Config}
    (ha : c.configured hostname a = .ok c₁) (hb : c₁.configured hostname b = .ok c₂) :
    c.configured hostname (a ++ b) = .ok c₂ := by
  obtain ⟨happlied, -⟩ := (configured_eq_ok_iff hostname).1 ha
  obtain ⟨happlied', hvalid⟩ := (configured_eq_ok_iff hostname).1 hb
  refine (configured_eq_ok_iff hostname).2 ⟨?_, hvalid⟩
  rw [applyAll_append hostname happlied, happlied']

end Config

/-! ### Derivations -/

/-- A way to make a logger from another one. -/
inductive Derivation
  | copy
  | fields (fields : List Field)
  | options (options : List ConfigOption)
  | sink (sink : SinkId)
  | skip (n : SkipCount)

namespace Derivation

/-- The kinds of derivations. -/
inductive Kind
  | copy
  | fields
  | options
  | sink
  | skip
  deriving DecidableEq

def kind : Derivation → Kind
  | copy => .copy
  | fields _ => .fields
  | options _ => .options
  | sink _ => .sink
  | skip _ => .skip

section Apply

-- The system's answer to a look-up of the host name, and the format of times without their own.
variable (hostname : Except IoError String) (fallback : Time.Format)

/-- The logger that a derivation makes. -/
def apply (l : Logger) : Derivation → Except LogError Logger
  | copy => .ok l
  | fields fs => .ok (l.withFields fallback fs)
  | options os => l.renew hostname os
  | sink id => .ok (l.renewSink id)
  | skip n => .ok (l.addCallerSkip n)

/-- The two derivations come to the same in either order, failures included. -/
def Commute (a b : Derivation) : Prop :=
  ∀ l, ((a.apply hostname fallback l).bind fun l => b.apply hostname fallback l) =
    (b.apply hostname fallback l).bind fun l => a.apply hostname fallback l

variable {hostname fallback}

theorem Commute.symm {a b : Derivation} (h : Commute hostname fallback a b) :
    Commute hostname fallback b a := by
  intro l
  exact (h l).symm

theorem commute_copy (a : Derivation) : Commute hostname fallback copy a := by
  intro l
  show a.apply hostname fallback l = (a.apply hostname fallback l).bind .ok
  cases a.apply hostname fallback l <;> rfl

theorem commute_fields_options (fs : List Field) (os : List ConfigOption) :
    Commute hostname fallback (fields fs) (options os) := by
  intro l
  show (l.withFields fallback fs).renew hostname os =
    (l.renew hostname os).bind fun l => .ok (l.withFields fallback fs)
  rw [Logger.renew, Logger.renew, Logger.withFields]
  cases l.config.configured hostname os <;> rfl

theorem commute_options_sink (os : List ConfigOption) (id : SinkId) :
    Commute hostname fallback (options os) (sink id) := by
  intro l
  show ((l.renew hostname os).bind fun l => .ok (l.renewSink id)) =
    (l.renewSink id).renew hostname os
  rw [Logger.renew, Logger.renew, Logger.renewSink]
  cases l.config.configured hostname os <;> rfl

theorem commute_options_skip (os : List ConfigOption) (n : SkipCount) :
    Commute hostname fallback (options os) (skip n) := by
  intro l
  show ((l.renew hostname os).bind fun l => .ok (l.addCallerSkip n)) =
    ((l.config.skipping n).configured hostname os).map fun c => { l with config := c }
  rw [Logger.renew, Config.configured_skipping]
  cases l.config.configured hostname os <;> rfl

theorem commute_skip_skip (m n : SkipCount) : Commute hostname fallback (skip m) (skip n) := by
  intro l
  exact congrArg (fun c => Except.ok { l with config := c }) (Config.skipping_comm m n l.config)

theorem commute_fields_sink (fs : List Field) (id : SinkId) :
    Commute hostname fallback (fields fs) (sink id) :=
  fun _ => rfl

theorem commute_fields_skip (fs : List Field) (n : SkipCount) :
    Commute hostname fallback (fields fs) (skip n) :=
  fun _ => rfl

theorem commute_sink_skip (id : SinkId) (n : SkipCount) :
    Commute hostname fallback (sink id) (skip n) :=
  fun _ => rfl

/-- Derivations of different kinds commute, and so do two changes of the skip. -/
theorem commute {a b : Derivation} (h : a.kind ≠ b.kind ∨ a.kind = .skip) :
    Commute hostname fallback a b := by
  cases a with
  | copy => exact commute_copy b
  | fields fs =>
      cases b with
      | copy => exact (commute_copy _).symm
      | fields => simp [kind] at h
      | options os => exact commute_fields_options fs os
      | sink id => exact commute_fields_sink fs id
      | skip n => exact commute_fields_skip fs n
  | options os =>
      cases b with
      | copy => exact (commute_copy _).symm
      | fields fs => exact (commute_fields_options fs os).symm
      | options => simp [kind] at h
      | sink id => exact commute_options_sink os id
      | skip n => exact commute_options_skip os n
  | sink id =>
      cases b with
      | copy => exact (commute_copy _).symm
      | fields fs => exact (commute_fields_sink fs id).symm
      | options os => exact (commute_options_sink os id).symm
      | sink => simp [kind] at h
      | skip n => exact commute_sink_skip id n
  | skip n =>
      cases b with
      | copy => exact (commute_copy _).symm
      | fields fs => exact (commute_fields_skip fs n).symm
      | options os => exact (commute_options_skip os n).symm
      | sink id => exact (commute_sink_skip id n).symm
      | skip m => exact commute_skip_skip n m

/-- A derived logger starts with the names of levels that its source has. -/
theorem severities_apply {how : Derivation} {l l' : Logger}
    (h : how.apply hostname fallback l = .ok l') : l'.severities = l.severities := by
  cases how with
  | options os =>
      obtain ⟨c, -, rfl⟩ := map_eq_ok h
      rfl
  | copy | fields | sink | skip =>
      cases h
      rfl

end Apply
end Derivation

/-! ### Loggers that can be made -/

/-- A way to make a logger out of nothing. -/
inductive Origin
  | options (sink : SinkId) (options : List ConfigOption) (base : Option Config)
  | config (sink : SinkId) (config : Config)

/-- The logger that is made. -/
def Origin.make (hostname : Except IoError String) : Origin → Except LogError Logger
  | options sink os base => Logger.create hostname sink os base
  | config sink c => Logger.withConfig sink c

namespace Logger

/-- The loggers that can be made, with whatever the system and the settings are at each step. -/
inductive Obtained : Logger → Prop
  /-- The logger that a process has from its start. -/
  | process (hostname : Except IoError String) (sink : SinkId) :
      Obtained { config := .withSystemHostname hostname, sink := sink }
  | made {l : Logger} (hostname : Except IoError String) (origin : Origin)
      (h : origin.make hostname = .ok l) : Obtained l
  | derived {l l' : Logger} (hl : Obtained l) (hostname : Except IoError String)
      (fallback : Time.Format) (how : Derivation) (h : how.apply hostname fallback l = .ok l') :
      Obtained l'
  | named {l l' : Logger} (hl : Obtained l) (entry : SeverityEntry)
      (h : l.addSeverity entry = .ok l') : Obtained l'

/-- The configuration of a logger can be used. -/
theorem Obtained.validate {l : Logger} (h : l.Obtained) : l.config.validate = .ok () := by
  induction h with
  | process hostname sink => cases hostname <;> rfl
  | made hostname origin h =>
      cases origin with
      | options sink options base =>
          obtain ⟨c, hc, rfl⟩ := map_eq_ok h
          exact ((Config.configured_eq_ok_iff hostname).1 hc).2
      | config sink c =>
          obtain ⟨⟨⟩, hvalid, rfl⟩ := map_eq_ok h
          exact hvalid
  | derived hl hostname fallback how h ih =>
      cases how with
      | copy | fields | sink | skip =>
          cases h
          exact ih
      | options options =>
          obtain ⟨c, hc, rfl⟩ := map_eq_ok h
          exact ((Config.configured_eq_ok_iff hostname).1 hc).2
  | named hl entry h ih =>
      obtain ⟨r, -, rfl⟩ := map_eq_ok h
      exact ih

/-- Skipping more frames is an option like any other. -/
theorem renew_callerSkip {l : Logger} (h : l.config.validate = .ok ())
    (hostname : Except IoError String) (n : SkipCount) :
    l.renew hostname [.callerSkip n] = .ok (l.addCallerSkip n) := by
  have hconfigured : l.config.configured hostname [.callerSkip n] = .ok (l.config.skipping n) :=
    (Config.configured_eq_ok_iff hostname).2 ⟨rfl, h⟩
  rw [renew, hconfigured]
  rfl

/-- Two rounds of options that both pass come to one. -/
theorem renew_append {hostname : Except IoError String} {a b : List ConfigOption} {l l₁ l₂ : Logger}
    (ha : l.renew hostname a = .ok l₁) (hb : l₁.renew hostname b = .ok l₂) :
    l.renew hostname (a ++ b) = .ok l₂ := by
  obtain ⟨c₁, hc₁, rfl⟩ := map_eq_ok ha
  obtain ⟨c₂, hc₂, rfl⟩ := map_eq_ok hb
  rw [renew, Config.configured_append hostname hc₁ hc₂]
  rfl

/-- Context that is added in two steps is the context that is added at once. -/
theorem withFields_withFields (fallback : Time.Format) (a b : List Field) (l : Logger) :
    (l.withFields fallback a).withFields fallback b = l.withFields fallback (a ++ b) := by
  simp [withFields]

end Logger
end LineLog
