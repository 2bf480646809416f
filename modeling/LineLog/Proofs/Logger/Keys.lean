import LineLog.Proofs.Session.Action
/-!
# LineLog.Proofs.Logger.Keys

No logger has an enabled block without a key.

A configuration is checked where it comes from outside and where options change it; everything else
that makes a logger leaves the switches and the keys of its source alone. `Config.validate` is
characterised once (`validate_eq_ok_iff`, `validate_eq_error_iff`), and whether a logger can be made is
read off it (`Decided`).

Design points:

* Options are checked after the last of them, so what counts is the configuration that all of them
  come to (`Config.withAll`), however many on the way have no key.
* Only looking up the host name can stop options half-way. Where it is known, none of them fails
  (`applyAll_eq`).
* The loggers of a session are obtained from those that it starts with (`AllObtained.acts`), so
  what holds of every logger that can be obtained holds in every state of a program.
-/

namespace LineLog

/-- The block is off or has a key. -/
def Block.Keyed (b : Block) : Prop :=
  b.enabled = false ∨ b.key ≠ ""

theorem Block.keyless_eq_true_iff {b : Block} : b.keyless = true ↔ ¬ b.Keyed := by
  simp [keyless, Keyed]

instance (b : Block) : Decidable b.Keyed :=
  inferInstanceAs (Decidable (_ ∨ _))

namespace Config

/-- Every block is off or has a key. -/
structure Keyed (c : Config) : Prop where
  timestamp : c.timestamp.Keyed
  severity : c.severity.Keyed
  hostname : c.hostname.Keyed
  caller : c.caller.Keyed
  message : c.message.Keyed

/-- The first block, in the order of a record, that is on and has no key is the one whose key the member
`member` holds. -/
def Blames (c : Config) (member : String) : Prop :=
  ∃ before b after, c.blocks = before ++ (b, member) :: after ∧ ¬ b.Keyed ∧
    ∀ p ∈ before, p.1.Keyed

theorem keyed_iff {c : Config} : c.Keyed ↔ ∀ p ∈ c.blocks, p.1.Keyed := by
  constructor
  · rintro ⟨ht, hs, hh, hc, hm⟩
    simp [blocks, ht, hs, hh, hc, hm]
  · intro h
    simp only [blocks, List.mem_cons, List.not_mem_nil, or_false, forall_eq_or_imp, forall_eq] at h
    obtain ⟨ht, hs, hh, hc, hm⟩ := h
    exact ⟨ht, hs, hh, hc, hm⟩

instance (c : Config) : Decidable c.Keyed :=
  decidable_of_iff _ keyed_iff.symm

/-! ### The check -/

theorem find?_keyless_eq_none_iff {c : Config} :
    (c.blocks.find? fun p => p.1.keyless) = none ↔ c.Keyed := by
  rw [List.find?_eq_none, keyed_iff]
  refine forall₂_congr fun p _ => ?_
  rw [Block.keyless_eq_true_iff, not_not]

theorem find?_keyless_eq_some_iff {c : Config} {member : String} :
    (∃ b, (c.blocks.find? fun p => p.1.keyless) = some (b, member)) ↔ c.Blames member := by
  constructor
  · rintro ⟨b, hfind⟩
    obtain ⟨hkeyless, before, after, hsplit, hbefore⟩ := List.find?_eq_some_iff_append.1 hfind
    refine ⟨before, b, after, hsplit, Block.keyless_eq_true_iff.1 hkeyless, ?_⟩
    intro p hp
    by_contra hkeyed
    have hkeyless := hbefore p hp
    rw [Block.keyless_eq_true_iff.2 hkeyed] at hkeyless
    cases hkeyless
  · rintro ⟨before, b, after, hsplit, hkeyless, hbefore⟩
    refine ⟨b, List.find?_eq_some_iff_append.2
      ⟨Block.keyless_eq_true_iff.2 hkeyless, before, after, hsplit, ?_⟩⟩
    intro p hp
    cases hp' : p.1.keyless with
    | false => rfl
    | true => exact absurd (hbefore p hp) (Block.keyless_eq_true_iff.1 hp')

theorem validate_eq_ok_iff {c : Config} : c.validate = .ok () ↔ c.Keyed := by
  rw [← find?_keyless_eq_none_iff, validate]
  split
  · rename_i hfind
    simp [hfind]
  · rename_i hfind
    simp [hfind]

theorem validate_eq_error_iff {c : Config} {e : LogError} :
    c.validate = .error e ↔ ∃ member, c.Blames member ∧ e = .emptyKey member := by
  simp only [← find?_keyless_eq_some_iff]
  rw [validate]
  split
  · rename_i b member hfind
    constructor
    · intro h
      cases h
      exact ⟨member, ⟨b, hfind⟩, rfl⟩
    · rintro ⟨member', ⟨b', hfind'⟩, rfl⟩
      rw [hfind] at hfind'
      cases hfind'
      rfl
  · rename_i hfind
    simp [hfind]

end Config

/-! ### All options -/

/-- The configuration with an option applied, where the host name is known. -/
def ConfigOption.change (hostname : String) (o : ConfigOption) (c : Config) : Config :=
  match o.apply (.ok hostname) c with
  | .ok c => c
  | .error _ => c

/-- Where the host name is known, no option fails. -/
theorem ConfigOption.apply_eq (hostname : String) (o : ConfigOption) (c : Config) :
    o.apply (.ok hostname) c = .ok (o.change hostname c) := by
  cases o <;> rfl

namespace Config

/-- The configuration with all options applied, one after the other. -/
def withAll (hostname : String) (options : List ConfigOption) (c : Config) : Config :=
  options.foldl (fun c o => o.change hostname c) c

theorem applyAll_eq (hostname : String) (options : List ConfigOption) (c : Config) :
    applyAll (.ok hostname) options c = (c.withAll hostname options, .ok ()) := by
  induction options generalizing c with
  | nil => rfl
  | cons o options ih =>
      rw [applyAll, o.apply_eq]
      exact ih (o.change hostname c)

theorem configured_eq (hostname : String) (options : List ConfigOption) (c : Config) :
    c.configured (.ok hostname) options =
      (c.withAll hostname options).validate.map fun () => c.withAll hostname options := by
  rw [configured, applyAll_eq]

end Config

/-! ### Making loggers -/

/-- Whether a logger with the configuration `c` can be made is decided by the keys of `c` alone: it is
made if they are there, and otherwise the first that is missing is blamed. -/
structure Decided (made : Except LogError Logger) (c : Config) : Prop where
  ok_iff : (∃ l, made = .ok l) ↔ c.Keyed
  config_eq : ∀ l, made = .ok l → l.config = c
  error_iff : ∀ e, made = .error e ↔ ∃ member, c.Blames member ∧ e = .emptyKey member

/-- Checking a configuration before a logger is made of it decides. -/
theorem decided_validate {c : Config} {make : Unit → Logger} (hmake : (make ()).config = c) :
    Decided (c.validate.map make) c where
  ok_iff := by
    rw [← Config.validate_eq_ok_iff]
    cases c.validate <;> simp [Except.map]
  config_eq l h := by
    obtain ⟨⟨⟩, -, rfl⟩ := map_eq_ok h
    exact hmake
  error_iff e := by
    rw [← Config.validate_eq_error_iff]
    cases c.validate <;> simp [Except.map]

/-- So does applying options and then checking. -/
theorem decided_configured (hostname : String) (options : List ConfigOption) (start : Config)
    {make : Config → Logger} (hmake : ∀ c, (make c).config = c) :
    Decided ((start.configured (.ok hostname) options).map make) (start.withAll hostname options) := by
  have hmap : (start.configured (.ok hostname) options).map make =
      (start.withAll hostname options).validate.map fun () => make (start.withAll hostname options) := by
    rw [Config.configured_eq]
    cases (start.withAll hostname options).validate <;> rfl
  rw [hmap]
  exact decided_validate (hmake _)

/-- The configuration of a logger that can be obtained has its keys. -/
theorem Logger.Obtained.keyed {l : Logger} (h : l.Obtained) : l.config.Keyed :=
  Config.validate_eq_ok_iff.1 h.validate

/-! ### Loggers of a session -/

namespace Session

/-- All loggers of the session can be obtained. -/
def AllObtained (s : Session) : Prop :=
  ∀ l ∈ s.loggers, l.Obtained

namespace AllObtained

variable {s : Session}

theorem logger? (h : s.AllObtained) {id : LoggerId} {l : Logger} (hl : s.logger? id = some l) :
    l.Obtained :=
  h l (List.mem_of_getElem? hl)

theorem act (h : s.AllObtained) (a : Action) : (s.act a).1.AllObtained := by
  have hloggers := (s.effect_act a).loggers
  rw [AllObtained]
  generalize (s.act a).1.loggers = loggers at hloggers ⊢
  cases hloggers with
  | same => exact h
  | created origin hl =>
      rw [List.forall_mem_append, List.forall_mem_singleton]
      exact ⟨h, .made s.hostname origin hl⟩
  | derived hsource how hl =>
      rw [List.forall_mem_append, List.forall_mem_singleton]
      exact ⟨h, .derived (h.logger? hsource) _ _ how hl⟩
  | named hid entry hl =>
      intro m hm
      rcases List.mem_or_eq_of_mem_set hm with hold | rfl
      · exact h m hold
      · exact .named (h.logger? hid) entry hl

theorem acts (h : s.AllObtained) (actions : List Action) : (s.acts actions).1.AllObtained := by
  induction actions generalizing s with
  | nil => exact h
  | cons a actions ih => exact ih (h.act a)

end AllObtained

/-! ### Failures -/

/-- A logger that cannot be created leaves everything as it was. -/
theorem act_create_of_error {s : Session} {origin : Origin} {e : LogError}
    (h : origin.make s.hostname = .error e) : s.act (.create origin) = (s, .logger none) := by
  rw [act, h]
  rfl

/-- A logger that cannot be derived leaves everything as it was, its source included. -/
theorem act_derive_of_error {s : Session} {source : LoggerId} {l : Logger} {how : Derivation}
    {e : LogError} (hl : s.logger? source = some l)
    (h : how.apply s.hostname s.fallbackFormat l = .error e) (now : Time.Instant)
    (stack : List StackSymbol) :
    s.act (.derive source now stack how) = (s.atTime now, .logger none) := by
  have hat : (s.atTime now).logger? source = some l := hl
  have hderive : (s.atTime now).derive source stack how = (s.atTime now, none) := by
    rw [derive_eq hat]
    -- Only options can fail, and they hold no objects to complain about.
    cases how with
    | options options =>
        show (s.atTime now).keep (l.renew s.hostname options) = _
        have hrenew : l.renew s.hostname options = .error e := h
        rw [hrenew]
        rfl
    | copy | fields | sink | skip => cases h
  rw [act, hderive]

/-- **No logger has an enabled block without a key.** That holds of every logger that can be obtained,
and so of all loggers of a session, whatever a program does. Where the host name is known, a logger is
made exactly if the configuration that its options come to has all its keys, and otherwise the first
block without one is blamed. Where none is made, nothing changes. -/
theorem keyed_acts (hostname : String) :
    (∀ l : Logger, l.Obtained → l.config.Keyed) ∧
    (∀ (s : Session) (actions : List Action), s.AllObtained → (s.acts actions).1.AllObtained) ∧
    (∀ sink c, Decided (Logger.withConfig sink c) c) ∧
    (∀ sink options base, Decided (Logger.create (.ok hostname) sink options base)
      ((base.getD (.withSystemHostname (.ok hostname))).withAll hostname options)) ∧
    (∀ (l : Logger) options,
      Decided (l.renew (.ok hostname) options) (l.config.withAll hostname options)) ∧
    (∀ (s : Session) origin e, origin.make s.hostname = .error e →
      s.act (.create origin) = (s, .logger none)) ∧
    (∀ (s : Session) source l how e, s.logger? source = some l →
      how.apply s.hostname s.fallbackFormat l = .error e → ∀ now stack,
        s.act (.derive source now stack how) = (s.atTime now, .logger none)) := by
  refine ⟨?_, ?_, ?_, ?_, ?_, ?_, ?_⟩
  · intro l hl
    exact hl.keyed
  · intro s actions hs
    exact hs.acts actions
  · intro sink c
    exact decided_validate rfl
  · intro sink options base
    exact decided_configured hostname options _ fun _ => rfl
  · intro l options
    exact decided_configured hostname options _ fun _ => rfl
  · intro s origin e h
    exact act_create_of_error h
  · intro s source l how e hl h now stack
    exact act_derive_of_error hl h now stack

/-- The logger that a process has from its start. -/
def processLogger : Logger where
  config := .withSystemHostname (.ok "host")
  sink := 0

/-- The key of the message is taken away and given back, and the caller is switched off. -/
def refilled : List ConfigOption :=
  [.messageKey "", .callerKey "", .messageKey "text", .useCaller false]

/-- Two blocks lose their keys and a third one, which comes before them, is off. -/
def emptied : List ConfigOption :=
  [.messageKey "", .severityKey "", .callerKey "", .useSeverity false]

/-- What counts is where options end, and the caller comes before the message. -/
theorem keyed_acts_refilled :
    (∃ l, processLogger.renew (.ok "host") refilled = .ok l) ∧
      processLogger.renew (.ok "host") emptied = .error (.emptyKey "caller_field_key") := by
  obtain ⟨-, -, -, -, hrenew, -, -⟩ := keyed_acts "host"
  refine ⟨(hrenew processLogger refilled).ok_iff.2 (by decide), ?_⟩
  refine ((hrenew processLogger emptied).error_iff _).2 ⟨"caller_field_key", ?_, rfl⟩
  exact ⟨(processLogger.config.withAll "host" emptied).blocks.take 3, ⟨true, ""⟩,
    (processLogger.config.withAll "host" emptied).blocks.drop 4, rfl, by decide, by decide⟩

end Session
end LineLog
