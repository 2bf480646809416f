import LineLog.Proofs.Logger.Keys
/-!
# LineLog.Proofs.Config.Option

What options make of a configuration, member by member.

Every member but the skip is a `Slot`: it holds what the last option gave it that gives it anything
(`Slot.get_withAll`). The skip is a sum, which stops at the largest word (`callerSkip_withAll`). The two
together say all there is to say about the configuration that is reached (`Reached.unique`), so whatever
leaves them alone, as an exchange of options with different slots does, changes nothing.

Design points:

* What one option does is said once, for every option and every slot (`Slot.get_change`). That an option
  leaves the other slots as they are is the case in which it gives nothing.
* Only looking up the host name can fail. Options before the first that asks for it are applied as if
  it were known, whatever it were (`applyAll_of_unasked`).
-/

namespace LineLog.Config

/-! ### Slots -/

/-- The members of a configuration that options overwrite. -/
inductive Slot
  | useTimestamp
  | timestampKey
  | timestampFormat
  | useSeverity
  | severityKey
  | threshold
  | uppercaseSeverity
  | useHostname
  | hostnameKey
  | hostnameValue
  | useCaller
  | callerKey
  | shortCaller
  | useMessage
  | messageKey
  | lineSeparator
  deriving DecidableEq

namespace Slot

/-- What a member holds. -/
abbrev Value : Slot → Type
  | useTimestamp | useSeverity | uppercaseSeverity | useHostname | useCaller | shortCaller
  | useMessage => Bool
  | timestampKey | severityKey | hostnameKey | hostnameValue | callerKey | messageKey
  | lineSeparator => String
  | timestampFormat => Time.Format
  | threshold => Severity

/-- The member of a configuration. -/
def get (c : Config) : (m : Slot) → m.Value
  | useTimestamp => c.timestamp.enabled
  | timestampKey => c.timestamp.key
  | timestampFormat => c.timestampFormat
  | useSeverity => c.severity.enabled
  | severityKey => c.severity.key
  | threshold => c.threshold
  | uppercaseSeverity => c.uppercaseSeverity
  | useHostname => c.hostname.enabled
  | hostnameKey => c.hostname.key
  | hostnameValue => c.hostnameValue
  | useCaller => c.caller.enabled
  | callerKey => c.caller.key
  | shortCaller => c.shortCaller
  | useMessage => c.message.enabled
  | messageKey => c.message.key
  | lineSeparator => c.lineSeparator

/-- What an option gives to a member, where the system's host name is `hostname`. The switch of the
host name gives to two of them. -/
def given? (hostname : String) : (m : Slot) → ConfigOption → Option m.Value
  | useTimestamp, .useTimestamp on => some on
  | timestampKey, .timestampKey key => some key
  | timestampFormat, .timestampFormat format => some format
  | useSeverity, .useSeverity on => some on
  | severityKey, .severityKey key => some key
  | threshold, .threshold severity => some severity
  | uppercaseSeverity, .uppercaseSeverity on => some on
  | useHostname, .useHostname on => some on
  | hostnameKey, .hostnameKey key => some key
  | hostnameValue, .hostnameValue name => some name
  | hostnameValue, .useHostname _ => some hostname
  | useCaller, .useCaller on => some on
  | callerKey, .callerKey key => some key
  | shortCaller, .shortCaller on => some on
  | useMessage, .useMessage on => some on
  | messageKey, .messageKey key => some key
  | lineSeparator, .lineSeparator separator => some separator
  | _, _ => none

/-- **One option**: a member holds what it is given, or else what it held before. -/
theorem get_change (hostname : String) (o : ConfigOption) (c : Config) (m : Slot) :
    m.get (o.change hostname c) = (m.given? hostname o).getD (m.get c) := by
  cases o <;> cases m <;> rfl

/-- **All options**: a member holds the last of what it is given, or else what it held at the start. -/
theorem get_withAll (hostname : String) (options : List ConfigOption) (c : Config) (m : Slot) :
    m.get (c.withAll hostname options) =
      (options.filterMap (m.given? hostname)).getLastD (m.get c) := by
  induction options generalizing c with
  | nil => rfl
  | cons o options ih =>
      show m.get ((o.change hostname c).withAll hostname options) = _
      rw [ih, get_change]
      cases hgiven : m.given? hostname o with
      | none => rw [List.filterMap_cons_none hgiven, Option.getD_none]
      | some v => rw [List.filterMap_cons_some hgiven, List.getLastD_cons, Option.getD_some]

end Slot

/-! ### The skip -/

/-- How many frames an option adds to the skip. -/
def added : ConfigOption → Nat
  | .callerSkip n => n.toNat
  | _ => 0

theorem callerSkip_change (hostname : String) (o : ConfigOption) (c : Config) :
    (o.change hostname c).callerSkip.toNat =
      min (c.callerSkip.toNat + added o) (UInt64.size - 1) := by
  have hword : c.callerSkip.toNat < UInt64.size := c.callerSkip.toNat_lt_size
  cases o with
  | callerSkip n => exact toNat_addSkip c.callerSkip n
  | _ =>
      show c.callerSkip.toNat = min (c.callerSkip.toNat + 0) (UInt64.size - 1)
      omega

/-- Wherever the largest word is reached, the skip stays there. -/
theorem callerSkip_withAll (hostname : String) (options : List ConfigOption) (c : Config) :
    (c.withAll hostname options).callerSkip.toNat =
      min (c.callerSkip.toNat + (options.map added).sum) (UInt64.size - 1) := by
  induction options generalizing c with
  | nil =>
      have hword : c.callerSkip.toNat < UInt64.size := c.callerSkip.toNat_lt_size
      show c.callerSkip.toNat = min (c.callerSkip.toNat + 0) (UInt64.size - 1)
      omega
  | cons o options ih =>
      show ((o.change hostname c).withAll hostname options).callerSkip.toNat = _
      rw [ih, callerSkip_change, List.map_cons, List.sum_cons]
      omega

/-! ### The configuration that is reached -/

/-- The configuration that options make of `start`, member by member. -/
structure Reached (hostname : String) (options : List ConfigOption) (start final : Config) : Prop where
  slot : ∀ m : Slot, m.get final = (options.filterMap (m.given? hostname)).getLastD (m.get start)
  skip : final.callerSkip.toNat =
    min (start.callerSkip.toNat + (options.map added).sum) (UInt64.size - 1)

theorem reached_withAll (hostname : String) (options : List ConfigOption) (c : Config) :
    Reached hostname options c (c.withAll hostname options) :=
  ⟨Slot.get_withAll hostname options c, callerSkip_withAll hostname options c⟩

/-- The configuration with the given members. -/
def ofSlots (value : (m : Slot) → m.Value) (skip : SkipCount) : Config where
  timestamp := ⟨value .useTimestamp, value .timestampKey⟩
  timestampFormat := value .timestampFormat
  severity := ⟨value .useSeverity, value .severityKey⟩
  threshold := value .threshold
  uppercaseSeverity := value .uppercaseSeverity
  hostname := ⟨value .useHostname, value .hostnameKey⟩
  hostnameValue := value .hostnameValue
  caller := ⟨value .useCaller, value .callerKey⟩
  shortCaller := value .shortCaller
  callerSkip := skip
  message := ⟨value .useMessage, value .messageKey⟩
  lineSeparator := value .lineSeparator

theorem ofSlots_get (c : Config) : ofSlots (fun m => m.get c) c.callerSkip = c := rfl

/-- The slots and the skip are all that there is to a configuration. -/
theorem eq_of_slots {a b : Config} (hslot : ∀ m : Slot, m.get a = m.get b)
    (hskip : a.callerSkip = b.callerSkip) : a = b := by
  rw [← ofSlots_get a, ← ofSlots_get b, funext hslot, hskip]

theorem Reached.unique {hostname : String} {options : List ConfigOption} {c c₁ c₂ : Config}
    (h₁ : Reached hostname options c c₁) (h₂ : Reached hostname options c c₂) : c₁ = c₂ :=
  eq_of_slots (fun m => (h₁.slot m).trans (h₂.slot m).symm)
    (UInt64.toNat_inj.1 (h₁.skip.trans h₂.skip.symm))

/-- The same values in the same order for each slot, and the same options altogether, come to the same. -/
theorem Reached.of_perm {hostname : String} {options others : List ConfigOption} {c c' : Config}
    (h : Reached hostname options c c') (hperm : options.Perm others)
    (hgiven : ∀ m : Slot, options.filterMap (m.given? hostname) =
      others.filterMap (m.given? hostname)) : Reached hostname others c c' where
  slot m := by rw [← hgiven]; exact h.slot m
  skip := by rw [← (hperm.map added).sum_nat]; exact h.skip

/-- Neighbours that give nothing to the same slot may be exchanged. -/
theorem filterMap_exchange {hostname : String} {a b : ConfigOption}
    (h : ∀ m : Slot, m.given? hostname a = none ∨ m.given? hostname b = none)
    (before after : List ConfigOption) (m : Slot) :
    (before ++ a :: b :: after).filterMap (m.given? hostname) =
      (before ++ b :: a :: after).filterMap (m.given? hostname) := by
  rw [List.filterMap_append, List.filterMap_append]
  rcases h m with ha | hb
  · cases hb : m.given? hostname b <;> simp [ha, hb]
  · cases ha : m.given? hostname a <;> simp [ha, hb]

/-! ### Looking up the host name -/

/-- An option that does not ask for the host name does the same whether or not there is one. -/
theorem apply_of_unasked {o : ConfigOption} (h : ∀ on, o ≠ .useHostname on)
    (answer : Except IoError String) (hostname : String) (c : Config) :
    o.apply answer c = .ok (o.change hostname c) := by
  cases o with
  | useHostname on => exact absurd rfl (h on)
  | _ => rfl

theorem applyAll_of_unasked {options : List ConfigOption}
    (h : ∀ o ∈ options, ∀ on, o ≠ .useHostname on) (answer : Except IoError String)
    (hostname : String) (c : Config) :
    applyAll answer options c = (c.withAll hostname options, .ok ()) := by
  induction options generalizing c with
  | nil => rfl
  | cons o options ih =>
      rw [applyAll, apply_of_unasked (h o (.head _)) answer hostname]
      exact ih (fun o ho => h o (.tail _ ho)) (o.change hostname c)

/-- Nor does it matter what the host name would be. -/
theorem reached_of_unasked {options : List ConfigOption}
    (h : ∀ o ∈ options, ∀ on, o ≠ .useHostname on) (hostname other : String) (c : Config) :
    Reached other options c (c.withAll hostname options) := by
  have hname := applyAll_of_unasked h (.ok hostname) hostname c
  have hother := applyAll_of_unasked h (.ok hostname) other c
  rw [hname] at hother
  rw [(Prod.mk.inj hother).1]
  exact reached_withAll other options c

/-- If the host name is not known, the first option that asks for it is the last one that is looked at. -/
theorem applyAll_of_asked {before : List ConfigOption}
    (h : ∀ o ∈ before, ∀ on, o ≠ .useHostname on) (e : IoError) (hostname : String) (on : Bool)
    (after : List ConfigOption) (c : Config) :
    applyAll (.error e) (before ++ .useHostname on :: after) c =
      (c.withAll hostname before, .error (.optionFailed "UseHostnameField" (.hostnameLookup e))) := by
  rw [applyAll_append _ (applyAll_of_unasked h (.error e) hostname c)]
  rfl

/-- **Options apply in order, member by member.** Where the host name is known, every option is applied,
and a member holds the last of what the options give it or else what it held; the skip is the old one
and all that is added to it, up to the largest word. That determines the configuration. So options may
stand in any order in which each member is given the same values one after the other; in particular,
neighbours may be exchanged that give nothing to the same member, as options that only add to the skip
are. Where the host name is not known, the first option that asks for it fails, by its name and with
the failure of the look-up, and what is reached is what the options before it make. -/
theorem applyAll_reached (c : Config) (options : List ConfigOption) :
    (∀ hostname, ∃ c', applyAll (.ok hostname) options c = (c', .ok ()) ∧
      Reached hostname options c c') ∧
    (∀ hostname c₁ c₂, Reached hostname options c c₁ → Reached hostname options c c₂ → c₁ = c₂) ∧
    (∀ hostname others, options.Perm others →
      (∀ m : Slot, options.filterMap (m.given? hostname) = others.filterMap (m.given? hostname)) →
      applyAll (.ok hostname) others c = applyAll (.ok hostname) options c) ∧
    (∀ hostname before a b after, options = before ++ a :: b :: after →
      (∀ m : Slot, m.given? hostname a = none ∨ m.given? hostname b = none) →
      applyAll (.ok hostname) (before ++ b :: a :: after) c = applyAll (.ok hostname) options c) ∧
    (∀ e before on after, options = before ++ .useHostname on :: after →
      (∀ o ∈ before, ∀ on, o ≠ .useHostname on) →
      ∃ c', applyAll (.error e) options c =
          (c', .error (.optionFailed "UseHostnameField" (.hostnameLookup e))) ∧
        ∀ hostname, Reached hostname before c c') ∧
    (∀ e, (∀ o ∈ options, ∀ on, o ≠ .useHostname on) →
      ∃ c', applyAll (.error e) options c = (c', .ok ()) ∧
        ∀ hostname, Reached hostname options c c') := by
  -- A rearrangement reaches what the options reach, and there is only one such configuration.
  have hrearranged : ∀ hostname others, options.Perm others →
      (∀ m : Slot, options.filterMap (m.given? hostname) = others.filterMap (m.given? hostname)) →
      applyAll (.ok hostname) others c = applyAll (.ok hostname) options c := by
    intro hostname others hperm hgiven
    have hothers := (reached_withAll hostname options c).of_perm hperm hgiven
    rw [applyAll_eq, applyAll_eq, hothers.unique (reached_withAll hostname others c)]
  refine ⟨?_, ?_, hrearranged, ?_, ?_, ?_⟩
  · intro hostname
    exact ⟨_, applyAll_eq hostname options c, reached_withAll hostname options c⟩
  · intro hostname c₁ c₂ h₁ h₂
    exact h₁.unique h₂
  · rintro hostname before a b after rfl h
    exact hrearranged hostname _ ((List.Perm.swap b a after).append_left before)
      (filterMap_exchange h before after)
  · rintro e before on after rfl h
    exact ⟨_, applyAll_of_asked h e "" on after c, fun hostname => reached_of_unasked h "" hostname c⟩
  · intro e h
    exact ⟨_, applyAll_of_unasked h (.error e) "" c, fun hostname => reached_of_unasked h "" hostname c⟩

/-- The host name is set, and then asked for by an option that switches it off. The skip passes the
largest word on the way. -/
def crossing : List ConfigOption :=
  [.hostnameValue "mine", .callerSkip 0xFFFFFFFFFFFFFFFF, .messageKey "m", .useHostname false,
    .callerSkip 1, .messageKey "text"]

/-- The same, with the skips the other way round and before everything else. -/
def crossingBack : List ConfigOption :=
  [.callerSkip 1, .callerSkip 0xFFFFFFFFFFFFFFFF, .hostnameValue "mine", .messageKey "m",
    .useHostname false, .messageKey "text"]

theorem applyAll_reached_crossing :
    (∃ c, applyAll (.ok "host") crossing {} = (c, .ok ()) ∧ c.hostnameValue = "host" ∧
      c.hostname.enabled = false ∧ c.message.key = "text" ∧ c.callerSkip.toNat = 2 ^ 64 - 1) ∧
    applyAll (.ok "host") crossingBack {} = applyAll (.ok "host") crossing {} ∧
    (∃ c, applyAll (.error ⟨"gone"⟩) crossing {} =
        (c, .error (.optionFailed "UseHostnameField" (.hostnameLookup ⟨"gone"⟩))) ∧
      c.hostnameValue = "mine" ∧ c.message.key = "m") := by
  obtain ⟨hok, -, hrearranged, -, hfails, -⟩ := applyAll_reached {} crossing
  refine ⟨?_, ?_, ?_⟩
  · obtain ⟨c, hc, hreached⟩ := hok "host"
    exact ⟨c, hc, hreached.slot .hostnameValue, hreached.slot .useHostname,
      hreached.slot .messageKey, hreached.skip⟩
  · refine hrearranged "host" crossingBack (by decide) fun m => ?_
    cases m <;> rfl
  · obtain ⟨c, hc, hreached⟩ := hfails ⟨"gone"⟩ (crossing.take 3) false (crossing.drop 4) rfl
      (by simp [crossing])
    exact ⟨c, hc, (hreached "").slot .hostnameValue, (hreached "").slot .messageKey⟩

end LineLog.Config
