import LineLog.Logger
import Mathlib.Data.List.Nodup
/-!
# LineLog.Proofs.Severity.Registry

The names of levels stay consistent, whatever is registered.

A registration meets one of four fates, which `Registry.register_cases` lists once: an empty
name in lower case, an empty name in upper case, a clash with an entry, or success with one
more entry at the end. `Registry.Consistent` is what every registration keeps: the built-in
entries are there, no name is empty, and no level and no name occurs twice.

Design points:

* The order of the entries stands for the order in which a map hands them out. It decides
  which of several clashes is named, and nothing else (`Registry.register_perm`).
* Registries come up by creation and by cloning, and each has a history of its own from then
  on. A `Registration` names the registry that it concerns by its number.
-/

namespace LineLog

namespace Severity

/-- The built-in level of a number is the one that has it. -/
theorem builtin?_eq_some_iff {s : Severity} {b : Builtin} :
    s.builtin? = some b ↔ b.severity = s := by
  constructor
  · intro h
    simpa using List.find?_some h
  · rintro rfl
    cases b <;> rfl

end Severity

namespace Registry

/-! ### One registration -/

/-- The entry can be added: its names say something, and it shares nothing with another entry. -/
structure Admits (r : Registry) (new : SeverityEntry) : Prop where
  lowercase_ne : new.lowercase ≠ ""
  uppercase_ne : new.uppercase ≠ ""
  level_free : ∀ e ∈ r.entries, e.severity ≠ new.severity
  lowercase_free : ∀ e ∈ r.entries, e.lowercase ≠ new.lowercase
  uppercase_free : ∀ e ∈ r.entries, e.uppercase ≠ new.uppercase

/-- The registered entry `old` stands in the way of `new`, in the way that `clash` says. -/
inductive Blocks (old new : SeverityEntry) : Clash → Prop
  | level (h : old.severity = new.severity) : Blocks old new (.level new.severity)
  | lowercase (h : old.lowercase = new.lowercase) : Blocks old new (.lowercase new.lowercase)
  | uppercase (h : old.uppercase = new.uppercase) : Blocks old new (.uppercase new.uppercase)

theorem blocks_of_clash? {new old : SeverityEntry} {clash : Clash}
    (h : clash? new old = some clash) : Blocks old new clash := by
  unfold clash? at h
  split at h
  · cases h
    exact .level ‹_›
  · split at h
    · cases h
      exact .lowercase ‹_›
    · split at h
      · cases h
        exact .uppercase ‹_›
      · cases h

theorem clash?_eq_none_iff {new old : SeverityEntry} :
    clash? new old = none ↔ old.severity ≠ new.severity ∧ old.lowercase ≠ new.lowercase ∧
      old.uppercase ≠ new.uppercase := by
  unfold clash?
  split
  · simp_all
  · split
    · simp_all
    · split <;> simp_all

/-- An entry that stands in the way keeps the new one out. -/
theorem Blocks.not_admits {r : Registry} {old new : SeverityEntry} {clash : Clash}
    (h : Blocks old new clash) (hold : old ∈ r.entries) : ¬ r.Admits new := by
  intro hadmits
  cases h with
  | level h => exact hadmits.level_free old hold h
  | lowercase h => exact hadmits.lowercase_free old hold h
  | uppercase h => exact hadmits.uppercase_free old hold h

/-- What can become of a registration, in the order in which it is checked. -/
theorem register_cases (r : Registry) (new : SeverityEntry) :
    (new.lowercase = "" ∧ r.register new = .error .lowercaseEmpty) ∨
    (new.lowercase ≠ "" ∧ new.uppercase = "" ∧ r.register new = .error .uppercaseEmpty) ∨
    (new.lowercase ≠ "" ∧ new.uppercase ≠ "" ∧ ∃ old ∈ r.entries, ∃ clash, Blocks old new clash ∧
      r.register new = .error (.severityExists clash.what)) ∨
    (r.Admits new ∧ r.register new = .ok ⟨r.entries ++ [new]⟩) := by
  by_cases hlower : new.lowercase = ""
  · exact .inl ⟨hlower, by rw [register, if_pos hlower]⟩
  · by_cases hupper : new.uppercase = ""
    · exact .inr (.inl ⟨hlower, hupper, by rw [register, if_neg hlower, if_pos hupper]⟩)
    · cases hfind : r.entries.findSome? (clash? new) with
      | some clash =>
          obtain ⟨old, hold, hclash⟩ := List.exists_of_findSome?_eq_some hfind
          refine .inr (.inr (.inl ⟨hlower, hupper, old, hold, clash, blocks_of_clash? hclash, ?_⟩))
          rw [register, if_neg hlower, if_neg hupper, hfind]
      | none =>
          have hfree : ∀ e ∈ r.entries, clash? new e = none := List.findSome?_eq_none_iff.1 hfind
          refine .inr (.inr (.inr ⟨⟨hlower, hupper, ?_, ?_, ?_⟩, ?_⟩))
          · intro e he
            exact (clash?_eq_none_iff.1 (hfree e he)).1
          · intro e he
            exact (clash?_eq_none_iff.1 (hfree e he)).2.1
          · intro e he
            exact (clash?_eq_none_iff.1 (hfree e he)).2.2
          · rw [register, if_neg hlower, if_neg hupper, hfind]

/-- A registration succeeds exactly if the entry can be added, and then adds it. -/
theorem register_eq_ok_iff {r r' : Registry} {new : SeverityEntry} :
    r.register new = .ok r' ↔ r.Admits new ∧ r' = ⟨r.entries ++ [new]⟩ := by
  rcases register_cases r new with ⟨hempty, h⟩ | ⟨-, hempty, h⟩ | ⟨-, -, old, hold, clash, hblocks, h⟩ |
    ⟨hadmits, h⟩
  · rw [h]
    constructor
    · intro hok
      cases hok
    · rintro ⟨hadmits, -⟩
      exact absurd hempty hadmits.lowercase_ne
  · rw [h]
    constructor
    · intro hok
      cases hok
    · rintro ⟨hadmits, -⟩
      exact absurd hempty hadmits.uppercase_ne
  · rw [h]
    constructor
    · intro hok
      cases hok
    · rintro ⟨hadmits, -⟩
      exact absurd hadmits (hblocks.not_admits hold)
  · rw [h]
    constructor
    · rintro ⟨⟩
      exact ⟨hadmits, rfl⟩
    · rintro ⟨-, rfl⟩
      rfl

/-! ### The order of entries -/

/-- The outcomes are of one kind, and registries among them hold the same entries. -/
inductive Agree : Except LogError Registry → Except LogError Registry → Prop
  | registered {a b : Registry} (h : a.entries.Perm b.entries) : Agree (.ok a) (.ok b)
  | lowercaseEmpty : Agree (.error .lowercaseEmpty) (.error .lowercaseEmpty)
  | uppercaseEmpty : Agree (.error .uppercaseEmpty) (.error .uppercaseEmpty)
  | severityExists (a b : String) : Agree (.error (.severityExists a)) (.error (.severityExists b))

theorem Admits.of_perm {a b : Registry} (h : a.entries.Perm b.entries) {new : SeverityEntry}
    (hadmits : a.Admits new) : b.Admits new := by
  refine ⟨hadmits.lowercase_ne, hadmits.uppercase_ne, ?_, ?_, ?_⟩
  · intro e he
    exact hadmits.level_free e (h.mem_iff.2 he)
  · intro e he
    exact hadmits.lowercase_free e (h.mem_iff.2 he)
  · intro e he
    exact hadmits.uppercase_free e (h.mem_iff.2 he)

/-- Which entry is met first plays no part in whether a registration succeeds, in the kind of its
error, or in what it adds. -/
theorem register_perm {a b : Registry} (h : a.entries.Perm b.entries) (new : SeverityEntry) :
    Agree (a.register new) (b.register new) := by
  rcases register_cases a new with ⟨hlower, ha⟩ | ⟨hlower, hupper, ha⟩ |
    ⟨hlower, hupper, old, hold, clash, hblocks, ha⟩ | ⟨hadmits, ha⟩
  · have hb : b.register new = .error .lowercaseEmpty := by rw [register, if_pos hlower]
    rw [ha, hb]
    exact .lowercaseEmpty
  · have hb : b.register new = .error .uppercaseEmpty := by
      rw [register, if_neg hlower, if_pos hupper]
    rw [ha, hb]
    exact .uppercaseEmpty
  · have hrefused : ¬ b.Admits new := hblocks.not_admits (h.mem_iff.1 hold)
    rcases register_cases b new with ⟨hempty, -⟩ | ⟨-, hempty, -⟩ | ⟨-, -, -, -, clash', -, hb⟩ |
      ⟨hadmits, -⟩
    · exact absurd hempty hlower
    · exact absurd hempty hupper
    · rw [ha, hb]
      exact .severityExists _ _
    · exact absurd hadmits hrefused
  · have hb : b.register new = .ok ⟨b.entries ++ [new]⟩ :=
      register_eq_ok_iff.2 ⟨hadmits.of_perm h, rfl⟩
    rw [ha, hb]
    exact .registered (h.append_right [new])

/-! ### The invariant -/

/-- The registry names levels consistently. -/
structure Consistent (r : Registry) : Prop where
  builtin : ∀ b : Builtin, b.entry ∈ r.entries
  lowercase_ne : ∀ e ∈ r.entries, e.lowercase ≠ ""
  uppercase_ne : ∀ e ∈ r.entries, e.uppercase ≠ ""
  levels : (r.entries.map SeverityEntry.severity).Nodup
  lowercases : (r.entries.map SeverityEntry.lowercase).Nodup
  uppercases : (r.entries.map SeverityEntry.uppercase).Nodup

theorem consistent_builtin : Registry.builtin.Consistent where
  builtin b := by cases b <;> decide
  lowercase_ne := by decide
  uppercase_ne := by decide
  levels := by decide
  lowercases := by decide
  uppercases := by decide

theorem nodup_map_concat {α β : Type} {f : α → β} {xs : List α} {x : α} (h : (xs.map f).Nodup)
    (hx : ∀ y ∈ xs, f y ≠ f x) : ((xs ++ [x]).map f).Nodup := by
  have hfresh : f x ∉ xs.map f := by
    intro hmem
    obtain ⟨y, hy, heq⟩ := List.mem_map.1 hmem
    exact hx y hy heq
  rw [List.map_append, List.map_singleton, ← List.concat_eq_append]
  exact h.concat hfresh

/-- A registration that succeeds keeps the names consistent. -/
theorem Consistent.register {r r' : Registry} (h : r.Consistent) {new : SeverityEntry}
    (hr : r.register new = .ok r') : r'.Consistent := by
  obtain ⟨hadmits, rfl⟩ := register_eq_ok_iff.1 hr
  constructor
  · intro b
    exact List.mem_append_left _ (h.builtin b)
  · intro e he
    rcases List.mem_append.1 he with he | he
    · exact h.lowercase_ne e he
    · obtain rfl := List.mem_singleton.1 he
      exact hadmits.lowercase_ne
  · intro e he
    rcases List.mem_append.1 he with he | he
    · exact h.uppercase_ne e he
    · obtain rfl := List.mem_singleton.1 he
      exact hadmits.uppercase_ne
  · exact nodup_map_concat h.levels hadmits.level_free
  · exact nodup_map_concat h.lowercases hadmits.lowercase_free
  · exact nodup_map_concat h.uppercases hadmits.uppercase_free

theorem Consistent.of_perm {a b : Registry} (h : a.Consistent) (hperm : a.entries.Perm b.entries) :
    b.Consistent where
  builtin level := hperm.mem_iff.1 (h.builtin level)
  lowercase_ne e he := h.lowercase_ne e (hperm.mem_iff.2 he)
  uppercase_ne e he := h.uppercase_ne e (hperm.mem_iff.2 he)
  levels := (hperm.map _).nodup_iff.1 h.levels
  lowercases := (hperm.map _).nodup_iff.1 h.lowercases
  uppercases := (hperm.map _).nodup_iff.1 h.uppercases

/-! ### Names -/

section Names

variable {r : Registry} (h : r.Consistent)

include h

/-- A level has one entry. -/
theorem Consistent.find?_eq {e : SeverityEntry} (he : e ∈ r.entries) :
    r.find? e.severity = some e := by
  have hsome : (r.find? e.severity).isSome := by
    rw [find?, List.find?_isSome]
    exact ⟨e, he, by simp⟩
  obtain ⟨e', he'⟩ := Option.isSome_iff_exists.1 hsome
  have hmem : e' ∈ r.entries := List.mem_of_find?_eq_some he'
  have hlevel : e'.severity = e.severity := by simpa using List.find?_some he'
  rw [he', List.inj_on_of_nodup_map h.levels hmem he hlevel]

/-- A level with an entry is called by it, built in or not. -/
theorem Consistent.name_of_mem {e : SeverityEntry} (he : e ∈ r.entries) (upper : Bool) :
    r.name e.severity upper = e.name upper := by
  rw [name, Severity.builtinName?]
  cases hb : e.severity.builtin? with
  | none => simp [h.find?_eq he]
  | some b =>
      -- The entry of a built-in level is the built-in one, since there is only one.
      have hlevel : b.entry.severity = e.severity := Severity.builtin?_eq_some_iff.1 hb
      have hfound : r.find? b.entry.severity = some b.entry := h.find?_eq (h.builtin b)
      rw [hlevel, h.find?_eq he] at hfound
      obtain rfl := Option.some.inj hfound
      cases upper <;> rfl

/-- A level without an entry is called by its number. -/
theorem Consistent.name_of_absent {s : Severity} (hs : ∀ e ∈ r.entries, e.severity ≠ s)
    (upper : Bool) : r.name s upper = String.ofList s.number := by
  have hfind : r.find? s = none := by
    rw [find?, List.find?_eq_none]
    intro e he
    simpa using hs e he
  rw [name, Severity.builtinName?]
  cases hb : s.builtin? with
  | none => simp [hfind]
  | some b => exact absurd (Severity.builtin?_eq_some_iff.1 hb) (hs b.entry (h.builtin b))

/-- The order of the entries plays no part in names. -/
theorem Consistent.name_perm {order : List SeverityEntry} (hperm : order.Perm r.entries)
    (s : Severity) (upper : Bool) : (Registry.mk order).name s upper = r.name s upper := by
  have horder : (Registry.mk order).Consistent := h.of_perm hperm.symm
  by_cases hs : ∃ e ∈ r.entries, e.severity = s
  · obtain ⟨e, he, rfl⟩ := hs
    rw [h.name_of_mem he, horder.name_of_mem (hperm.mem_iff.2 he)]
  · have habsent : ∀ e ∈ r.entries, e.severity ≠ s := fun e he heq => hs ⟨e, he, heq⟩
    rw [h.name_of_absent habsent, horder.name_of_absent]
    intro e he
    exact habsent e (hperm.mem_iff.1 he)

end Names
/-- A record's name of a level is the registry's. -/
theorem severityName_eq (l : Logger) (s : Severity) :
    l.severityName s = l.severities.name s l.config.uppercaseSeverity := by
  rw [Logger.severityName, name]
  cases s.builtinName? l.config.uppercaseSeverity with
  | none => rfl
  | some name => rfl

/-! ### Runs of registrations -/

/-- The registry after a registration, which leaves it alone if it fails. -/
def registered (r : Registry) (new : SeverityEntry) : Registry :=
  match r.register new with
  | .ok r' => r'
  | .error _ => r

theorem Consistent.registered {r : Registry} (h : r.Consistent) (new : SeverityEntry) :
    (r.registered new).Consistent := by
  rw [Registry.registered]
  cases hr : r.register new with
  | ok r' => exact h.register hr
  | error e => exact h

/-- A registration removes and changes nothing. -/
theorem entries_prefix_registered (r : Registry) (new : SeverityEntry) :
    r.entries <+: (r.registered new).entries := by
  rw [registered]
  cases hr : r.register new with
  | ok r' =>
      obtain ⟨-, rfl⟩ := register_eq_ok_iff.1 hr
      exact List.prefix_append _ _
  | error e => exact List.prefix_rfl

/-- A call on registries, which are numbered in the order in which they come up. -/
inductive Registration
  | create
  | clone (source : Nat)
  | register (target : Nat) (new : SeverityEntry)

/-- The registries after a call. -/
def Registration.apply (rs : List Registry) : Registration → List Registry
  | create => rs ++ [.builtin]
  | clone source => rs ++ rs[source]?.toList
  | register target new => rs.modify target (·.registered new)

/-- The registries after calls, made in order. -/
def afterAll (rs : List Registry) (calls : List Registration) : List Registry :=
  calls.foldl Registration.apply rs

theorem consistent_apply {rs : List Registry} (h : ∀ r ∈ rs, r.Consistent) (call : Registration) :
    ∀ r ∈ call.apply rs, r.Consistent := by
  intro r hr
  cases call with
  | create =>
      rcases List.mem_append.1 hr with hr | hr
      · exact h r hr
      · obtain rfl := List.mem_singleton.1 hr
        exact consistent_builtin
  | clone source =>
      rcases List.mem_append.1 hr with hr | hr
      · exact h r hr
      · rw [Option.mem_toList] at hr
        exact h r (List.mem_of_getElem? hr)
  | register target new =>
      obtain ⟨i, hi⟩ := List.mem_iff_getElem?.1 hr
      rw [Registration.apply, List.getElem?_modify] at hi
      obtain ⟨old, hold, rfl⟩ := Option.map_eq_some_iff.1 hi
      have hconsistent := h old (List.mem_of_getElem? hold)
      split
      · exact hconsistent.registered new
      · exact hconsistent

theorem consistent_afterAll {rs : List Registry} (h : ∀ r ∈ rs, r.Consistent)
    (calls : List Registration) : ∀ r ∈ afterAll rs calls, r.Consistent := by
  induction calls generalizing rs with
  | nil => exact h
  | cons call calls ih => exact ih (consistent_apply h call)

/-- A call removes no registry, and nothing from one. -/
theorem prefix_apply {rs : List Registry} {i : Nat} {r : Registry} (h : rs[i]? = some r)
    (call : Registration) : ∃ r', (call.apply rs)[i]? = some r' ∧ r.entries <+: r'.entries := by
  obtain ⟨hlt, -⟩ := List.getElem?_eq_some_iff.1 h
  cases call with
  | create => exact ⟨r, by rw [Registration.apply, List.getElem?_append_left hlt, h], List.prefix_rfl⟩
  | clone source => exact ⟨r, by rw [Registration.apply, List.getElem?_append_left hlt, h], List.prefix_rfl⟩
  | register target new =>
      rw [Registration.apply, List.getElem?_modify, h]
      split
      · exact ⟨_, rfl, entries_prefix_registered r new⟩
      · exact ⟨_, rfl, List.prefix_rfl⟩

theorem prefix_afterAll {rs : List Registry} {i : Nat} {r : Registry} (h : rs[i]? = some r)
    (calls : List Registration) :
    ∃ r', (afterAll rs calls)[i]? = some r' ∧ r.entries <+: r'.entries := by
  induction calls generalizing rs r with
  | nil => exact ⟨r, h, List.prefix_rfl⟩
  | cons call calls ih =>
      obtain ⟨r₁, h₁, hfirst⟩ := prefix_apply h call
      obtain ⟨r', h', hrest⟩ := ih h₁
      exact ⟨r', h', hfirst.trans hrest⟩

theorem afterAll_concat (rs : List Registry) (calls : List Registration) (call : Registration) :
    afterAll rs (calls ++ [call]) = call.apply (afterAll rs calls) :=
  List.foldl_concat ..

/-- A registration changes the registry that it is made on, if it succeeds, and no other. -/
theorem apply_register {rs : List Registry} {i : Nat} {r : Registry} (h : rs[i]? = some r)
    (new : SeverityEntry) : (Registration.register i new).apply rs = rs.set i (r.registered new) := by
  rw [Registration.apply, List.modify_eq_set_getElem?, h]
  rfl

theorem set_self {rs : List Registry} {i : Nat} {r : Registry} (h : rs[i]? = some r) :
    rs.set i r = rs := by
  obtain ⟨hlt, rfl⟩ := List.getElem?_eq_some_iff.1 h
  exact List.set_getElem_self hlt

/-! ### Main statement -/

/-- What a registration answers: success exactly for an entry that can be added, and else the first
error in a fixed order, which names a clash that there is. Only which clash it names can depend on
the order of the entries. -/
structure Answers (r : Registry) (new : SeverityEntry) : Prop where
  ok_iff : ∀ r', r.register new = .ok r' ↔ r.Admits new ∧ r' = ⟨r.entries ++ [new]⟩
  lowercase_first : new.lowercase = "" → r.register new = .error .lowercaseEmpty
  uppercase_next : new.lowercase ≠ "" → new.uppercase = "" →
    r.register new = .error .uppercaseEmpty
  clash_last : new.lowercase ≠ "" → new.uppercase ≠ "" → ¬ r.Admits new →
    ∃ old ∈ r.entries, ∃ clash, Blocks old new clash ∧
      r.register new = .error (.severityExists clash.what)
  any_order : ∀ order : List SeverityEntry, order.Perm r.entries →
    Agree (r.register new) (Registry.register ⟨order⟩ new)

/-- How a registry names a level, in either case: by its entry, built in or not, or by its number. -/
structure Names (r : Registry) (s : Severity) (upper : Bool) : Prop where
  builtin : ∀ b : Builtin, b.severity = s → r.name s upper = b.name upper
  registered : ∀ e ∈ r.entries, e.severity = s → r.name s upper = e.name upper
  absent : (∀ e ∈ r.entries, e.severity ≠ s) → r.name s upper = String.ofList s.number
  any_order : ∀ order : List SeverityEntry, order.Perm r.entries →
    (Registry.mk order).name s upper = r.name s upper

theorem answers (r : Registry) (new : SeverityEntry) : r.Answers new where
  ok_iff r' := register_eq_ok_iff
  lowercase_first h := by rw [register, if_pos h]
  uppercase_next hlower hupper := by rw [register, if_neg hlower, if_pos hupper]
  clash_last hlower hupper hrefused := by
    rcases register_cases r new with ⟨hempty, -⟩ | ⟨-, hempty, -⟩ |
      ⟨-, -, old, hold, clash, hblocks, h⟩ | ⟨hadmits, -⟩
    · exact absurd hempty hlower
    · exact absurd hempty hupper
    · exact ⟨old, hold, clash, hblocks, h⟩
    · exact absurd hadmits hrefused
  any_order order hperm := register_perm hperm.symm new

theorem Consistent.names {r : Registry} (h : r.Consistent) (s : Severity) (upper : Bool) :
    r.Names s upper where
  builtin b hb := by
    rw [← hb]
    exact h.name_of_mem (h.builtin b) upper
  registered e he hs := by
    rw [← hs]
    exact h.name_of_mem he upper
  absent hs := h.name_of_absent hs upper
  any_order order hperm := h.name_perm hperm s upper

/-- **Registries name levels consistently, whatever is registered.** After any calls, every registry is
consistent, answers a registration and names a level as it should, and lends its names to the
records of its logger. A further registration changes its own registry by one entry, or nothing at
all; and no later call removes or changes what is registered. -/
theorem consistent_run (calls : List Registration) {i : Nat} {r : Registry}
    (hr : (afterAll [] calls)[i]? = some r) :
    r.Consistent ∧ (∀ new, r.Answers new) ∧ (∀ s upper, r.Names s upper) ∧
      (∀ (l : Logger) (s : Severity), l.severities = r →
        l.severityName s = r.name s l.config.uppercaseSeverity) ∧
      (∀ new r', r.register new = .ok r' →
        afterAll [] (calls ++ [.register i new]) = (afterAll [] calls).set i r') ∧
      (∀ new e, r.register new = .error e →
        afterAll [] (calls ++ [.register i new]) = afterAll [] calls) ∧
      (∀ more, ∃ r', (afterAll [] (calls ++ more))[i]? = some r' ∧ r.entries <+: r'.entries) := by
  have hconsistent : r.Consistent := by
    refine consistent_afterAll ?_ calls r (List.mem_of_getElem? hr)
    intro r hr
    exact absurd hr List.not_mem_nil
  refine ⟨hconsistent, r.answers, hconsistent.names, ?_, ?_, ?_, ?_⟩
  · rintro l s rfl
    exact severityName_eq l s
  · intro new r' h
    have hregistered : r.registered new = r' := by rw [registered, h]
    rw [afterAll_concat, apply_register hr, hregistered]
  · intro new e h
    have hregistered : r.registered new = r := by rw [registered, h]
    rw [afterAll_concat, apply_register hr, hregistered, set_self hr]
  · intro more
    rw [afterAll, List.foldl_append]
    exact prefix_afterAll hr more

/-- A level between two built-in ones. -/
def between : SeverityEntry := ⟨⟨250⟩, "info2", "INFO2"⟩

/-- A registry is cloned after it was given a level, which the clone then has as well. Two calls after
that are refused: the clone is offered a built-in name, and its source the level that it has. -/
def cloning : List Registration :=
  [.create, .register 0 between, .clone 0, .register 1 ⟨⟨7⟩, "debug", "X"⟩,
    .register 0 ⟨⟨250⟩, "other", "OTHER"⟩]

theorem consistent_run_cloning :
    ∃ r, (afterAll [] cloning)[1]? = some r ∧ r.Consistent ∧ r.name ⟨250⟩ true = "INFO2" ∧
      r.name ⟨7⟩ false = "7" ∧ afterAll [] (cloning ++ [.register 1 ⟨⟨8⟩, "info2", "Y"⟩]) =
        afterAll [] cloning := by
  have hr : (afterAll [] cloning)[1]? = some ⟨Registry.builtin.entries ++ [between]⟩ := by decide
  obtain ⟨hconsistent, -, hnames, -, -, hrefused, -⟩ := consistent_run cloning hr
  refine ⟨_, hr, hconsistent, ?_, ?_, hrefused _ (.severityExists "lowercase=info2") (by decide)⟩
  · exact (hnames ⟨250⟩ true).registered between (by decide) rfl
  · rw [(hnames ⟨7⟩ false).absent (by decide)]
    decide

end Registry
end LineLog
