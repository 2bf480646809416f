import LineLog.Config.Member
import LineLog.Proofs.Config.Option
import LineLog.Proofs.Json.Typed
/-!
# LineLog.Proofs.Config.Member

Configuration text gives the configuration back.

A configuration is written member by member, and read into the default configuration member by member.
`Taken` says where that has got to: what has been read is as in the configuration that was written, and
everything else is as before. One member takes one step (`members_restore`), an object takes as many as
it has members (`readMembers_texts`), whatever their order. So the text of the whole configuration gives it
back, and the text of some of its members gives the defaults for the others.

Design points:

* Members are known by their names: `Slot.memberName` says where a member of the text ends up, and that
  the table of members agrees is part of what one member does.
* The object as a reader of JSON finds it has the written members and no others (`parse_jsonOf`), with
  the same values for whichever of them are kept. So leaving out members of the text is deleting them
  from the object.
-/

namespace LineLog.Config

open Decimal Text Json

/-! ### Names -/

/-- The name of the member that holds the skip. -/
def skipName : String := "caller_skip"

/-- The name of the member that holds a slot. -/
def Slot.memberName : Slot → String
  | useTimestamp => "use_timestamp_field"
  | timestampKey => "timestamp_field_key"
  | timestampFormat => "timestamp_field_format"
  | useSeverity => "use_severity_field"
  | severityKey => "severity_field_key"
  | threshold => "severity_threshold"
  | uppercaseSeverity => "use_uppercase_severity"
  | useHostname => "use_hostname_field"
  | hostnameKey => "hostname_field_key"
  | hostnameValue => "hostname_field_value"
  | useCaller => "use_caller_field"
  | callerKey => "caller_field_key"
  | shortCaller => "use_short_caller"
  | useMessage => "use_message_field"
  | messageKey => "message_field_key"
  | lineSeparator => "line_separator"

/-- The names of all members. -/
def names : List String :=
  members.map Member.name

theorem nodup_names : names.Nodup := by decide

theorem memberName_mem_names (s : Slot) : s.memberName ∈ names := by
  cases s <;> decide

theorem skipName_mem_names : skipName ∈ names := by decide

/-- A member is found by its name. -/
theorem find?_name {ms : List Member} (h : (ms.map Member.name).Nodup) {m : Member} (hm : m ∈ ms) :
    ms.find? (fun n => n.name = m.name) = some m := by
  induction ms with
  | nil => cases hm
  | cons n ms ih =>
      obtain ⟨hn, hms⟩ := List.nodup_cons.1 h
      rcases List.mem_cons.1 hm with rfl | hm
      · simp
      · have hne : n.name ≠ m.name := fun e => hn (e ▸ List.mem_map_of_mem hm)
        rw [List.find?_cons_of_neg (by simpa using hne), ih hms hm]

/-! ### One member -/

/-- `after` holds what `source` holds in the members of the given names, and what `before` holds in
the others. -/
structure Taken (names : List String) (source before after : Config) : Prop where
  slot : ∀ s : Slot, s.get after = if s.memberName ∈ names then s.get source else s.get before
  skip : after.callerSkip = if skipName ∈ names then source.callerSkip else before.callerSkip

namespace Taken

variable {names : List String} {source before middle after : Config}

theorem nil (source before : Config) : Taken [] source before before :=
  ⟨fun _ => by simp, by simp⟩

/-- One name is taken, and then others. -/
theorem cons {name : String} (h : Taken [name] source before middle)
    (hs : Taken names source middle after) : Taken (name :: names) source before after where
  slot s := by
    rw [hs.slot, h.slot]
    by_cases hname : s.memberName = name <;> by_cases hnames : s.memberName ∈ names <;>
      simp [hname, hnames]
  skip := by
    rw [hs.skip, h.skip]
    by_cases hname : skipName = name <;> by_cases hnames : skipName ∈ names <;> simp [hname, hnames]

/-- With all names, everything is taken. -/
theorem eq_source (h : Taken Config.names source before after) : after = source :=
  eq_of_slots (fun s => by rw [h.slot, if_pos (memberName_mem_names s)])
    (by rw [h.skip, if_pos skipName_mem_names])

end Taken

/-- What is written for a member of a configuration is read back in front of anything that ends a value,
and is put into the member that it came from. A reader of JSON finds a value. -/
structure Restores (m : Member) (c : Config) : Prop where
  reads : ∃ set, Takes m.read (m.json c) set ∧ ∀ d, Taken [m.name] c d (set d)
  compact : ∃ t, Compact (m.json c) t

section Families

variable {name : String} {c : Config}

theorem restores_switch {get : Config → Bool} {set : Bool → Config → Config}
    (h : ∀ d, Taken [name] c d (set (get c) d)) : Restores (.switch name get set) c where
  reads := ⟨set (get c), (takes_bool (get c)).map set, h⟩
  compact := ⟨.bool (get c), Compact.bool (get c)⟩

theorem restores_text {get : Config → String} {set : String → Config → Config}
    (h : ∀ d, Taken [name] c d (set (get c) d)) : Restores (.text name get set) c where
  reads := by
    have hread := (takes_string (get c).toList).map fun t => set (String.ofList t)
    rw [String.ofList_toList] at hread
    exact ⟨set (get c), hread, h⟩
  compact := ⟨.string (get c).toList, .quote _⟩

theorem restores_format {get : Config → Time.Format} {set : Time.Format → Config → Config}
    (h : ∀ d, Taken [name] c d (set (get c) d)) : Restores (.format name get set) c where
  reads := ⟨set (get c), (takes_format (get c)).map set, h⟩
  compact := exists_compact_format (get c)

theorem restores_severity {get : Config → Severity} {set : Severity → Config → Config}
    (h : ∀ d, Taken [name] c d (set (get c) d)) : Restores (.severity name get set) c where
  reads := ⟨set (get c), (takes_severity (get c)).map set, h⟩
  compact := ⟨_, .integer _⟩

theorem restores_skip {get : Config → SkipCount} {set : SkipCount → Config → Config}
    (h : ∀ d, Taken [name] c d (set (get c) d)) : Restores (.skip name get set) c where
  reads := by
    have hread := (takes_word (get c)).map fun n => set (UInt64.ofInt n)
    rw [ofInt_toNat] at hread
    exact ⟨set (get c), hread, h⟩
  compact := ⟨_, .integer ((get c).toNat : Int)⟩

end Families

/-- **Every member is read back as it is written**, into the slot that has its name. -/
theorem members_restore (c : Config) : ∀ m ∈ members, Restores m c := by
  simp only [members, List.forall_mem_cons, List.not_mem_nil, IsEmpty.forall_iff, implies_true, and_true]
  refine ⟨restores_switch ?_, restores_text ?_, restores_format ?_, restores_switch ?_, restores_text ?_,
    restores_severity ?_, restores_switch ?_, restores_switch ?_, restores_text ?_, restores_text ?_,
    restores_switch ?_, restores_text ?_, restores_switch ?_, restores_skip ?_, restores_switch ?_,
    restores_text ?_, restores_text ?_⟩ <;>
  exact fun d => ⟨fun s => by cases s <;> rfl, rfl⟩

/-! ### Objects -/

/-- The text of a member. -/
def memberText (c : Config) (m : Member) : List Char :=
  quoted m.name ++ ':' :: m.json c

theorem jsonOf_eq (ms : List Member) (c : Config) :
    jsonOf ms c = Object.enclosed '{' '}' (ms.map (memberText c)) := rfl

/-- Members start with a quotation mark. -/
theorem exists_texts (c : Config) {ms : List Member} (hne : ms ≠ []) :
    ∃ cs, [','].intercalate (ms.map (memberText c)) = '"' :: cs := by
  cases ms with
  | nil => exact absurd rfl hne
  | cons m ms => cases ms <;> exact ⟨_, rfl⟩

theorem skipBlanks_texts (c : Config) {ms : List Member} (hne : ms ≠ []) (rest : List Char) :
    skipBlanks ([','].intercalate (ms.map (memberText c)) ++ rest) =
      [','].intercalate (ms.map (memberText c)) ++ rest := by
  obtain ⟨cs, hcs⟩ := exists_texts c hne
  rw [hcs]
  rfl

/-- Every member has a character of its own, so the length of the text is fuel enough for reading it. -/
theorem length_le_texts (c : Config) (ms : List Member) :
    ms.length ≤ ([','].intercalate (ms.map (memberText c))).length := by
  induction ms with
  | nil => simp
  | cons m ms ih =>
      cases ms with
      | nil =>
          rw [List.map_singleton, List.intercalate_singleton, memberText, quoted, quote]
          simp
      | cons next ms =>
          rw [List.map_cons, List.map_cons, List.intercalate_cons_cons, ← List.map_cons]
          simp only [List.length_append, List.length_cons] at ih ⊢
          omega

/-- One step of the reader of objects: a member that has not been read before is read. A brace ends the
object behind it, and a comma goes on with the other members. -/
theorem readMembers_member (c : Config) {m : Member} (hm : m ∈ members) {seen : List String}
    (hseen : m.name ∉ seen) (d : Config) :
    ∃ d', Taken [m.name] c d d' ∧
      (∀ fuel rest, readMembers (fuel + 1) seen d (memberText c m ++ '}' :: rest) = .ok (d', rest)) ∧
      ∀ fuel rest, readMembers (fuel + 1) seen d (memberText c m ++ ',' :: rest) =
        readMembers fuel (m.name :: seen) d' (skipBlanks rest) := by
  obtain ⟨set, hread, htaken⟩ := (members_restore c m hm).reads
  have hname := fun rest => stringBody_escape m.name.toList (':' :: (m.json c ++ rest))
  have hmember : ∀ rest, Closes rest → readMember seen m.name d (':' :: (m.json c ++ rest)) =
      .ok (m.name :: seen, set d, rest) := by
    intro rest hrest
    have hsign := sign_cons (show Json.isBlank ':' = false from rfl) (m.json c ++ rest)
    rw [readMember, find?_name nodup_names hm]
    simp [hseen, hsign, hread rest hrest, bind, Except.bind, pure, Except.pure]
  refine ⟨set d, htaken d, ?_, ?_⟩
  · intro fuel rest
    simp only [memberText, quoted, quote, List.append_assoc, List.cons_append, List.nil_append]
    rw [readMembers]
    simp only [hname, String.ofList_toList, hmember _ (closes_brace rest), bind, Except.bind]
    rfl
  · intro fuel rest
    simp only [memberText, quoted, quote, List.append_assoc, List.cons_append, List.nil_append]
    rw [readMembers]
    simp only [hname, String.ofList_toList, hmember _ (closes_comma rest), bind, Except.bind]
    rfl

/-- Members are read up to the closing brace, in whatever order they stand. -/
theorem readMembers_texts (c : Config) {ms : List Member} (hms : ms ⊆ members)
    (hnodup : (ms.map Member.name).Nodup) (hne : ms ≠ []) {seen : List String}
    (hseen : ∀ m ∈ ms, m.name ∉ seen) (d : Config) (rest : List Char) {fuel : Nat}
    (hfuel : ms.length ≤ fuel) :
    ∃ d', readMembers fuel seen d ([','].intercalate (ms.map (memberText c)) ++ '}' :: rest) =
        .ok (d', rest) ∧ Taken (ms.map Member.name) c d d' := by
  induction ms generalizing seen d fuel with
  | nil => exact absurd rfl hne
  | cons m ms ih =>
      obtain ⟨fuel, rfl⟩ : ∃ n, fuel = n + 1 := ⟨fuel - 1, by simp at hfuel; omega⟩
      obtain ⟨hm, hms⟩ := List.cons_subset.1 hms
      obtain ⟨hfresh, hnodup⟩ := List.nodup_cons.1 hnodup
      obtain ⟨d', htaken, hlast, hnext⟩ := readMembers_member c hm (hseen m (by simp)) d
      cases ms with
      | nil =>
          refine ⟨d', ?_, htaken⟩
          rw [List.map_singleton, List.intercalate_singleton, hlast]
      | cons next ms =>
          -- None of the others has the name that has just been read.
          have hseen' : ∀ n ∈ next :: ms, n.name ∉ m.name :: seen := by
            intro n hn hmem
            rcases List.mem_cons.1 hmem with heq | hmem
            · exact hfresh (heq ▸ List.mem_map_of_mem hn)
            · exact hseen n (List.mem_cons_of_mem _ hn) hmem
          have hfuel' : (next :: ms).length ≤ fuel := by simpa using hfuel
          obtain ⟨d'', hread, htaken'⟩ := ih hms hnodup (by simp) hseen' d' hfuel'
          refine ⟨d'', ?_, htaken.cons htaken'⟩
          rw [List.map_cons, List.map_cons, List.intercalate_cons_cons, ← List.map_cons, List.append_assoc,
            List.append_assoc, List.singleton_append, hnext, skipBlanks_texts c (by simp), hread]

/-- An object of members is read into the default configuration. -/
theorem exists_ofJson_jsonOf (c : Config) {ms : List Member} (hms : ms ⊆ members)
    (hnodup : (ms.map Member.name).Nodup) :
    ∃ d, ofJson (String.ofList (jsonOf ms c)) = .ok d ∧ Taken (ms.map Member.name) c {} d := by
  have hwhole : ∀ d, reader (jsonOf ms c) = .ok (d, []) → ofJson (String.ofList (jsonOf ms c)) = .ok d := by
    intro d hread
    rw [ofJson, whole, String.toList_ofList, hread]
    rfl
  by_cases hne : ms = []
  · subst hne
    exact ⟨{}, hwhole _ rfl, .nil c {}⟩
  · obtain ⟨cs, hcs⟩ := exists_texts c hne
    have hfuel : ms.length ≤ ([','].intercalate (ms.map (memberText c)) ++ ['}']).length := by
      rw [List.length_append]
      exact Nat.le_add_right_of_le (length_le_texts c ms)
    have hunseen : ∀ m ∈ ms, m.name ∉ ([] : List String) := by simp
    obtain ⟨d, hread, htaken⟩ := readMembers_texts c hms hnodup hne hunseen {} [] hfuel
    refine ⟨d, hwhole d ?_, htaken⟩
    rw [hcs, List.cons_append] at hread
    rw [jsonOf_eq, Object.enclosed, hcs]
    exact hread

/-- The object that a reader of JSON finds has the members that were written, in order, with values that do
not depend on the other members. -/
theorem exists_parse_jsonOf (c : Config) :
    ∃ value : Member → Tree, ∀ ms ⊆ members,
      parse (jsonOf ms c) = .ok (.object (ms.map fun m => (m.name.toList, value m))) := by
  have hvalue : ∀ m, ∃ t, m ∈ members → Compact (m.json c) t := by
    intro m
    by_cases hm : m ∈ members
    · obtain ⟨t, ht⟩ := (members_restore c m hm).compact
      exact ⟨t, fun _ => ht⟩
    · exact ⟨.null, fun h => absurd h hm⟩
  choose value hcompact using hvalue
  refine ⟨value, fun ms hms => ?_⟩
  have hmembers : List.Forall₂ CompactMember (ms.map (memberText c))
      (ms.map fun m => (m.name.toList, value m)) := by
    rw [List.forall₂_map_left_iff, List.forall₂_map_right_iff, List.forall₂_same]
    exact fun m hm => .of (hcompact m (hms hm))
  exact (Compact.object hmembers).parse

/-! ### Configuration text -/

theorem nodup_kept {ms : List Member} {keep : String → Bool}
    (h : ms.Perm (members.filter fun m => keep m.name)) : (ms.map Member.name).Nodup := by
  rw [(h.map Member.name).nodup_iff]
  exact nodup_names.sublist ((List.filter_sublist).map Member.name)

theorem mem_kept {ms : List Member} {keep : String → Bool}
    (h : ms.Perm (members.filter fun m => keep m.name)) {name : String} (hname : name ∈ names) :
    name ∈ ms.map Member.name ↔ keep name = true := by
  rw [(h.map Member.name).mem_iff, List.mem_map]
  constructor
  · intro hmem
    obtain ⟨m, hm, rfl⟩ := hmem
    exact (List.mem_filter.1 hm).2
  · intro hkeep
    obtain ⟨m, hm, rfl⟩ := List.mem_map.1 hname
    exact ⟨m, List.mem_filter.2 ⟨hm, hkeep⟩, rfl⟩

/-- **Configuration survives its text.** The text of a configuration gives it back. It is an object; of
whichever members are kept, the text is the same object without the others, and in whatever order they
stand it gives the configuration that has the default values in just the others. A format is read as
itself, so no layout is taken for the name that it spells, and no name for a layout. -/
theorem ofJson_json (c : Config) :
    ofJson (String.ofList c.json) = .ok c ∧
    (∃ value : Member → Tree, ∀ keep : String → Bool,
      parse (jsonOf (members.filter fun m => keep m.name) c) =
        .ok (.object ((members.filter fun m => keep m.name).map fun m => (m.name.toList, value m)))) ∧
    (∀ (keep : String → Bool) (ms : List Member), ms.Perm (members.filter fun m => keep m.name) →
      ∃ d, ofJson (String.ofList (jsonOf ms c)) = .ok d ∧
        (∀ s : Slot, s.get d = if keep s.memberName then s.get c else s.get {}) ∧
        d.callerSkip = if keep skipName then c.callerSkip else 0) ∧
    ∀ f : Time.Format, whole Time.Format.reader f.json = .ok f := by
  refine ⟨?_, ?_, ?_, ?_⟩
  · obtain ⟨d, hread, htaken⟩ := exists_ofJson_jsonOf c (List.Subset.refl members) nodup_names
    rw [json, hread, Taken.eq_source htaken]
  · obtain ⟨value, hparse⟩ := exists_parse_jsonOf c
    exact ⟨value, fun keep => hparse _ (List.filter_subset_self _)⟩
  · intro keep ms hms
    have hsubset : ms ⊆ members := fun m hm => (List.mem_filter.1 (hms.mem_iff.1 hm)).1
    obtain ⟨d, hread, htaken⟩ := exists_ofJson_jsonOf c hsubset (nodup_kept hms)
    refine ⟨d, hread, fun s => ?_, ?_⟩
    · rw [htaken.slot]
      exact if_congr (mem_kept hms (memberName_mem_names s)) rfl rfl
    · rw [htaken.skip]
      exact if_congr (mem_kept hms skipName_mem_names) rfl rfl
  · intro f
    have hread := takes_format f [] closes_nil
    rw [List.append_nil] at hread
    rw [whole, hread]
    rfl

/-- Extreme numbers, an empty layout and texts that need escapes. -/
def awkward : Config where
  timestampFormat := .custom ""
  threshold := ⟨Int32.minValue⟩
  callerSkip := 18446744073709551615
  message := ⟨false, "\"message\\\x00"⟩
  lineSeparator := "\r\n"

/-- Two of its members in the opposite order. -/
theorem ofJson_json_awkward :
    ofJson (String.ofList awkward.json) = .ok awkward ∧
    ∃ d, ofJson (String.ofList (jsonOf
        (members.filter fun m => m.name ∈ ["timestamp_field_format", "caller_skip"]).reverse awkward)) = .ok d ∧
      d.timestampFormat = .custom "" ∧ d.callerSkip = 18446744073709551615 ∧ d.threshold = ⟨0⟩ ∧
      d.message = ⟨true, "message"⟩ := by
  obtain ⟨hall, -, hsome, -⟩ := ofJson_json awkward
  obtain ⟨d, hread, hslot, hskip⟩ := hsome (fun name => name ∈ ["timestamp_field_format", "caller_skip"]) _
    (List.reverse_perm _)
  refine ⟨hall, d, hread, hslot .timestampFormat, hskip, hslot .threshold, ?_⟩
  have henabled : d.message.enabled = true := hslot .useMessage
  have hkey : d.message.key = "message" := hslot .messageKey
  rw [← henabled, ← hkey]

end LineLog.Config
