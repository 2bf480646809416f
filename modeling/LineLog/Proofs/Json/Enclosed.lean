import LineLog.Proofs.Json.Quoted
import LineLog.Value.Object
import Mathlib.Data.List.Forall2
/-!
# LineLog.Proofs.Json.Enclosed

Arrays and objects are read back, given that their parts are.

The text of an array is the texts of its items between brackets, and the text of an
object is the texts of its members between braces, with commas in between and nothing
else. An item is followed by a comma or by the closing character, so it is read whole
and the reader stands where the next one starts.

Design points:

* The induction follows the list of items. Its fuel is bounded by the length of what
  is left to read, which is why `Compact` is stated for every such fuel.
* `List.Forall₂ Compact` says that the items are read as the trees in a list, one by
  one and in order; nothing is assumed about what the trees are.
* A member is given by its name as it was before it was quoted, so what is read is
  the name that was meant.
-/

namespace LineLog.Json

open Text

/-! ### Words -/

/-- The word `null` is the compact value null. -/
theorem Compact.null : Compact Object.nullText .null where
  reads fuel rest hfuel _ := by
    obtain ⟨fuel, rfl⟩ : ∃ n, fuel = n + 1 := ⟨fuel - 1, by omega⟩
    simp [Object.nullText, treeWith, skipBlanks, isBlank, expect, Except.map]
  visible := by decide

/-- The word of a truth value is that truth value. -/
theorem Compact.bool (b : Bool) : Compact (Object.boolText b) (.bool b) where
  reads fuel rest hfuel _ := by
    obtain ⟨fuel, rfl⟩ : ∃ n, fuel = n + 1 := ⟨fuel - 1, by omega⟩
    cases b <;> simp [Object.boolText, treeWith, skipBlanks, isBlank, expect, Except.map]
  visible := by cases b <;> decide

/-! ### The front of a value -/

theorem isBlank_head_skipBlanks {cs rest : List Char} {c : Char}
    (h : skipBlanks cs = c :: rest) : isBlank c = false := by
  have := List.head?_dropWhile_not isBlank cs
  rw [show cs.dropWhile isBlank = c :: rest from h] at this
  simpa using this

theorem skipBlanks_idem (cs : List Char) : skipBlanks (skipBlanks cs) = skipBlanks cs := by
  cases h : skipBlanks cs with
  | nil => rfl
  | cons c rest => rw [skipBlanks, List.dropWhile_cons, isBlank_head_skipBlanks h]; rfl

@[simp] theorem treeWith_skipBlanks (fuel : Nat) (cs : List Char) :
    treeWith fuel (skipBlanks cs) = treeWith fuel cs := by
  cases fuel with
  | zero => rw [treeWith, treeWith]
  | succ fuel => rw [treeWith, treeWith, skipBlanks_idem]

/-- A bracket opens an array if items follow. -/
theorem treeWith_bracket {fuel : Nat} {cs rest : List Char} {items : List Tree}
    (h : itemsWith fuel cs = .ok (items, rest)) :
    treeWith (fuel + 1) ('[' :: cs) = .ok (.array items, rest) := by
  obtain ⟨fuel, rfl⟩ : ∃ n, fuel = n + 1 := by
    cases fuel with
    | zero => simp [itemsWith] at h
    | succ n => exact ⟨n, rfl⟩
  have hsame : itemsWith (fuel + 1) (skipBlanks cs) = itemsWith (fuel + 1) cs := by
    rw [itemsWith, itemsWith, treeWith_skipBlanks]
  -- The reader looks for an empty array first, but no item starts with a bracket that closes.
  have hnotEnd : ∀ tail, skipBlanks cs ≠ ']' :: tail := by
    intro tail hskip
    rw [itemsWith] at h
    cases fuel with
    | zero => simp [treeWith, bind, Except.bind] at h
    | succ fuel => simp [treeWith, hskip, bind, Except.bind] at h
  rw [treeWith]
  rw [show skipBlanks ('[' :: cs) = '[' :: cs from rfl]
  simp only [if_false, if_true, Char.reduceEq]
  rw [hsame, h]
  rfl

/-- A brace opens an object if members follow. -/
theorem treeWith_brace {fuel : Nat} {cs rest : List Char} {members : List (List Char × Tree)}
    (h : membersWith fuel cs = .ok (members, rest)) :
    treeWith (fuel + 1) ('{' :: cs) = .ok (.object members, rest) := by
  obtain ⟨fuel, rfl⟩ : ∃ n, fuel = n + 1 := by
    cases fuel with
    | zero => simp [membersWith] at h
    | succ n => exact ⟨n, rfl⟩
  have hsame : membersWith (fuel + 1) (skipBlanks cs) = membersWith (fuel + 1) cs := by
    rw [membersWith, membersWith, memberName, value, value, skipBlanks_idem]
  -- Likewise, no name starts with a brace that closes.
  have hnotEnd : ∀ tail, skipBlanks cs ≠ '}' :: tail := by
    intro tail hskip
    rw [membersWith] at h
    simp [memberName, value, hskip, bind, Except.bind] at h
  rw [treeWith]
  rw [show skipBlanks ('{' :: cs) = '{' :: cs from rfl]
  simp only [if_false, if_true, Char.reduceEq]
  rw [hsame, h]
  rfl

/-! ### Arrays -/

/-- The items are read up to the closing bracket. -/
theorem itemsWith_intercalate {texts : List (List Char)} {trees : List Tree}
    (h : List.Forall₂ Compact texts trees) (hne : texts ≠ []) (rest : List Char) {fuel : Nat}
    (hfuel : ([','].intercalate texts).length + 1 < fuel) :
    itemsWith fuel ([','].intercalate texts ++ ']' :: rest) = .ok (trees, rest) := by
  induction h generalizing fuel with
  | nil => exact absurd rfl hne
  | @cons text t texts trees htext htexts ih =>
      obtain ⟨fuel, rfl⟩ : ∃ n, fuel = n + 1 := ⟨fuel - 1, by omega⟩
      cases texts with
      | nil =>
          -- The last item is closed by the bracket.
          obtain rfl : trees = [] := by cases htexts; rfl
          rw [List.intercalate_singleton] at hfuel ⊢
          have hread := htext.reads fuel (']' :: rest) (by omega) (closes_bracket rest)
          simp [itemsWith, hread, skipBlanks, isBlank, bind, Except.bind, pure, Except.pure]
      | cons next texts =>
          rw [List.intercalate_cons_cons] at hfuel ⊢
          simp only [List.length_append, List.length_cons, List.length_nil] at hfuel
          -- Any other item is closed by a comma, and the others are read behind it.
          have htail : itemsWith fuel ([','].intercalate (next :: texts) ++ ']' :: rest) =
              .ok (trees, rest) := ih (by simp) (by omega)
          have hread := htext.reads fuel
            (',' :: ([','].intercalate (next :: texts) ++ ']' :: rest)) (by omega)
            (closes_comma _)
          simp only [List.append_assoc, List.cons_append, List.nil_append]
          simp [itemsWith, hread, skipBlanks, isBlank, htail, bind, Except.bind, pure,
            Except.pure]

theorem visible_intercalate {texts : List (List Char)} (h : ∀ text ∈ texts, Visible text) :
    Visible ([','].intercalate texts) := by
  induction texts with
  | nil => exact visible_nil
  | cons text texts ih =>
      have htext : Visible text := h text (by simp)
      have htexts := ih fun t ht => h t (List.mem_cons_of_mem _ ht)
      cases texts with
      | nil => rwa [List.intercalate_singleton]
      | cons next texts =>
          rw [List.intercalate_cons_cons]
          exact visible_append.2 ⟨visible_append.2 ⟨htext, by simp [visible_nil]⟩, htexts⟩

theorem visible_enclosed {first last : Char} (hfirst : 0x20 ≤ first.toNat)
    (hlast : 0x20 ≤ last.toNat) {texts : List (List Char)} (h : ∀ text ∈ texts, Visible text) :
    Visible (Object.enclosed first last texts) := by
  have := visible_intercalate h
  simp [Object.enclosed, hfirst, hlast, this, visible_nil]

theorem visible_of_forall₂ {α : Type} {r : List Char → α → Prop}
    (hr : ∀ text a, r text a → Visible text) {texts : List (List Char)} {as : List α}
    (h : List.Forall₂ r texts as) : ∀ text ∈ texts, Visible text := by
  induction h with
  | nil => simp
  | cons htext _ ih => simpa [hr _ _ htext] using ih

/-- **An array is a compact value** if its items are, and its items are read in order. -/
theorem Compact.array {texts : List (List Char)} {trees : List Tree}
    (h : List.Forall₂ Compact texts trees) :
    Compact (Object.enclosed '[' ']' texts) (.array trees) where
  reads fuel rest hfuel hrest := by
    obtain ⟨fuel, rfl⟩ : ∃ n, fuel = n + 1 := ⟨fuel - 1, by omega⟩
    simp only [Object.enclosed, List.length_append, List.length_cons, List.length_nil] at hfuel
    simp only [Object.enclosed, List.cons_append, List.append_assoc, List.nil_append]
    cases texts with
    | nil =>
        obtain rfl : trees = [] := by cases h; rfl
        simp [treeWith, skipBlanks, isBlank, List.intercalate]
    | cons text texts =>
        exact treeWith_bracket (itemsWith_intercalate h (by simp) rest (by omega))
  visible := visible_enclosed (by decide) (by decide) (visible_of_forall₂ (fun _ _ => Compact.visible) h)

/-! ### Objects -/

/-- `text` is the text of a member of this name and value: the quoted name, a colon, and a compact
value. -/
def CompactMember (text : List Char) (member : List Char × Tree) : Prop :=
  ∃ value, text = quote member.1 ++ ':' :: value ∧ Compact value member.2

theorem CompactMember.of {name value : List Char} {t : Tree} (h : Compact value t) :
    CompactMember (quote name ++ ':' :: value) (name, t) :=
  ⟨value, rfl, h⟩

theorem CompactMember.visible {text : List Char} {member : List Char × Tree}
    (h : CompactMember text member) : Visible text := by
  obtain ⟨value, rfl, hvalue⟩ := h
  refine visible_append.2 ⟨visible_quote _, ?_⟩
  simp [hvalue.visible]

/-- The members are read up to the closing brace. -/
theorem membersWith_intercalate {texts : List (List Char)} {members : List (List Char × Tree)}
    (h : List.Forall₂ CompactMember texts members) (hne : texts ≠ []) (rest : List Char)
    {fuel : Nat} (hfuel : ([','].intercalate texts).length + 1 < fuel) :
    membersWith fuel ([','].intercalate texts ++ '}' :: rest) = .ok (members, rest) := by
  induction h generalizing fuel with
  | nil => exact absurd rfl hne
  | @cons text member texts members htext htexts ih =>
      obtain ⟨fuel, rfl⟩ : ∃ n, fuel = n + 1 := ⟨fuel - 1, by omega⟩
      obtain ⟨value, rfl, hvalue⟩ := htext
      cases texts with
      | nil =>
          obtain rfl : members = [] := by cases htexts; rfl
          rw [List.intercalate_singleton] at hfuel ⊢
          simp only [List.length_append, List.length_cons] at hfuel
          have hread := hvalue.reads fuel ('}' :: rest) (by omega) (closes_brace rest)
          simp only [List.append_assoc, List.cons_append]
          simp [membersWith, memberName_quote, hread, skipBlanks, isBlank, bind, Except.bind,
            pure, Except.pure]
      | cons next texts =>
          rw [List.intercalate_cons_cons] at hfuel ⊢
          simp only [List.length_append, List.length_cons, List.length_nil] at hfuel
          have htail : membersWith fuel ([','].intercalate (next :: texts) ++ '}' :: rest) =
              .ok (members, rest) := ih (by simp) (by omega)
          have hread := hvalue.reads fuel
            (',' :: ([','].intercalate (next :: texts) ++ '}' :: rest)) (by omega)
            (closes_comma _)
          simp only [List.append_assoc, List.cons_append, List.nil_append]
          simp [membersWith, memberName_quote, hread, skipBlanks, isBlank, htail, bind,
            Except.bind, pure, Except.pure]

/-- **An object is a compact value** if the values of its members are, and its members are read in
order, under their names. -/
theorem Compact.object {texts : List (List Char)} {members : List (List Char × Tree)}
    (h : List.Forall₂ CompactMember texts members) :
    Compact (Object.enclosed '{' '}' texts) (.object members) where
  reads fuel rest hfuel hrest := by
    obtain ⟨fuel, rfl⟩ : ∃ n, fuel = n + 1 := ⟨fuel - 1, by omega⟩
    simp only [Object.enclosed, List.length_append, List.length_cons, List.length_nil] at hfuel
    simp only [Object.enclosed, List.cons_append, List.append_assoc, List.nil_append]
    cases texts with
    | nil =>
        obtain rfl : members = [] := by cases h; rfl
        simp [treeWith, skipBlanks, isBlank, List.intercalate]
    | cons text texts =>
        exact treeWith_brace (membersWith_intercalate h (by simp) rest (by omega))
  visible :=
    visible_enclosed (by decide) (by decide) (visible_of_forall₂ (fun _ _ => CompactMember.visible) h)

end LineLog.Json
