import LineLog.Proofs.Json.Tree
import LineLog.Text.Escape
/-!
# LineLog.Proofs.Json.Quoted

Quoted text is read back.

The reader of strings, started behind the opening quotation mark of a quoted text,
stops at the quotation mark that closes it and answers the text
(`stringBody_escape`). What follows plays no part: an escaped text holds neither a bare
quotation mark nor a control character.

The proof goes character by character. One character is written as itself, as a short
escape, or as a `\u` escape (`escapeChar_cases`), and each of the three is read as
that character in front of anything.
-/

namespace LineLog.Json

open Text

/-! ### The forms of an escaped character -/

/-- The letter behind the backslash of a short escape, by the character that it stands for. -/
def shortEscapes : List (Char × Char) :=
  [('"', '"'), ('\\', '\\'), ('\x08', 'b'), ('\x0c', 'f'), ('\n', 'n'), ('\r', 'r'), ('\t', 't')]

/-- A character is written in one of three forms. -/
theorem escapeChar_cases (c : Char) :
    (∃ letter, (c, letter) ∈ shortEscapes ∧ escapeChar c = ['\\', letter]) ∨
    (c.toNat < 0x20 ∧ escapeChar c =
      ['\\', 'u', '0', '0', Nat.digitChar (c.toNat / 16), Nat.digitChar (c.toNat % 16)]) ∨
    (0x20 ≤ c.toNat ∧ c ≠ '"' ∧ c ≠ '\\' ∧ escapeChar c = [c]) := by
  have named : ∀ n, c.toNat = n → c = Char.ofNat n := by
    intro n h
    rw [← h, Char.ofNat_toNat]
  unfold escapeChar escapeOf?
  -- The two characters that could be seen come first: they must not be written as themselves.
  by_cases h : c.toNat = 0x22
  · exact .inl ⟨'"', by rw [named _ h]; decide, by simp [h]⟩
  by_cases h' : c.toNat = 0x5C
  · exact .inl ⟨'\\', by rw [named _ h']; decide, by simp [h']⟩
  have hq : c ≠ '"' := fun e => h (by rw [e]; rfl)
  have hb : c ≠ '\\' := fun e => h' (by rw [e]; rfl)
  by_cases h₁ : c.toNat = 0x08
  · exact .inl ⟨'b', by rw [named _ h₁]; decide, by simp [h₁]⟩
  by_cases h₂ : c.toNat = 0x0C
  · exact .inl ⟨'f', by rw [named _ h₂]; decide, by simp [h₂]⟩
  by_cases h₃ : c.toNat = 0x0A
  · exact .inl ⟨'n', by rw [named _ h₃]; decide, by simp [h₃]⟩
  by_cases h₄ : c.toNat = 0x0D
  · exact .inl ⟨'r', by rw [named _ h₄]; decide, by simp [h₄]⟩
  by_cases h₅ : c.toNat = 0x09
  · exact .inl ⟨'t', by rw [named _ h₅]; decide, by simp [h₅]⟩
  by_cases hc : c.toNat < 0x20
  · exact .inr (.inl ⟨hc, by simp [h, h', h₁, h₂, h₃, h₄, h₅, hc]⟩)
  · exact .inr (.inr ⟨by omega, hq, hb, by simp [h, h', h₁, h₂, h₃, h₄, h₅, hc]⟩)

/-! ### Reading one character -/

theorem hexValue?_digitChar : ∀ n < 16, hexValue? (Nat.digitChar n) = some n := by decide

theorem utf8Size_digitChar : ∀ n < 16, (Nat.digitChar n).utf8Size = 1 := by decide

/-- Four digits are read as the number below 256 that the last two spell. -/
theorem fourHex_digitChar {n : Nat} (h : n < 256) (rest : List Char) :
    fourHex ('0' :: '0' :: Nat.digitChar (n / 16) :: Nat.digitChar (n % 16) :: rest) = .ok n := by
  have hhigh : n / 16 < 16 := by omega
  have hlow : n % 16 < 16 := by omega
  have hzero : hexValue? '0' = some 0 := by decide
  have hsize : (utf8 ['0', '0', Nat.digitChar (n / 16), Nat.digitChar (n % 16)]).length = 4 := by
    simp only [utf8_cons, utf8_nil, List.length_append, String.length_utf8EncodeChar,
      utf8Size_digitChar _ hhigh, utf8Size_digitChar _ hlow]
    rfl
  simp only [fourHex, List.take_succ_cons, List.take_zero, hsize, Nat.lt_irrefl, if_false, hzero,
    hexValue?_digitChar _ hhigh, hexValue?_digitChar _ hlow]
  congr 1
  omega

theorem escapedChar_short {c letter : Char} (h : (c, letter) ∈ shortEscapes) (rest : List Char) :
    escapedChar (letter :: rest) = .ok (c, 1) := by
  simp only [shortEscapes, List.mem_cons, Prod.mk.injEq, List.not_mem_nil, or_false] at h
  rcases h with ⟨rfl, rfl⟩ | ⟨rfl, rfl⟩ | ⟨rfl, rfl⟩ | ⟨rfl, rfl⟩ | ⟨rfl, rfl⟩ | ⟨rfl, rfl⟩ |
    ⟨rfl, rfl⟩ <;> rfl

theorem escapedChar_control {c : Char} (h : c.toNat < 0x20) (rest : List Char) :
    escapedChar ('u' :: '0' :: '0' :: Nat.digitChar (c.toNat / 16) ::
      Nat.digitChar (c.toNat % 16) :: rest) = .ok (c, 5) := by
  -- The code is no half of a surrogate pair, so the reader does not look for another half.
  have hlow : isLowSurrogate c.toNat = false := by simp [isLowSurrogate]; omega
  have hhigh : isHighSurrogate c.toNat = false := by simp [isHighSurrogate]; omega
  simp [escapedChar, unicodeEscape, fourHex_digitChar (show c.toNat < 256 by omega), hlow, hhigh,
    bind, Except.bind, Except.map, Char.ofNat_toNat]

/-- Behind the text of a character, reading goes on with the rest. -/
theorem stringFrom_escapeChar {c : Char} {rest cs left : List Char}
    (h : stringFrom 0 rest = .ok (cs, left)) :
    stringFrom 0 (escapeChar c ++ rest) = .ok (c :: cs, left) := by
  rcases escapeChar_cases c with ⟨letter, hmem, hc⟩ | ⟨hlt, hc⟩ | ⟨hge, hq, hb, hc⟩
  · have hread := escapedChar_short hmem rest
    simp [hc, stringFrom, hread, h, bind, Except.bind, pure, Except.pure]
  · have hread := escapedChar_control hlt rest
    simp [hc, stringFrom, hread, h, bind, Except.bind, pure, Except.pure]
  · simp [hc, stringFrom, hq, hb, Nat.not_lt.2 hge, h, bind, Except.bind, pure, Except.pure]

/-! ### Reading a text -/

/-- **Quoted text is self-delimiting.** Behind the opening quotation mark, the text is read up to the
quotation mark that closes it, and whatever follows is left. -/
theorem stringBody_escape (cs rest : List Char) :
    stringBody (escape cs ++ '"' :: rest) = .ok (cs, rest) := by
  unfold stringBody
  induction cs with
  | nil => rfl
  | cons c cs ih =>
    rw [escape_cons, List.append_assoc]
    exact stringFrom_escapeChar ih

/-- A quoted text is a string of JSON. -/
theorem treeWith_quote (fuel : Nat) (cs rest : List Char) :
    treeWith (fuel + 1) (quote cs ++ rest) = .ok (.string cs, rest) := by
  have hread := stringBody_escape cs rest
  simp only [quote, List.cons_append, List.append_assoc, List.nil_append]
  rw [treeWith]
  simp [skipBlanks, isBlank, hread, Except.map]

/-- A quoted text is the name of a member. -/
theorem memberName_quote (cs rest : List Char) :
    memberName (quote cs ++ rest) = .ok (cs, rest) := by
  have hread := stringBody_escape cs rest
  simp only [quote, List.cons_append, List.append_assoc, List.nil_append, memberName, value]
  simpa [skipBlanks, isBlank] using hread

/-! ### No control characters -/

theorem visible_nil : Visible [] := by simp [Visible]

@[simp] theorem visible_cons {c : Char} {cs : List Char} :
    Visible (c :: cs) ↔ 0x20 ≤ c.toNat ∧ Visible cs := by
  simp [Visible]

@[simp] theorem visible_append {a b : List Char} : Visible (a ++ b) ↔ Visible a ∧ Visible b := by
  simp [Visible, or_imp, forall_and]

theorem visible_escapeChar (c : Char) : Visible (escapeChar c) := by
  have hdigit : ∀ n < 16, 0x20 ≤ (Nat.digitChar n).toNat := by decide
  rcases escapeChar_cases c with ⟨letter, hmem, hc⟩ | ⟨hlt, hc⟩ | ⟨hge, -, -, hc⟩
  · have hletter : ∀ p ∈ shortEscapes, 0x20 ≤ p.2.toNat := by decide
    simpa [hc, visible_nil] using hletter _ hmem
  · simp [hc, visible_nil, hdigit (c.toNat / 16) (by omega), hdigit (c.toNat % 16) (by omega)]
  · simpa [hc, visible_nil] using hge

theorem visible_quote (cs : List Char) : Visible (quote cs) := by
  have hescape : Visible (escape cs) := by
    induction cs with
    | nil => exact visible_nil
    | cons c cs ih =>
      rw [escape_cons]
      exact visible_append.2 ⟨visible_escapeChar c, ih⟩
  simp [quote, hescape, visible_nil]

/-- **Quoted text is a compact string**, and the string is the text. -/
theorem Compact.quote (cs : List Char) : Compact (quote cs) (.string cs) where
  reads fuel rest hfuel _ := by
    obtain ⟨fuel, rfl⟩ : ∃ n, fuel = n + 1 := ⟨fuel - 1, by omega⟩
    exact treeWith_quote fuel cs rest
  visible := visible_quote cs

end LineLog.Json
