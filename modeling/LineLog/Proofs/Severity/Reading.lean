import LineLog.Proofs.Decimal.Digits
import LineLog.Proofs.Severity.Registry
import LineLog.Proofs.Text.Classes
/-!
# LineLog.Proofs.Severity.Reading

The texts that name a level.

`Severity.Spells` is the grammar: a built-in name in any case, or a number with an optional sign and
any number of zeros in front. It says nothing about how a text is read. Reading an ASCII text finds the
level that the text spells once the white space around it is gone, and nothing else.

Design points:

* Whether a number is in range is said by the level itself: a text spells the level whose number it
  denotes, and a number out of range is no level's.
* A spelled text is printable (`Spells.printable`). So trimming stops at it, and upper-casing it is done
  letter by letter.
-/

namespace LineLog.Severity

open Decimal Text

/-! ### The grammar -/

/-- What may stand before the digits of a number. -/
inductive Sign
  | none
  | plus
  | minus
  deriving DecidableEq

namespace Sign

/-- How the sign is written. -/
def text : Sign → List Char
  | none => []
  | plus => ['+']
  | minus => ['-']

/-- The number that the sign makes of the value of the digits. -/
def apply (n : Nat) : Sign → Int
  | none | plus => n
  | minus => -n

end Sign

/-- The text is a number in decimal, with an optional sign and one digit or more. -/
inductive Numeral : List Char → Int → Prop
  | of (sign : Sign) {digits : List Char} (hne : digits ≠ []) (hdigits : Digits digits) :
      Numeral (sign.text ++ digits) (sign.apply (Nat.ofDigitChars 10 digits 0))

/-- The text names the level, by its built-in name in any case or by its number. -/
inductive Spells : List Char → Severity → Prop
  | name {cs : List Char} (b : Builtin) (h : SameButCase cs b.lowercase.toList) : Spells cs b.severity
  | number {cs : List Char} {l : Severity} (h : Numeral cs l.level.toInt) : Spells cs l

/-! ### Numbers -/

theorem digits?_eq_some_iff {cs : List Char} {n : Nat} :
    digits? cs = some n ↔ cs ≠ [] ∧ Digits cs ∧ Nat.ofDigitChars 10 cs 0 = n := by
  rw [digits?]
  split
  · rename_i h
    have hbad : cs = [] ∨ ¬ Digits cs := by simpa [Digits] using h
    simp only [reduceCtorEq, false_iff]
    rintro ⟨hne, hdigits, -⟩
    exact hbad.elim hne (absurd hdigits)
  · rename_i h
    have hgood : cs ≠ [] ∧ Digits cs := by simpa [Digits] using h
    simp [hgood]

/-- The text does not start with a sign. -/
def Signless (cs : List Char) : Prop :=
  ∀ c ∈ cs.head?, c ≠ '+' ∧ c ≠ '-'

theorem signless_of_digits {cs : List Char} (h : Digits cs) : Signless cs := by
  intro c hc
  have hdigit : c.isDigit := h c (List.mem_of_head? hc)
  exact ⟨ne_of_isDigit hdigit (by decide), ne_of_isDigit hdigit (by decide)⟩

/-- A sign is taken off any text. -/
theorem exists_sign (cs : List Char) :
    ∃ (sign : Sign) (rest : List Char), cs = sign.text ++ rest ∧ (sign = .none → Signless rest) := by
  by_cases hplus : cs.head? = some '+'
  · obtain ⟨rest, rfl⟩ := List.head?_eq_some_iff.1 hplus
    exact ⟨.plus, rest, rfl, nofun⟩
  · by_cases hminus : cs.head? = some '-'
    · obtain ⟨rest, rfl⟩ := List.head?_eq_some_iff.1 hminus
      exact ⟨.minus, rest, rfl, nofun⟩
    · refine ⟨.none, cs, rfl, fun _ c hc => ⟨?_, ?_⟩⟩
      · rintro rfl
        exact hplus hc
      · rintro rfl
        exact hminus hc

/-- What follows the sign is read as digits. -/
theorem integer?_append {sign : Sign} {rest : List Char} (h : sign = .none → Signless rest) :
    integer? (sign.text ++ rest) = (digits? rest).map (sign.apply ·) := by
  cases sign with
  | plus | minus =>
      rw [Sign.text, List.singleton_append, integer?]
      cases digits? rest <;> rfl
  | none =>
      have hfirst : ∀ c tail, rest = c :: tail → c ≠ '+' ∧ c ≠ '-' := by
        rintro c tail rfl
        exact h rfl c rfl
      rw [Sign.text, List.nil_append, integer?.eq_3 _ (fun _ h => (hfirst _ _ h).1 rfl)
        fun _ h => (hfirst _ _ h).2 rfl]
      cases digits? rest <;> rfl

theorem integer?_eq_some_iff {cs : List Char} {v : Int} : integer? cs = some v ↔ Numeral cs v := by
  constructor
  · intro h
    obtain ⟨sign, rest, rfl, hsign⟩ := exists_sign cs
    rw [integer?_append hsign] at h
    obtain ⟨n, hn, rfl⟩ := Option.map_eq_some_iff.1 h
    obtain ⟨hne, hdigits, rfl⟩ := digits?_eq_some_iff.1 hn
    exact .of sign hne hdigits
  · rintro ⟨sign, hne, hdigits⟩
    rw [integer?_append fun _ => signless_of_digits hdigits,
      digits?_eq_some_iff.2 ⟨hne, hdigits, rfl⟩]
    rfl

/-- A number is that of a level exactly if it is in range. -/
theorem ofInt?_eq_some_iff {v : Int} {l : Severity} : ofInt? v = some l ↔ l.level.toInt = v := by
  rw [ofInt?]
  split
  · rename_i h
    have hlevel : (Int32.ofInt v).toInt = v := Int32.toInt_ofInt_of_le h.1 (Int.lt_of_le_sub_one h.2)
    constructor
    · rintro ⟨⟩
      exact hlevel
    · intro hl
      rw [← hl, Int32.ofInt_toInt]
  · rename_i h
    simp only [reduceCtorEq, false_iff]
    rintro rfl
    exact h ⟨l.level.minValue_le_toInt, l.level.toInt_le⟩

/-- A number is written as a numeral. -/
theorem numeral_integer (v : Int) : Numeral (integer v) v := by
  cases v with
  | ofNat n =>
      have h := Numeral.of .none (natural_ne_nil n) (digits_natural n)
      rwa [ofDigitChars_natural] at h
  | negSucc n =>
      have h := Numeral.of .minus (natural_ne_nil (n + 1)) (digits_natural (n + 1))
      rwa [ofDigitChars_natural] at h

theorem toNat_of_isDigit {c : Char} (h : c.isDigit) : 0x30 ≤ c.toNat ∧ c.toNat ≤ 0x39 := by
  simpa [Char.isDigit, UInt32.le_iff_toNat_le] using h

theorem isAlpha_of_isDigit {c : Char} (h : c.isDigit) : c.isAlpha = false := by
  have hrange := toNat_of_isDigit h
  simp [Char.isAlpha, Char.isUpper, Char.isLower, UInt32.le_iff_toNat_le]
  omega

theorem Numeral.letterless {cs : List Char} {v : Int} (h : Numeral cs v) : Letterless cs := by
  obtain ⟨sign, -, hdigits⟩ := h
  have hsign : Letterless sign.text := by
    cases sign <;> simp [Letterless, Sign.text]
  exact List.forall_mem_append.2 ⟨hsign, fun c hc => isAlpha_of_isDigit (hdigits c hc)⟩

theorem Numeral.printable {cs : List Char} {v : Int} (h : Numeral cs v) : Printable cs := by
  obtain ⟨sign, -, hdigits⟩ := h
  have hsign : Printable sign.text := by
    cases sign <;> decide
  refine hsign.append fun c hc => ?_
  have hrange := toNat_of_isDigit (hdigits c hc)
  omega

theorem Numeral.ne_nil {cs : List Char} {v : Int} (h : Numeral cs v) : cs ≠ [] := by
  obtain ⟨sign, hne, -⟩ := h
  exact List.append_ne_nil_of_right_ne_nil _ hne

/-! ### Names -/

/-- A built-in name is found by its upper case. -/
theorem find?_uppercase_eq_some_iff {cs : List Char} {b : Builtin} :
    (Builtin.all.find? fun b => b.uppercase.toList = cs) = some b ↔ b.uppercase.toList = cs := by
  constructor
  · intro h
    simpa using List.find?_some h
  · rintro rfl
    cases b <;> rfl

theorem map_toUpper_lowercase (b : Builtin) :
    b.lowercase.toList.map Char.toUpper = b.uppercase.toList := by
  cases b <;> rfl

/-- A text is a name in some case exactly if its upper case is the name in upper case. -/
theorem sameButCase_lowercase_iff {cs : List Char} {b : Builtin} :
    SameButCase cs b.lowercase.toList ↔ b.uppercase.toList = cs.map Char.toUpper := by
  rw [sameButCase_iff_toUpper, map_toUpper_lowercase, eq_comm]

theorem printable_lowercase (b : Builtin) : Printable b.lowercase.toList := by
  cases b <;> simp [Printable, Builtin.lowercase]

/-- Names are made of letters, and a numeral has none. -/
theorem find?_numeral {cs : List Char} {v : Int} (h : Numeral cs v) :
    (Builtin.all.find? fun b => b.uppercase.toList = cs) = none := by
  rw [List.find?_eq_none]
  intro b _ hb
  obtain ⟨c, hc⟩ := List.exists_mem_of_ne_nil cs h.ne_nil
  have hletters : ∀ c ∈ b.uppercase.toList, c.isAlpha := by
    cases b <;> simp [Builtin.uppercase, Char.isAlpha, Char.isUpper]
  rw [of_decide_eq_true hb] at hletters
  have hletter := hletters c hc
  rw [h.letterless c hc] at hletter
  cases hletter

/-! ### Spelled texts -/

theorem Spells.printable {cs : List Char} {l : Severity} (h : Spells cs l) : Printable cs := by
  cases h with
  | name b h => exact h.printable (printable_lowercase b)
  | number h => exact h.printable

theorem Spells.ne_nil {cs : List Char} {l : Severity} (h : Spells cs l) : cs ≠ [] := by
  cases h with
  | name b h =>
      rintro rfl
      cases b <;> cases h
  | number h => exact h.ne_nil

/-- What a level is shown as spells it, in any case. -/
theorem spells_display {cs : List Char} {l : Severity} (h : SameButCase cs l.display.toList) :
    Spells cs l := by
  rw [display, builtinName?] at h
  cases hb : l.builtin? with
  | some b =>
      rw [hb] at h
      obtain rfl := builtin?_eq_some_iff.1 hb
      have hname : SameButCase b.uppercase.toList b.lowercase.toList := by
        rw [SameButCase, ← map_toUpper_lowercase]
        simp
      exact .name b (h.trans hname)
  | none =>
      have hnumber : Numeral l.number l.level.toInt := numeral_integer _
      have hshown : SameButCase cs l.number := by simpa [hb] using h
      rw [hshown.eq_of_letterless hnumber.letterless]
      exact .number hnumber

/-! ### Reading -/

/-- Once the white space around it is gone, a text of ASCII is read as the level that it spells. -/
theorem ofText?_eq_some_iff {s : String} (hascii : Ascii (trim s.toList)) {l : Severity} :
    ofText? s = some l ↔ Spells (trim s.toList) l := by
  rw [ofText?, upper_of_ascii hascii]
  generalize trim s.toList = cs
  constructor
  · intro h
    split at h
    · rename_i b hfound
      cases h
      exact .name b (sameButCase_lowercase_iff.2 (find?_uppercase_eq_some_iff.1 hfound))
    · obtain ⟨v, hv, hl⟩ := Option.bind_eq_some_iff.1 h
      have hnumeral := integer?_eq_some_iff.1 hv
      obtain rfl := ofInt?_eq_some_iff.1 hl
      rw [← eq_of_map_toUpper rfl hnumeral.letterless] at hnumeral
      exact .number hnumeral
  · intro h
    cases h with
    | name b h => simp only [find?_uppercase_eq_some_iff.2 (sameButCase_lowercase_iff.1 h)]
    | number h =>
        rw [h.letterless.map_toUpper]
        simp only [find?_numeral h]
        rw [integer?_eq_some_iff.2 h, Option.bind_some]
        exact ofInt?_eq_some_iff.2 rfl

/-- A spelled text is read between any white space. -/
theorem ofText?_between {before cs after : List Char} {l : Severity} (hbefore : Blank before)
    (h : Spells cs l) (hafter : Blank after) :
    ofText? (String.ofList (before ++ cs ++ after)) = some l := by
  have htrim : trim (String.ofList (before ++ cs ++ after)).toList = cs := by
    rw [String.toList_ofList]
    exact trim_between hbefore h.printable.unblank h.ne_nil hafter
  have hascii : Ascii (trim (String.ofList (before ++ cs ++ after)).toList) := by
    rw [htrim]
    exact h.printable.ascii
  rw [ofText?_eq_some_iff hascii, htrim]
  exact h

theorem ofText_eq_ok_iff {s : String} {l : Severity} : ofText s = .ok l ↔ ofText? s = some l := by
  rw [ofText]
  cases ofText? s <;> simp

/-- **Reading accepts the grammar and inverts showing.** A text of ASCII is read as a level exactly if,
but for the white space of ASCII around it, it spells the level: a built-in name in any case, or a
number with an optional sign and any zeros in front. Any other text is refused with a message that
quotes it as it was given. What a level is shown as is read as that level, with the case of any letters
changed and any white space around it. -/
theorem ofText_spelled :
    (∀ s : String, Ascii s.toList → ∀ l, ofText s = .ok l ↔
      ∃ before cs after, s.toList = before ++ cs ++ after ∧ before ⊆ asciiBlanks ∧ Spells cs l ∧
        after ⊆ asciiBlanks) ∧
    (∀ s : String, (∀ l, ofText s ≠ .ok l) → ofText s = .error ("Invalid severity: '" ++ s ++ "'")) ∧
    (∀ (l : Severity) before cs after, Blank before → SameButCase cs l.display.toList → Blank after →
      ofText (String.ofList (before ++ cs ++ after)) = .ok l) := by
  refine ⟨?_, ?_, ?_⟩
  · intro s hascii l
    rw [ofText_eq_ok_iff]
    constructor
    · intro h
      obtain ⟨before, after, hsplit, hbefore, hafter⟩ := exists_trim s.toList
      rw [hsplit] at hascii
      obtain ⟨hfront, hasciiAfter⟩ := List.forall_mem_append.1 hascii
      obtain ⟨hasciiBefore, hasciiCore⟩ := List.forall_mem_append.1 hfront
      exact ⟨before, _, after, hsplit, (blank_iff_of_ascii hasciiBefore).1 hbefore,
        (ofText?_eq_some_iff hasciiCore).1 h, (blank_iff_of_ascii hasciiAfter).1 hafter⟩
    · rintro ⟨before, cs, after, hsplit, hbefore, hspells, hafter⟩
      rw [hsplit] at hascii
      obtain ⟨hfront, hasciiAfter⟩ := List.forall_mem_append.1 hascii
      obtain ⟨hasciiBefore, -⟩ := List.forall_mem_append.1 hfront
      rw [← String.ofList_toList (s := s), hsplit]
      exact ofText?_between ((blank_iff_of_ascii hasciiBefore).2 hbefore) hspells
        ((blank_iff_of_ascii hasciiAfter).2 hafter)
  · intro s h
    rw [ofText]
    cases hs : ofText? s with
    | some l => exact absurd (ofText_eq_ok_iff.2 hs) (h l)
    | none => rfl
  · intro l before cs after hbefore hcase hafter
    exact ofText_eq_ok_iff.2 (ofText?_between hbefore (spells_display hcase) hafter)

/-- The least level is read behind zeros. A sign without digits is refused, and a name in both cases is
read before a line separator. -/
theorem ofText_spelled_padded :
    ofText " \t-0002147483648\n" = .ok ⟨-2147483648⟩ ∧
      ofText "+ 5" = .error "Invalid severity: '+ 5'" ∧
      ofText "\u3000nOTICE\u2028" = .ok ⟨300⟩ := by
  obtain ⟨hgrammar, hrefused, hshown⟩ := ofText_spelled
  refine ⟨?_, ?_, ?_⟩
  · refine (hgrammar _ (by decide) _).2
      ⟨[' ', '\t'], "-0002147483648".toList, ['\n'], rfl, by decide, ?_, by decide⟩
    exact .number (@Numeral.of .minus "0002147483648".toList (by decide) (by decide))
  · have hnone : ofText? "+ 5" = none := by decide
    refine hrefused "+ 5" fun l h => ?_
    rw [ofText_eq_ok_iff, hnone] at h
    cases h
  · exact hshown ⟨300⟩ ['\u3000'] "nOTICE".toList ['\u2028'] (by decide) (by decide) (by decide)

end LineLog.Severity
