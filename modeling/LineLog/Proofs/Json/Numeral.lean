import LineLog.Proofs.Json.Quoted
import LineLog.Proofs.Decimal.Digits
/-!
# LineLog.Proofs.Json.Numeral

Numbers are read back as they are written.

A number literal is laid out by `Literal.plain`, with its exponent apart. If its digits
stand as the grammar wants them (`Literal.WellFormed`), the reader takes the literal
off the front of any text that does not go on with a digit or a point
(`literal_plain`). A number is the one kind of value that ends by what follows it, so
this is where `Closes` is needed.

Every number that the library writes is shown to be laid out by `plain`, so the reader
is opened here and nowhere else. `Literal.value` is what a literal is worth.
-/

namespace LineLog.Json

open Decimal

namespace Literal

/-- The text of a number without its exponent. -/
def plain (l : Literal) : List Char :=
  (if l.negative then ['-'] else []) ++ l.whole ++
    (if l.places = [] then [] else '.' :: l.places)

/-- The digits stand as they may: at least one before the point, without a zero in front of others. -/
structure WellFormed (l : Literal) : Prop where
  whole_digits : Digits l.whole
  whole_ne_nil : l.whole ≠ []
  no_leading_zero : l.whole.head? = some '0' → l.whole = ['0']
  places_digits : Digits l.places

/-- What a number is worth, its sign apart. -/
def magnitude (l : Literal) : ℚ :=
  (Nat.ofDigitChars 10 l.whole 0 + placeValue l.places) * 10 ^ l.exponent.getD 0

/-- What a number is worth. -/
def value (l : Literal) : ℚ :=
  if l.negative then -l.magnitude else l.magnitude

/-- The number is written in the one way that there is for it with so many places at most: no exponent,
no zero in front of other digits or at the end of the places, and no sign on a zero. -/
structure Canonical (l : Literal) (places : Nat) : Prop where
  wellFormed : l.WellFormed
  exponent_eq : l.exponent = none
  length_places : l.places.length ≤ places
  getLast?_places : l.places.getLast? ≠ some '0'
  magnitude_pos : l.negative → 0 < l.magnitude

end Literal

/-! ### Runs of digits -/

/-- The text does not go on with a digit. -/
def NoDigit (rest : List Char) : Prop :=
  ∀ c ∈ rest.head?, c.isDigit = false

theorem Closes.noDigit {rest : List Char} (h : Closes rest) : NoDigit rest := by
  intro c hc
  rcases h c hc with rfl | rfl | rfl <;> rfl

/-- Digits are read up to the first character that is none. -/
theorem digitRun_append {ds rest : List Char} (hds : Digits ds) (hrest : NoDigit rest) :
    digitRun (ds ++ rest) = (ds, rest) := by
  unfold digitRun
  induction ds with
  | nil =>
      cases rest with
      | nil => rfl
      | cons c rest => simp [hrest c (by simp)]
  | cons d ds ih =>
      obtain ⟨hd, hds⟩ := digits_cons.1 hds
      have := ih hds
      simp_all

theorem someDigits_append {ds rest : List Char} (hds : Digits ds) (hne : ds ≠ [])
    (hrest : NoDigit rest) : someDigits (ds ++ rest) = .ok (ds, rest) := by
  obtain ⟨d, ds, rfl⟩ := List.exists_cons_of_ne_nil hne
  have hrun := digitRun_append hds hrest
  rw [List.cons_append] at hrun ⊢
  simp [someDigits, hrun]

/-- Digits that are read stand at the front of the text. -/
theorem someDigits_eq_ok {cs ds rest : List Char} (h : someDigits cs = .ok (ds, rest)) :
    ds ≠ [] ∧ cs = ds ++ rest := by
  unfold someDigits at h
  split at h
  · exact absurd h (by simp)
  · split at h
    · exact absurd h (by simp)
    · rename_i hnil
      have hrun := Except.ok.inj h
      refine ⟨?_, ?_⟩
      · rintro rfl
        exact hnil _ hrun
      · have hds := congrArg Prod.fst hrun
        have hrest := congrArg Prod.snd hrun
        dsimp only [digitRun] at hds hrest
        rw [← hds, ← hrest, List.takeWhile_append_dropWhile]

/-! ### The parts of a number -/

theorem integerPart_append {ds rest : List Char} (hds : Digits ds) (hne : ds ≠ [])
    (hzero : ds.head? = some '0' → ds = ['0']) (hrest : NoDigit rest) :
    integerPart (ds ++ rest) = .ok (ds, rest) := by
  rw [integerPart, someDigits_append hds hne hrest]
  simp only [bind, Except.bind]
  split
  · rename_i a as
    simp at hzero
  · rfl

theorem fractionPart_append {ds rest : List Char} (hds : Digits ds) (hrest : NoDigit rest)
    (hpoint : ∀ c ∈ rest.head?, c ≠ '.') :
    fractionPart ((if ds = [] then [] else '.' :: ds) ++ rest) = .ok (ds, rest) := by
  by_cases hne : ds = []
  · subst hne
    rw [if_pos rfl, List.nil_append]
    cases rest with
    | nil => rfl
    | cons c rest =>
        have hc : c ≠ '.' := hpoint c (by simp)
        unfold fractionPart
        split
        · rename_i heq
          exact absurd (List.cons.inj heq).1 hc
        · rfl
  · rw [if_neg hne, List.cons_append, fractionPart]
    exact someDigits_append hds hne hrest

/-- A fraction that is read stands at the front of the text. -/
theorem fractionPart_eq_ok {cs ds rest : List Char} (h : fractionPart cs = .ok (ds, rest)) :
    cs = (if ds = [] then [] else '.' :: ds) ++ rest := by
  unfold fractionPart at h
  split at h
  · obtain ⟨hne, rfl⟩ := someDigits_eq_ok h
    rw [if_neg hne, List.cons_append]
  · obtain ⟨rfl, rfl⟩ := Prod.mk.inj (Except.ok.inj h)
    rw [if_pos rfl, List.nil_append]

theorem Closes.no_point {rest : List Char} (h : Closes rest) : ∀ c ∈ rest.head?, c ≠ '.' := by
  intro c hc
  rcases h c hc with rfl | rfl | rfl <;> decide

theorem Closes.exponentPart {rest : List Char} (h : Closes rest) :
    exponentPart rest = .ok (none, rest) := by
  cases rest with
  | nil => rfl
  | cons c rest =>
      rcases h c (by simp) with rfl | rfl | rfl <;> rfl

/-! ### Whole numbers -/

/-- A well-formed literal is taken off the front of a text, together with the exponent that
follows. -/
theorem literal_plain {l : Literal} (hl : l.WellFormed) {rest left : List Char} {e : Option Int}
    (hdigit : NoDigit rest) (hpoint : ∀ c ∈ rest.head?, c ≠ '.')
    (he : exponentPart rest = .ok (e, left)) :
    literal (l.plain ++ rest) = .ok ({ l with exponent := e }, left) := by
  -- The digits before the point end at the point, or where the number does.
  have hafter : NoDigit ((if l.places = [] then [] else '.' :: l.places) ++ rest) := by
    split
    · exact hdigit
    · intro c hc
      obtain rfl : '.' = c := by simpa using hc
      rfl
  have hunsigned : ∀ negative, unsignedLiteral negative
      (l.whole ++ ((if l.places = [] then [] else '.' :: l.places) ++ rest)) =
        .ok (⟨negative, l.whole, l.places, e⟩, left) := by
    intro negative
    rw [unsignedLiteral,
      integerPart_append hl.whole_digits hl.whole_ne_nil hl.no_leading_zero hafter]
    simp only [bind, Except.bind, fractionPart_append hl.places_digits hdigit hpoint, he]
    rfl
  obtain ⟨d, ds, hd⟩ := List.exists_cons_of_ne_nil hl.whole_ne_nil
  -- A number without a sign must not be taken for one with a sign.
  have hnotMinus : d ≠ '-' := ne_of_isDigit (hl.whole_digits d (by simp [hd])) (by decide)
  unfold Literal.plain
  cases hneg : l.negative with
  | true =>
      simp only [if_true, List.append_assoc, List.cons_append, List.nil_append, literal]
      rw [hunsigned true, ← hneg]
  | false =>
      have hread := hunsigned false
      rw [hd, List.cons_append] at hread
      simp only [Bool.false_eq_true, if_false, List.append_assoc, List.nil_append, hd,
        List.cons_append]
      unfold literal
      split
      · rename_i heq
        exact absurd (List.cons.inj heq).1 hnotMinus
      · rw [hread, ← hd, ← hneg]

/-- A text that starts as a number is read as one. -/
theorem treeWith_number {c : Char} (hc : c = '-' ∨ c.isDigit) (fuel : Nat) (cs : List Char) :
    treeWith (fuel + 1) (c :: cs) =
      (literal (c :: cs)).map fun (l, rest) => (.number l, rest) := by
  -- Blanks and the starts of all other values come before numbers in the reader.
  have hstarts : ∀ d ∈ [' ', '\n', '\t', '\r', 'n', 't', 'f', '"', '[', '{'],
      ¬ (d = '-' ∨ d.isDigit) := by simp
  have hother : ∀ d ∈ [' ', '\n', '\t', '\r', 'n', 't', 'f', '"', '[', '{'], c ≠ d := by
    rintro d hd rfl
    exact hstarts _ hd hc
  have hskip : skipBlanks (c :: cs) = c :: cs := by
    simp [skipBlanks, isBlank, hother]
  simp [treeWith, hskip, hother, hc]

theorem Literal.plain_cons {l : Literal} (hl : l.WellFormed) :
    ∃ c cs, l.plain = c :: cs ∧ (c = '-' ∨ c.isDigit) := by
  obtain ⟨d, ds, hd⟩ := List.exists_cons_of_ne_nil hl.whole_ne_nil
  have hdigit : d.isDigit := hl.whole_digits d (by simp [hd])
  unfold plain
  cases l.negative with
  | true => exact ⟨_, _, rfl, .inl rfl⟩
  | false => exact ⟨d, _, by simp only [hd]; rfl, .inr hdigit⟩

/-! ### The judgement -/

theorem visible_digits {cs : List Char} (h : Digits cs) : Visible cs := by
  intro c hc
  have := h c hc
  simp only [Char.isDigit, ge_iff_le, Bool.and_eq_true, decide_eq_true_eq] at this
  have hlow : (48 : UInt32).toNat ≤ c.val.toNat := this.1
  exact le_trans (by decide) hlow

theorem Literal.visible_plain {l : Literal} (hl : l.WellFormed) : Visible l.plain := by
  have hwhole : Visible l.whole := visible_digits hl.whole_digits
  have hplaces : Visible l.places := visible_digits hl.places_digits
  unfold plain
  refine visible_append.2 ⟨visible_append.2 ⟨?_, hwhole⟩, ?_⟩
  · split <;> simp [visible_nil]
  · split
    · exact visible_nil
    · simpa using hplaces

/-- A number with an exponent is compact if the reader of exponents takes the exponent for one. -/
theorem Compact.numberWith {l : Literal} (hl : l.WellFormed) {tail : List Char} {e : Option Int}
    (hread : ∀ rest, Closes rest → NoDigit (tail ++ rest) ∧
      (∀ c ∈ (tail ++ rest).head?, c ≠ '.') ∧ exponentPart (tail ++ rest) = .ok (e, rest))
    (hvisible : Visible tail) :
    Compact (l.plain ++ tail) (.number { l with exponent := e }) where
  reads fuel rest hfuel hrest := by
    obtain ⟨fuel, rfl⟩ : ∃ n, fuel = n + 1 := ⟨fuel - 1, by omega⟩
    obtain ⟨c, cs, hcs, hc⟩ := Literal.plain_cons hl
    obtain ⟨hdigit, hpoint, hexp⟩ := hread rest hrest
    have hliteral := literal_plain hl hdigit hpoint hexp
    rw [List.append_assoc]
    rw [hcs, List.cons_append] at hliteral ⊢
    rw [treeWith_number hc, hliteral]
    rfl
  visible := visible_append.2 ⟨Literal.visible_plain hl, hvisible⟩

/-- **A well-formed number is a compact number**, and the number is as it is written. -/
theorem Compact.number {l : Literal} (hl : l.WellFormed) (he : l.exponent = none) :
    Compact l.plain (.number l) := by
  have h : Compact (l.plain ++ []) (.number { l with exponent := none }) :=
    .numberWith hl (fun rest hrest => ⟨hrest.noDigit, hrest.no_point, hrest.exponentPart⟩)
      visible_nil
  rw [List.append_nil, ← he] at h
  exact h

/-! ### Integers -/

/-- The literal of an integer. -/
def Literal.ofInt (n : Int) : Literal where
  negative := decide (n < 0)
  whole := natural n.natAbs

theorem Literal.ofInt_wellFormed (n : Int) : (ofInt n).WellFormed where
  whole_digits := digits_natural _
  whole_ne_nil := natural_ne_nil _
  no_leading_zero h := by
    have h0 : n.natAbs = 0 := eq_zero_of_head?_natural h
    simp [ofInt, h0, natural_zero]
  places_digits := digits_nil

theorem Literal.plain_ofInt (n : Int) : (ofInt n).plain = Decimal.integer n := by
  cases n with
  | ofNat n => simp [plain, ofInt, Decimal.integer]
  | negSucc n => simp [plain, ofInt, Decimal.integer, Int.negSucc_lt_zero]

@[simp] theorem Literal.value_ofInt (n : Int) : (ofInt n).value = n := by
  have hmagnitude : (ofInt n).magnitude = (n.natAbs : ℚ) := by simp [magnitude, ofInt]
  rw [value, hmagnitude, Nat.cast_natAbs]
  by_cases h : n < 0
  · simp [ofInt, h, abs_of_neg h]
  · simp [ofInt, h, abs_of_nonneg (not_lt.1 h)]

/-- **An integer is a compact number**, and the number is worth it. -/
theorem Compact.integer (n : Int) : Compact (Decimal.integer n) (.number (.ofInt n)) := by
  rw [← Literal.plain_ofInt]
  exact .number (Literal.ofInt_wellFormed n) rfl

/-! ### Worth -/

namespace Tree

/-- The tree is a number without an exponent, and the number is worth `q`. -/
def IsDecimal (q : ℚ) (t : Tree) : Prop :=
  ∃ l : Literal, t = .number l ∧ l.exponent = none ∧ l.value = q

/-- The tree is a number without a point and without an exponent, and the number is worth `n`. -/
def IsInteger (n : Int) (t : Tree) : Prop :=
  ∃ l : Literal, t = .number l ∧ l.places = [] ∧ l.exponent = none ∧ l.value = n

theorem isInteger_ofInt (n : Int) : IsInteger n (.number (.ofInt n)) :=
  ⟨.ofInt n, rfl, rfl, rfl, Literal.value_ofInt n⟩

end Tree
end LineLog.Json
