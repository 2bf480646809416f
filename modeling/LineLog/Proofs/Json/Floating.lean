import LineLog.Decimal.Style
import LineLog.Proofs.Decimal.Shortest
import LineLog.Proofs.Json.Numeral
/-!
# LineLog.Proofs.Json.Floating

Finite floating-point numbers are numbers of JSON, and read back.

A style lays out the digits of a shortest decimal in one of three ways without an
exponent, or in one way with one. Each layout is a well-formed literal
(`Style.literal`, `Style.scientificLiteral`) that is worth the decimal, so together with
`Finite.readsBack_shortest` a reader finds a number that rounds to the one that was
written.

Design points:

* The layouts want digits that start with no zero and of which there is at least one
  (`Significant`); what is left of a natural number without its trailing zeros is so.
* The exponent is no part of the text of `Literal.plain`. It is put behind it by
  `Compact.numberWith`.
-/

namespace LineLog.Json

open Decimal

/-- Digits that start with no zero; there is at least one. -/
structure Significant (ds : List Char) : Prop where
  digits : Digits ds
  ne_nil : ds ≠ []
  head_ne_zero : ds.head? ≠ some '0'

theorem significant_dropTrailingZeros {n : Nat} (h : n ≠ 0) :
    Significant (dropTrailingZeros (natural n)) := by
  have hne : dropTrailingZeros (natural n) ≠ [] := dropTrailingZeros_ne_nil (by simpa using h)
  refine ⟨digits_dropTrailingZeros (digits_natural n), hne, ?_⟩
  intro hhead
  refine h ?_
  obtain ⟨k, hk⟩ := dropTrailingZeros_append (natural n)
  refine eq_zero_of_head?_natural ?_
  rw [← hk, List.head?_append_of_ne_nil _ hne]
  exact hhead

/-- Part of the digits, from the first on, has no leading zero either. -/
theorem Significant.take {ds : List Char} (hds : Significant ds) {n : Nat} (hn : 0 < n) :
    Significant (ds.take n) := by
  obtain ⟨d, ds, rfl⟩ := List.exists_cons_of_ne_nil hds.ne_nil
  obtain ⟨n, rfl⟩ : ∃ m, n = m + 1 := ⟨n - 1, by omega⟩
  refine ⟨hds.digits.subset (List.take_subset _ _), by simp, ?_⟩
  simpa using hds.head_ne_zero

/-- The digits before the point and those behind it are worth what they are worth together. -/
theorem ofDigitChars_add_placeValue (a b : List Char) :
    (Nat.ofDigitChars 10 a 0 : ℚ) + placeValue b =
      Nat.ofDigitChars 10 (a ++ b) 0 / 10 ^ b.length := by
  have hshift : Nat.ofDigitChars 10 b (Nat.ofDigitChars 10 a 0) =
      10 ^ b.length * Nat.ofDigitChars 10 a 0 + Nat.ofDigitChars 10 b 0 :=
    Nat.ofDigitChars_eq_ofDigitChars_zero
  rw [Nat.ofDigitChars_append, hshift, placeValue]
  push_cast
  field_simp

theorem placeValue_zeros (ds : List Char) (n : Nat) :
    placeValue (List.replicate n '0' ++ ds) =
      Nat.ofDigitChars 10 ds 0 / 10 ^ (n + ds.length) := by
  rw [placeValue, ofDigitChars_replicate_append, List.length_append, List.length_replicate]

/-! ### Layouts without an exponent -/

/-- What stands behind the point of a whole number. -/
def wholePlaces (s : Style) : List Char :=
  if s.pointZero then ['0'] else []

theorem digits_wholePlaces (s : Style) : Digits (wholePlaces s) := by
  unfold wholePlaces
  split <;> decide

theorem placeValue_wholePlaces (s : Style) : placeValue (wholePlaces s) = 0 := by
  unfold wholePlaces
  split
  · exact (placeValue_append_zero [] 1).trans placeValue_nil
  · exact placeValue_nil

/-- The literal of the decimal `ds * 10 ^ exponent` without an exponent. -/
def positionalLiteral (s : Style) (negative : Bool) (ds : List Char) (exponent : Int) : Literal :=
  if 0 ≤ exponent then
    { negative, whole := ds ++ List.replicate exponent.toNat '0', places := wholePlaces s }
  else if (-exponent).toNat < ds.length then
    { negative
      whole := ds.take (ds.length - (-exponent).toNat)
      places := ds.drop (ds.length - (-exponent).toNat) }
  else
    { negative
      whole := ['0']
      places := List.replicate ((-exponent).toNat - ds.length) '0' ++ ds }

section Positional

variable (s : Style) (negative : Bool) {ds : List Char} (exponent : Int)

@[simp] theorem positionalLiteral_negative :
    (positionalLiteral s negative ds exponent).negative = negative := by
  unfold positionalLiteral
  split
  · rfl
  · split <;> rfl

@[simp] theorem positionalLiteral_exponent :
    (positionalLiteral s negative ds exponent).exponent = none := by
  unfold positionalLiteral
  split
  · rfl
  · split <;> rfl

theorem magnitude_positionalLiteral :
    (positionalLiteral s negative ds exponent).magnitude =
      Nat.ofDigitChars 10 ds 0 * 10 ^ exponent := by
  rw [Literal.magnitude, positionalLiteral_exponent, Option.getD_none, zpow_zero, mul_one]
  unfold positionalLiteral
  split
  · rename_i hnonneg
    obtain ⟨n, rfl⟩ := Int.eq_ofNat_of_zero_le hnonneg
    simp [placeValue_wholePlaces, ofDigitChars_append_zero]
  · -- The point stands inside the digits or in front of them.
    rename_i hneg
    obtain ⟨n, rfl⟩ : ∃ n : Nat, exponent = -(n : Int) := ⟨(-exponent).toNat, by omega⟩
    rw [zpow_neg, zpow_natCast, ← div_eq_mul_inv]
    simp only [neg_neg, Int.toNat_natCast]
    split
    · rename_i hlt
      rw [ofDigitChars_add_placeValue, List.take_append_drop, List.length_drop]
      congr 2
      omega
    · rename_i hlt
      rw [placeValue_zeros]
      simp only [Nat.ofDigitChars_cons, Nat.ofDigitChars_nil]
      rw [Nat.sub_add_cancel (by omega)]
      simp

variable (hds : Significant ds)

include hds

theorem positionalLiteral_wellFormed :
    (positionalLiteral s negative ds exponent).WellFormed := by
  unfold positionalLiteral
  split
  · refine ⟨digits_append.2 ⟨hds.digits, digits_replicate_zero _⟩, ?_, ?_, digits_wholePlaces s⟩
    · simp [hds.ne_nil]
    · intro hhead
      rw [List.head?_append_of_ne_nil _ hds.ne_nil] at hhead
      exact absurd hhead hds.head_ne_zero
  · split
    · rename_i hlt
      have hfront : Significant (ds.take (ds.length - (-exponent).toNat)) := hds.take (by omega)
      exact ⟨hfront.digits, hfront.ne_nil, fun hhead => absurd hhead hfront.head_ne_zero,
        hds.digits.subset (List.drop_subset _ _)⟩
    · exact ⟨show Digits ['0'] by decide, by simp, fun _ => rfl,
        digits_append.2 ⟨digits_replicate_zero _, hds.digits⟩⟩

theorem plain_positionalLiteral :
    (positionalLiteral s negative ds exponent).plain =
      (if negative then ['-'] else []) ++ s.layPositional ds exponent := by
  unfold positionalLiteral Style.layPositional
  split
  · unfold Literal.plain wholePlaces Style.wholeSuffix
    cases s.pointZero <;> simp
  · simp only []
    split
    · rename_i hneg hlt
      have hplaces : ds.drop (ds.length - (-exponent).toNat) ≠ [] := by
        have : 0 < ds.length := List.length_pos_iff.2 hds.ne_nil
        simp
        omega
      simp [Literal.plain, hplaces]
    · simp [Literal.plain, hds.ne_nil]

/-- A layout without an exponent is a well-formed literal that is worth its digits. -/
theorem exists_plain_layPositional :
    ∃ n : Literal, n.WellFormed ∧ n.exponent = none ∧
      n.plain = (if negative then ['-'] else []) ++ s.layPositional ds exponent ∧ n.negative = negative ∧
      n.magnitude = Nat.ofDigitChars 10 ds 0 * 10 ^ exponent :=
  ⟨positionalLiteral s negative ds exponent, positionalLiteral_wellFormed s negative exponent hds,
    positionalLiteral_exponent _ _ _, plain_positionalLiteral s negative exponent hds,
    positionalLiteral_negative _ _ _, magnitude_positionalLiteral _ _ _⟩

end Positional

/-! ### Layouts with an exponent -/

/-- The text of an exponent. -/
def exponentText (s : Style) (power : Int) : List Char :=
  'e' :: s.exponentSign power ++ Decimal.integer power

theorem visible_exponentText (s : Style) (power : Int) : Visible (exponentText s power) := by
  have hsign : Visible (s.exponentSign power) := by
    unfold Style.exponentSign
    split <;> decide
  have hpower : Visible (Decimal.integer power) := (Compact.integer power).visible
  simp [exponentText, hsign, hpower]

/-- An exponent is read back. -/
theorem exponentPart_exponentText (s : Style) (power : Int) {rest : List Char}
    (hrest : Closes rest) :
    exponentPart (exponentText s power ++ rest) = .ok (some power, rest) := by
  have hrun : ∀ n, someDigits (natural n ++ rest) = .ok (natural n, rest) := fun n =>
    someDigits_append (digits_natural n) (natural_ne_nil n) hrest.noDigit
  cases power with
  | ofNat n =>
      rw [exponentText, Style.exponentSign]
      split
      · simp [Decimal.integer, exponentPart, hrun, bind, Except.bind, pure, Except.pure]
      · -- Without a sign, the first character is a digit and so neither of the signs.
        obtain ⟨d, ds, hd⟩ := List.exists_cons_of_ne_nil (natural_ne_nil n)
        have hdigit : d.isDigit := digits_natural n d (by simp [hd])
        have hplus : d ≠ '+' := by rintro rfl; simp at hdigit
        have hminus : d ≠ '-' := by rintro rfl; simp at hdigit
        have hread := hrun n
        rw [hd, List.cons_append] at hread
        have hvalue := ofDigitChars_natural n
        rw [hd] at hvalue
        simp [Decimal.integer, exponentPart, hd, hplus, hminus, hread, hvalue, bind, Except.bind,
          pure, Except.pure]
  | negSucc n =>
      have hnegative : s.exponentSign (Int.negSucc n) = [] := by simp [Style.exponentSign]
      rw [exponentText, hnegative]
      simp [Decimal.integer, exponentPart, hrun, bind, Except.bind, pure, Except.pure,
        Int.negSucc_eq]

/-- The literal of digits with a point after the first, for a given power of ten. -/
def scientificLiteral (negative : Bool) (ds : List Char) (power : Int) : Literal where
  negative := negative
  whole := ds.take 1
  places := ds.drop 1
  exponent := some power

section Scientific

variable (s : Style) (negative : Bool) {ds : List Char} (power : Int) (hds : Significant ds)

include hds

theorem scientificLiteral_wellFormed : (scientificLiteral negative ds power).WellFormed :=
  have hfront : Significant (ds.take 1) := hds.take (by decide)
  ⟨hfront.digits, hfront.ne_nil, fun hhead => absurd hhead hfront.head_ne_zero,
    hds.digits.subset (List.drop_subset _ _)⟩

omit hds in
theorem plain_scientificLiteral :
    (scientificLiteral negative ds power).plain ++ exponentText s power =
      (if negative then ['-'] else []) ++ s.layScientific ds power := by
  unfold Style.layScientific scientificLiteral Literal.plain exponentText
  cases ds.drop 1 <;> simp

theorem magnitude_scientificLiteral (exponent : Int) :
    (scientificLiteral negative ds (exponent + ds.length - 1)).magnitude =
      Nat.ofDigitChars 10 ds 0 * 10 ^ exponent := by
  have hlength : 0 < ds.length := List.length_pos_iff.2 hds.ne_nil
  rw [Literal.magnitude, scientificLiteral, ofDigitChars_add_placeValue, List.take_append_drop,
    List.length_drop, Option.getD_some,
    show exponent + ds.length - 1 = exponent + ((ds.length - 1 : Nat) : Int) by omega,
    zpow_add₀ (by norm_num), zpow_natCast]
  field_simp

end Scientific

/-! ### Finite numbers -/

/-- The exponent that the digits have once their trailing zeros are moved into it. -/
theorem value_dropTrailingZeros (d : Scaled) :
    (Nat.ofDigitChars 10 (dropTrailingZeros (natural d.digits)) 0 : ℚ) *
        10 ^ (d.exponent + ((natural d.digits).length -
          (dropTrailingZeros (natural d.digits)).length : Nat)) =
      d.value := by
  obtain ⟨k, hk⟩ := dropTrailingZeros_append (natural d.digits)
  have hlength := congrArg List.length hk
  rw [List.length_append, List.length_replicate] at hlength
  have hvalue := congrArg (fun ds => (Nat.ofDigitChars 10 ds 0 : ℚ)) hk
  simp only [ofDigitChars_append_zero, ofDigitChars_natural, Nat.cast_mul, Nat.cast_pow] at hvalue
  rw [show (natural d.digits).length - (dropTrailingZeros (natural d.digits)).length = k by omega,
    zpow_add₀ (by norm_num), zpow_natCast, Scaled.value]
  calc _ = (Nat.ofDigitChars 10 (dropTrailingZeros (natural d.digits)) 0 : ℚ) *
        (10 : Nat) ^ k * 10 ^ d.exponent := by push_cast; ring
    _ = d.digits * 10 ^ d.exponent := by rw [hvalue]

/-- The layout of a decimal other than zero is a compact number that is worth the decimal. -/
theorem exists_compact_layOut (s : Style) (negative : Bool) {d : Scaled} (hd : d.digits ≠ 0) :
    ∃ n : Literal, Compact ((if negative then ['-'] else []) ++ s.layOut d) (.number n) ∧
      n.negative = negative ∧ n.magnitude = d.value ∧ (s.window = none → n.exponent = none) := by
  have hds := significant_dropTrailingZeros hd
  have hvalue := value_dropTrailingZeros d
  rw [Style.layOut]
  -- The layouts do not depend on where the digits come from.
  generalize dropTrailingZeros (natural d.digits) = ds at hds hvalue ⊢
  generalize d.exponent + (((natural d.digits).length - ds.length : Nat) : Int) = exponent
    at hvalue ⊢
  by_cases hpositional : s.positional (exponent + ds.length - 1)
  · obtain ⟨n, hwell, hexponent, hplain, hnegative, hmagnitude⟩ :=
      exists_plain_layPositional s negative exponent hds
    rw [if_pos hpositional, ← hplain]
    exact ⟨n, .number hwell hexponent, hnegative, hmagnitude.trans hvalue, fun _ => hexponent⟩
  · rw [if_neg hpositional, ← plain_scientificLiteral]
    refine ⟨scientificLiteral negative ds (exponent + ds.length - 1),
      .numberWith (scientificLiteral_wellFormed negative _ hds) ?_ (visible_exponentText s _), rfl,
      ?_, ?_⟩
    · -- The exponent starts with its letter, which neither is a digit nor a point.
      intro rest hrest
      have hhead : ∀ c ∈ (exponentText s (exponent + ds.length - 1) ++ rest).head?, c = 'e' := by
        intro c hc
        simpa [exponentText, eq_comm] using hc
      refine ⟨?_, ?_, exponentPart_exponentText s _ hrest⟩
      · intro c hc
        rw [hhead c hc]
        rfl
      · intro c hc
        rw [hhead c hc]
        decide
    · rw [magnitude_scientificLiteral negative hds, hvalue]
    · intro hwindow
      simp [Style.positional, hwindow] at hpositional

/-- The literal of a zero. -/
def zeroLiteral (s : Style) (negative : Bool) : Literal where
  negative := negative
  whole := ['0']
  places := wholePlaces s

theorem zeroLiteral_wellFormed (s : Style) (negative : Bool) :
    (zeroLiteral s negative).WellFormed :=
  ⟨show Digits ['0'] by decide, by simp [zeroLiteral], fun _ => rfl, digits_wholePlaces s⟩

theorem plain_zeroLiteral (s : Style) (negative : Bool) :
    (zeroLiteral s negative).plain =
      (if negative then ['-'] else []) ++ '0' :: s.wholeSuffix := by
  unfold Literal.plain zeroLiteral wholePlaces Style.wholeSuffix
  cases s.pointZero <;> simp

theorem magnitude_zeroLiteral (s : Style) (negative : Bool) :
    (zeroLiteral s negative).magnitude = 0 := by
  have hzero : Nat.ofDigitChars 10 ['0'] 0 = 0 := rfl
  simp [Literal.magnitude, zeroLiteral, placeValue_wholePlaces, hzero]

/-- Zero reads back to a zero of either sign. -/
theorem readsBack_zeroLiteral (s : Style) (l : Layout) {x : Finite} (hzero : x.mantissa = 0) :
    x.ReadsBack l (zeroLiteral s x.negative).magnitude := by
  have hread := x.readsBack_magnitude l
  rw [Finite.magnitude, hzero, Nat.cast_zero, zero_mul] at hread
  rw [magnitude_zeroLiteral]
  exact hread

theorem finite_eq (s : Style) (l : Layout) (x : Finite) :
    s.finite l x = (if x.negative then ['-'] else []) ++
      (if x.mantissa = 0 then '0' :: s.wholeSuffix else s.layOut (x.shortest l s.tie)) := by
  unfold Style.finite
  cases x.negative <;> simp

/-- **A finite number is a compact number with its sign, and reads back to it.** A style without a
window writes no exponent. -/
theorem exists_compact_finite (s : Style) (l : Layout) (x : Finite) :
    ∃ n : Literal, Compact (s.finite l x) (.number n) ∧ n.negative = x.negative ∧
      x.ReadsBack l n.magnitude ∧ (s.window = none → n.exponent = none) := by
  rw [finite_eq]
  by_cases hzero : x.mantissa = 0
  · rw [if_pos hzero, ← plain_zeroLiteral]
    exact ⟨zeroLiteral s x.negative, .number (zeroLiteral_wellFormed s _) rfl, rfl,
      readsBack_zeroLiteral s l hzero, fun _ => rfl⟩
  · rw [if_neg hzero]
    obtain ⟨n, hcompact, hnegative, hvalue, hexponent⟩ :=
      exists_compact_layOut s x.negative (Finite.digits_shortest_ne_zero l s.tie hzero)
    refine ⟨n, hcompact, hnegative, ?_, hexponent⟩
    rw [hvalue]
    exact Finite.readsBack_shortest l s.tie hzero

/-! ### Numbers without an exponent -/

section Plain

variable {s : Style} (hwindow : s.window = none)

include hwindow

theorem exists_plain_layOut (negative : Bool) {d : Scaled} (hd : d.digits ≠ 0) :
    ∃ n : Literal, n.WellFormed ∧ n.exponent = none ∧
      n.plain = (if negative then ['-'] else []) ++ s.layOut d ∧ n.negative = negative ∧
      n.magnitude = d.value := by
  have hpositional : ∀ power, s.positional power = true := fun power => by
    rw [Style.positional, hwindow]
  simp only [Style.layOut, hpositional, if_true]
  rw [← value_dropTrailingZeros d]
  exact exists_plain_layPositional s negative _ (significant_dropTrailingZeros hd)

/-- Without a window, the text of a finite number is a well-formed literal without an exponent. -/
theorem exists_plain_finite (l : Layout) (x : Finite) :
    ∃ n : Literal, n.WellFormed ∧ n.exponent = none ∧ s.finite l x = n.plain ∧
      n.negative = x.negative ∧ x.ReadsBack l n.magnitude := by
  rw [finite_eq]
  by_cases hzero : x.mantissa = 0
  · refine ⟨zeroLiteral s x.negative, zeroLiteral_wellFormed s _, rfl, ?_, rfl,
      readsBack_zeroLiteral s l hzero⟩
    rw [if_pos hzero, plain_zeroLiteral]
  · obtain ⟨n, hwell, hexponent, hplain, hnegative, hvalue⟩ :=
      exists_plain_layOut hwindow x.negative (Finite.digits_shortest_ne_zero l s.tie hzero)
    refine ⟨n, hwell, hexponent, ?_, hnegative, ?_⟩
    · rw [if_neg hzero, hplain]
    · rw [hvalue]
      exact Finite.readsBack_shortest l s.tie hzero

end Plain

end LineLog.Json
