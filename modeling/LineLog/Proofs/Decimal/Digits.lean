import LineLog.Decimal.Digits
import Mathlib.Algebra.Order.Field.Rat
import Mathlib.Tactic.FieldSimp
import Mathlib.Tactic.Linarith
import Mathlib.Tactic.Positivity
/-!
# LineLog.Proofs.Decimal.Digits

Runs of decimal digits: what they hold and what they are worth.

A numeral is put together from runs of digits, so every statement about a numeral comes
down to three facts about each run: it holds digits only (`Digits`), it does not start
with a zero that could be left out, and it has a value (`Nat.ofDigitChars 10`).
`placeValue` is the value of a run that stands behind the point.
-/

namespace LineLog.Decimal

/-- The text holds decimal digits only. -/
def Digits (cs : List Char) : Prop :=
  ∀ c ∈ cs, c.isDigit

instance (cs : List Char) : Decidable (Digits cs) :=
  List.decidableBAll _ cs

@[simp] theorem digits_nil : Digits [] := by simp [Digits]

@[simp] theorem digits_cons {c : Char} {cs : List Char} :
    Digits (c :: cs) ↔ c.isDigit ∧ Digits cs := by
  simp [Digits]

@[simp] theorem digits_append {a b : List Char} : Digits (a ++ b) ↔ Digits a ∧ Digits b := by
  simp [Digits, or_imp, forall_and]

@[simp] theorem digits_replicate_zero (n : Nat) : Digits (List.replicate n '0') := by
  intro c hc
  rw [List.eq_of_mem_replicate hc]
  rfl

/-- A part of a run of digits holds digits only. -/
theorem Digits.subset {a b : List Char} (h : Digits b) (hab : a ⊆ b) : Digits a :=
  fun c hc => h c (hab hc)

/-- A digit is no sign that is not a digit. -/
theorem ne_of_isDigit {c d : Char} (hc : c.isDigit) (hd : ¬ d.isDigit) : c ≠ d := by
  rintro rfl
  exact hd hc

/-! ### Natural numbers -/

theorem digits_natural (n : Nat) : Digits (natural n) :=
  fun _ hc => Nat.isDigit_of_mem_toDigits (by decide) (by decide) hc

theorem natural_ne_nil (n : Nat) : natural n ≠ [] :=
  Nat.toDigits_ne_nil

@[simp] theorem ofDigitChars_natural (n : Nat) : Nat.ofDigitChars 10 (natural n) 0 = n :=
  Nat.ofDigitChars_ten_toDigits

theorem natural_zero : natural 0 = ['0'] :=
  Nat.toDigits_zero 10

/-- A natural number starts with a zero only if it is zero. -/
theorem eq_zero_of_head?_natural {n : Nat} (h : (natural n).head? = some '0') : n = 0 := by
  induction n using Nat.strongRecOn with
  | ind n ih =>
      by_cases hn : n < 10
      · rw [natural, Nat.toDigits_of_lt_base hn] at h
        have hdigit : ∀ m < 10, some (Nat.digitChar m) = some '0' → m = 0 := by decide
        exact hdigit n hn h
      · have hsplit : natural n = natural (n / 10) ++ [Nat.digitChar (n % 10)] :=
          Nat.toDigits_of_base_le (by decide) (Nat.le_of_not_lt hn)
        rw [hsplit, List.head?_append_of_ne_nil _ (natural_ne_nil _)] at h
        have := ih (n / 10) (by omega) h
        omega

/-! ### Values -/

theorem ofDigitChars_append_zero (cs : List Char) (n : Nat) :
    Nat.ofDigitChars 10 (cs ++ List.replicate n '0') 0 = Nat.ofDigitChars 10 cs 0 * 10 ^ n := by
  rw [Nat.ofDigitChars_append, Nat.ofDigitChars_replicate_zero, Nat.mul_comm]

theorem ofDigitChars_replicate_append (n : Nat) (cs : List Char) :
    Nat.ofDigitChars 10 (List.replicate n '0' ++ cs) 0 = Nat.ofDigitChars 10 cs 0 := by
  rw [Nat.ofDigitChars_append, Nat.ofDigitChars_replicate_zero, Nat.mul_zero]

/-- The value of digits behind the point. -/
def placeValue (cs : List Char) : ℚ :=
  Nat.ofDigitChars 10 cs 0 / 10 ^ cs.length

@[simp] theorem placeValue_nil : placeValue [] = 0 := by simp [placeValue]

/-- Zeros at the end of the places are worth nothing. -/
theorem placeValue_append_zero (cs : List Char) (n : Nat) :
    placeValue (cs ++ List.replicate n '0') = placeValue cs := by
  unfold placeValue
  rw [ofDigitChars_append_zero, List.length_append, List.length_replicate, pow_add]
  push_cast
  field_simp

theorem placeValue_nonneg (cs : List Char) : 0 ≤ placeValue cs := by
  unfold placeValue
  positivity

/-! ### Trailing zeros -/

/-- What `dropTrailingZeros` takes away are zeros. -/
theorem dropTrailingZeros_append (cs : List Char) :
    ∃ n, dropTrailingZeros cs ++ List.replicate n '0' = cs := by
  refine ⟨(cs.reverse.takeWhile (· == '0')).length, ?_⟩
  have hzeros : cs.reverse.takeWhile (· == '0') =
      List.replicate (cs.reverse.takeWhile (· == '0')).length '0' := by
    refine List.eq_replicate_iff.2 ⟨rfl, ?_⟩
    intro c hc
    simpa using List.all_eq_true.1 (List.all_takeWhile (p := (· == '0'))) c hc
  have hsplit := List.takeWhile_append_dropWhile (p := (· == '0')) (l := cs.reverse)
  rw [hzeros] at hsplit
  have := congrArg List.reverse hsplit
  simpa [dropTrailingZeros, List.reverse_append] using this

theorem digits_dropTrailingZeros {cs : List Char} (h : Digits cs) :
    Digits (dropTrailingZeros cs) := by
  obtain ⟨n, hn⟩ := dropTrailingZeros_append cs
  rw [← hn] at h
  exact (digits_append.1 h).1

/-- Zeros are dropped up to another digit. -/
theorem dropTrailingZeros_append_zeros {cs : List Char} (h : cs.getLast? ≠ some '0') (n : Nat) :
    dropTrailingZeros (cs ++ List.replicate n '0') = cs := by
  have hkept : cs.reverse.dropWhile (· == '0') = cs.reverse := by
    cases hreverse : cs.reverse with
    | nil => rfl
    | cons d ds =>
        have hlast : cs.getLast? = some d := by rw [← List.head?_reverse, hreverse]; rfl
        have hd : d ≠ '0' := by
          rintro rfl
          exact h hlast
        simp [hd]
  rw [dropTrailingZeros, List.reverse_append, List.reverse_replicate,
    List.dropWhile_append_of_pos (by simp), hkept, List.reverse_reverse]

/-- Some digit is left unless the run is worth nothing. -/
theorem dropTrailingZeros_ne_nil {cs : List Char} (h : Nat.ofDigitChars 10 cs 0 ≠ 0) :
    dropTrailingZeros cs ≠ [] := by
  intro hnil
  obtain ⟨n, hn⟩ := dropTrailingZeros_append cs
  rw [hnil] at hn
  rw [← hn, ofDigitChars_append_zero] at h
  simp at h

/-- No zero is left at the end. -/
theorem getLast?_dropTrailingZeros (cs : List Char) : (dropTrailingZeros cs).getLast? ≠ some '0' := by
  intro h
  rw [dropTrailingZeros, List.getLast?_reverse] at h
  have hhead := List.head?_dropWhile_not (· == '0') cs.reverse
  simp [h] at hhead

/-! ### Numbers filled with zeros -/

theorem digits_zeroPadded (width n : Nat) : Digits (zeroPadded width n) := by
  rw [zeroPadded, padLeft, digits_append]
  exact ⟨digits_replicate_zero _, digits_natural n⟩

@[simp] theorem ofDigitChars_zeroPadded (width n : Nat) :
    Nat.ofDigitChars 10 (zeroPadded width n) 0 = n := by
  rw [zeroPadded, padLeft, ofDigitChars_replicate_append, ofDigitChars_natural]

theorem length_zeroPadded {width n : Nat} (hw : 0 < width) (h : n < 10 ^ width) :
    (zeroPadded width n).length = width := by
  have : (natural n).length ≤ width := (Nat.length_toDigits_le_iff (by decide) hw).2 h
  rw [zeroPadded, length_padLeft]
  omega

/-- The last digit of a number that is filled with zeros. -/
theorem zeroPadded_succ {width : Nat} (hw : 0 < width) (n : Nat) :
    zeroPadded (width + 1) n = zeroPadded width (n / 10) ++ [Nat.digitChar (n % 10)] := by
  by_cases h : n < 10
  · obtain ⟨w, rfl⟩ : ∃ w, width = w + 1 := ⟨width - 1, by omega⟩
    have hzero : n / 10 = 0 := Nat.div_eq_of_lt h
    have hmod : n % 10 = n := Nat.mod_eq_of_lt h
    have hn : natural n = [Nat.digitChar n] := Nat.toDigits_of_lt_base h
    simp [zeroPadded, padLeft, hzero, hmod, hn, natural_zero, List.replicate_succ']
  · have hsplit : natural n = natural (n / 10) ++ [Nat.digitChar (n % 10)] :=
      Nat.toDigits_of_base_le (by decide) (Nat.le_of_not_lt h)
    simp [zeroPadded, padLeft, hsplit]

/-- The first places of a number that is filled with zeros are those of its leading part. -/
theorem take_zeroPadded {width : Nat} (hw : 0 < width) (k : Nat) {n : Nat} (h : n < 10 ^ (width + k)) :
    (zeroPadded (width + k) n).take width = zeroPadded width (n / 10 ^ k) := by
  induction k generalizing n with
  | zero =>
      rw [Nat.add_zero, Nat.pow_zero, Nat.div_one, List.take_of_length_le]
      exact (length_zeroPadded hw h).le
  | succ k ih =>
      have hlt : n / 10 < 10 ^ (width + k) := by
        rw [Nat.div_lt_iff_lt_mul (by decide), ← Nat.pow_succ]
        exact h
      have hlength : (zeroPadded (width + k) (n / 10)).length = width + k :=
        length_zeroPadded (by omega) hlt
      rw [← Nat.add_assoc, zeroPadded_succ (by omega), List.take_append_of_le_length (by omega), ih hlt,
        Nat.div_div_eq_div_mul, ← Nat.pow_succ']

/-! ### Runs and their values -/

/-- A digit behind a run adds its value to ten times that of the run. -/
theorem ofDigitChars_concat (cs : List Char) {c : Char} (h : c.isDigit) :
    ∃ k < 10, Nat.digitChar k = c ∧
      Nat.ofDigitChars 10 (cs ++ [c]) 0 = 10 * Nat.ofDigitChars 10 cs 0 + k := by
  obtain ⟨hlow, hhigh⟩ : '0'.toNat ≤ c.toNat ∧ c.toNat ≤ '9'.toNat := by
    simpa [Char.isDigit, UInt32.le_iff_toNat_le] using h
  have hdigit : ∀ k < 10, Nat.digitChar k = Char.ofNat ('0'.toNat + k) := by decide
  have hlt : c.toNat - '0'.toNat < 10 :=
    (Nat.sub_lt_iff_lt_add hlow).2 (Nat.lt_of_le_of_lt hhigh (by decide))
  refine ⟨c.toNat - '0'.toNat, hlt, ?_, ?_⟩
  · rw [hdigit _ hlt, Nat.add_sub_cancel' hlow, Char.ofNat_toNat]
  · rw [Nat.ofDigitChars_append, Nat.ofDigitChars_cons, Nat.ofDigitChars_nil]

/-- A run of digits is its value, filled with zeros. -/
theorem zeroPadded_ofDigitChars {cs : List Char} (h : Digits cs) (hne : cs ≠ []) :
    zeroPadded cs.length (Nat.ofDigitChars 10 cs 0) = cs := by
  induction cs using List.reverseRecOn with
  | nil => exact absurd rfl hne
  | append_singleton ds d ih =>
      obtain ⟨hds, hd⟩ := digits_append.1 h
      obtain ⟨k, hk, rfl, hvalue⟩ := ofDigitChars_concat ds (hd d List.mem_cons_self)
      rw [hvalue, List.length_append, List.length_singleton]
      by_cases hnil : ds = []
      · have hn : natural k = [Nat.digitChar k] := Nat.toDigits_of_lt_base hk
        simp [hnil, zeroPadded, padLeft, hn]
      · have hdiv : (10 * Nat.ofDigitChars 10 ds 0 + k) / 10 = Nat.ofDigitChars 10 ds 0 := by omega
        have hmod : (10 * Nat.ofDigitChars 10 ds 0 + k) % 10 = k := by omega
        rw [zeroPadded_succ (List.length_pos_iff.2 hnil), hdiv, hmod, ih hds hnil]

/-- Two runs of so many digits are told apart by their value. -/
theorem eq_of_ofDigitChars {a b : List Char} (ha : Digits a) (hb : Digits b) (hlength : a.length = b.length)
    (h : Nat.ofDigitChars 10 a 0 = Nat.ofDigitChars 10 b 0) : a = b := by
  by_cases hnil : a = []
  · rw [hnil, List.length_nil] at hlength
    rw [hnil, List.length_eq_zero_iff.1 hlength.symm]
  · have hnil' : b ≠ [] := by
      rw [← List.length_pos_iff, ← hlength]
      exact List.length_pos_iff.2 hnil
    rw [← zeroPadded_ofDigitChars ha hnil, hlength, h, zeroPadded_ofDigitChars hb hnil']

/-- A run of digits is worth less than a one with as many zeros. -/
theorem ofDigitChars_lt {cs : List Char} (h : Digits cs) :
    Nat.ofDigitChars 10 cs 0 < 10 ^ cs.length := by
  induction cs using List.reverseRecOn with
  | nil => decide
  | append_singleton ds d ih =>
      obtain ⟨hds, hd⟩ := digits_append.1 h
      obtain ⟨k, hk, -, hvalue⟩ := ofDigitChars_concat ds (hd d List.mem_cons_self)
      have ih := ih hds
      rw [hvalue, List.length_append, List.length_singleton, Nat.pow_succ]
      omega

/-- A run of digits without a needless zero in front is the number that it is worth. -/
theorem natural_ofDigitChars {cs : List Char} (h : Digits cs) (hne : cs ≠ [])
    (hzero : cs.head? = some '0' → cs = ['0']) : natural (Nat.ofDigitChars 10 cs 0) = cs := by
  have hpadded := zeroPadded_ofDigitChars h hne
  rw [zeroPadded, padLeft] at hpadded
  cases hfill : cs.length - (natural (Nat.ofDigitChars 10 cs 0)).length with
  | zero => rwa [hfill, List.replicate_zero, List.nil_append] at hpadded
  | succ k =>
      rw [hfill, List.replicate_succ, List.cons_append] at hpadded
      rw [hzero (by rw [← hpadded]; rfl)]
      decide

theorem placeValue_lt_one {cs : List Char} (h : Digits cs) : placeValue cs < 1 := by
  rw [placeValue, div_lt_one (by positivity)]
  exact_mod_cast ofDigitChars_lt h

/-- Digits behind the point without zeros at the end are told apart by their value. -/
theorem eq_of_placeValue {a b : List Char} (ha : Digits a) (hb : Digits b)
    (ha' : a.getLast? ≠ some '0') (hb' : b.getLast? ≠ some '0') (h : placeValue a = placeValue b) :
    a = b := by
  -- Filled with zeros to a common length, both are the same number of places.
  have hlength : (a ++ List.replicate b.length '0').length = (b ++ List.replicate a.length '0').length := by
    simp [Nat.add_comm]
  have hvalue : Nat.ofDigitChars 10 (a ++ List.replicate b.length '0') 0 =
      Nat.ofDigitChars 10 (b ++ List.replicate a.length '0') 0 := by
    rw [← placeValue_append_zero a b.length, ← placeValue_append_zero b a.length, placeValue,
      placeValue, hlength] at h
    exact_mod_cast (div_left_inj' (by positivity)).1 h
  have hsame : a ++ List.replicate b.length '0' = b ++ List.replicate a.length '0' :=
    eq_of_ofDigitChars (digits_append.2 ⟨ha, digits_replicate_zero _⟩)
      (digits_append.2 ⟨hb, digits_replicate_zero _⟩) hlength hvalue
  rw [← dropTrailingZeros_append_zeros ha' b.length, hsame, dropTrailingZeros_append_zeros hb']

/-! ### The part behind the point -/

/-- The digits that `fraction` writes behind the point. -/
def fractionDigits (places numerator : Nat) : List Char :=
  if numerator = 0 then [] else dropTrailingZeros (zeroPadded places numerator)

theorem fraction_eq (places numerator : Nat) :
    fraction places numerator =
      if fractionDigits places numerator = [] then [] else '.' :: fractionDigits places numerator := by
  by_cases h : numerator = 0
  · simp [fraction, fractionDigits, h]
  · have hne : dropTrailingZeros (zeroPadded places numerator) ≠ [] :=
      dropTrailingZeros_ne_nil (by simpa using h)
    simp [fraction, fractionDigits, h, hne]

theorem digits_fractionDigits (places numerator : Nat) :
    Digits (fractionDigits places numerator) := by
  unfold fractionDigits
  split
  · exact digits_nil
  · exact digits_dropTrailingZeros (digits_zeroPadded _ _)

/-- Behind a point there is at least one digit, so a fraction that is not zero is shown. -/
theorem fractionDigits_ne_nil {places numerator : Nat} (h : numerator ≠ 0) :
    fractionDigits places numerator ≠ [] := by
  rw [fractionDigits, if_neg h]
  exact dropTrailingZeros_ne_nil (by simpa using h)

theorem getLast?_fractionDigits (places numerator : Nat) :
    (fractionDigits places numerator).getLast? ≠ some '0' := by
  unfold fractionDigits
  split
  · simp
  · exact getLast?_dropTrailingZeros _

/-- Zeros fill the digits behind the point up to all places. -/
theorem fractionDigits_append {places numerator : Nat} (hp : 0 < places)
    (h : numerator < 10 ^ places) (hne : numerator ≠ 0) :
    ∃ n, fractionDigits places numerator ++ List.replicate n '0' = zeroPadded places numerator ∧
      (fractionDigits places numerator).length + n = places := by
  obtain ⟨n, hn⟩ := dropTrailingZeros_append (zeroPadded places numerator)
  rw [fractionDigits, if_neg hne]
  refine ⟨n, hn, ?_⟩
  have hlength := congrArg List.length hn
  rwa [List.length_append, List.length_replicate, length_zeroPadded hp h] at hlength

theorem length_fractionDigits_le {places numerator : Nat} (hp : 0 < places)
    (h : numerator < 10 ^ places) : (fractionDigits places numerator).length ≤ places := by
  by_cases hzero : numerator = 0
  · simp [fractionDigits, hzero]
  · obtain ⟨n, -, hlength⟩ := fractionDigits_append hp h hzero
    omega

/-- The digits behind the point are worth the fraction that they are written for. -/
theorem placeValue_fractionDigits {places numerator : Nat} (hp : 0 < places)
    (h : numerator < 10 ^ places) :
    placeValue (fractionDigits places numerator) = numerator / 10 ^ places := by
  by_cases h0 : numerator = 0
  · simp [fractionDigits, h0]
  · obtain ⟨n, hn, -⟩ := fractionDigits_append hp h h0
    rw [← placeValue_append_zero _ n, hn, placeValue, ofDigitChars_zeroPadded, length_zeroPadded hp h]

end LineLog.Decimal
