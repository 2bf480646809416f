import LineLog.Decimal.Shortest
import Mathlib.Algebra.Order.Field.Power
import Mathlib.Algebra.Order.Field.Rat
import Mathlib.Tactic.FieldSimp
import Mathlib.Tactic.Linarith
import Mathlib.Tactic.Positivity
import Mathlib.Tactic.Ring
/-!
# LineLog.Proofs.Decimal.Shortest

The digits of a floating-point number read back to it.

A rational reads back to `x` if it lies among the rationals that round to `x`
(`Finite.ReadsBack`): between the points halfway to the two neighbours of `x`, where
the ends belong to `x` exactly when its mantissa is even. The search compares naturals
only; `compareScaled_eq` says that this is the comparison of the rationals.

The search is not trusted to find anything: whatever it answers has been tested
before, and the exact value, which it falls back on, lies strictly between the ends.
-/

namespace LineLog.Decimal

/-! ### Values -/

/-- What a scaled decimal is worth. -/
def Scaled.value (d : Scaled) : ℚ :=
  (d.digits : ℚ) * 10 ^ d.exponent

namespace Finite

/-- The magnitude of a number. -/
def magnitude (x : Finite) : ℚ :=
  (x.mantissa : ℚ) * 2 ^ x.exponent

/-- The point halfway to the number below, in units of the last place. -/
def lowEnd (l : Layout) (x : Finite) : ℚ :=
  x.mantissa - (if x.narrowBelow l then 1 / 4 else 1 / 2)

/-- `q` is among the rationals that round to the magnitude of `x` in the format `l`. -/
def ReadsBack (l : Layout) (x : Finite) (q : ℚ) : Prop :=
  let low := x.lowEnd l * 2 ^ x.exponent
  let high := (x.mantissa + 1 / 2 : ℚ) * 2 ^ x.exponent
  (low < q ∧ q < high) ∨ (x.mantissa % 2 = 0 ∧ low ≤ q ∧ q ≤ high)

end Finite

/-! ### The comparison -/

/-- A power with an integer exponent as a quotient of two with natural ones. -/
theorem zpow_eq_div (a : ℚ) (i : Int) : a ^ i = a ^ i.toNat / a ^ (-i).toNat := by
  obtain ⟨n, rfl | rfl⟩ := i.eq_nat_or_neg
  · simp
  · simp

/-- Comparing by cross-multiplication is comparing. -/
theorem compareScaled_eq (a : Nat) (i : Int) (b : Nat) (j : Int) :
    compareScaled a i b j = compare ((a : ℚ) * 10 ^ i) (b * 2 ^ j) := by
  -- Multiplied by the product of both denominators, the two sides are the naturals compared.
  have hpos : (0 : ℚ) < 10 ^ (-i).toNat * 2 ^ (-j).toNat := by positivity
  have hleft : (a : ℚ) * 10 ^ i * (10 ^ (-i).toNat * 2 ^ (-j).toNat) =
      ((a * 10 ^ i.toNat * 2 ^ (-j).toNat : Nat) : ℚ) := by
    rw [zpow_eq_div 10 i]
    push_cast
    field_simp
  have hright : (b : ℚ) * 2 ^ j * (10 ^ (-i).toNat * 2 ^ (-j).toNat) =
      ((b * 2 ^ j.toNat * 10 ^ (-i).toNat : Nat) : ℚ) := by
    rw [zpow_eq_div 2 j]
    push_cast
    field_simp
  rw [compareScaled]
  rcases lt_trichotomy (a * 10 ^ i.toNat * 2 ^ (-j).toNat) (b * 2 ^ j.toNat * 10 ^ (-i).toNat)
    with h | h | h
  · rw [compare_lt_iff_lt.2 h, eq_comm, compare_lt_iff_lt, ← mul_lt_mul_iff_left₀ hpos, hleft,
      hright]
    exact_mod_cast h
  · rw [compare_eq_iff_eq.2 h, eq_comm, compare_eq_iff_eq]
    refine mul_right_cancel₀ hpos.ne' ?_
    rw [hleft, hright, h]
  · rw [compare_gt_iff_gt.2 h, eq_comm, compare_gt_iff_gt, ← mul_lt_mul_iff_left₀ hpos,
      hleft, hright]
    exact_mod_cast h

/-! ### The test -/

namespace Finite

theorem four_units (n : Nat) (e : Int) : (n : ℚ) * 2 ^ (e - 2) = n / 4 * 2 ^ e := by
  rw [zpow_sub₀ (by norm_num)]
  ring

theorem lowEnd_eq (l : Layout) {x : Finite} (h : x.mantissa ≠ 0) :
    ((4 * x.mantissa - (if x.narrowBelow l then 1 else 2) : Nat) : ℚ) / 4 = x.lowEnd l := by
  have hle : (if x.narrowBelow l then 1 else 2) ≤ 4 * x.mantissa := by split <;> omega
  rw [lowEnd, Nat.cast_sub hle]
  split <;> push_cast <;> ring

/-- What has been tested reads back. -/
theorem readsBack_of_test {l : Layout} {x : Finite} {d : Scaled} (hx : x.mantissa ≠ 0)
    (h : x.readsBack l d = true) : x.ReadsBack l d.value := by
  simp only [readsBack, compareScaled_eq, four_units, lowEnd_eq l hx] at h
  have hhigh : ((4 * x.mantissa + 2 : Nat) : ℚ) / 4 = x.mantissa + 1 / 2 := by push_cast; ring
  rw [hhigh] at h
  simp only [Bool.and_eq_true, Bool.or_eq_true, beq_iff_eq, compare_gt_iff_gt, compare_lt_iff_lt,
    compare_eq_iff_eq] at h
  obtain ⟨hlow, hhigh⟩ := h
  rw [ReadsBack, Scaled.value]
  -- An end that is met counts for an even mantissa, and then the other end may be met as well.
  rcases hlow with hlow | ⟨heven, hlow⟩
  · rcases hhigh with hhigh | ⟨heven, hhigh⟩
    · exact .inl ⟨hlow, hhigh⟩
    · exact .inr ⟨heven, hlow.le, hhigh.le⟩
  · rcases hhigh with hhigh | ⟨-, hhigh⟩
    · exact .inr ⟨heven, hlow.ge, hhigh.le⟩
    · exact .inr ⟨heven, hlow.ge, hhigh.le⟩

/-- The magnitude of a number reads back to it. -/
theorem readsBack_magnitude (l : Layout) (x : Finite) : x.ReadsBack l x.magnitude := by
  have hpos : (0 : ℚ) < 2 ^ x.exponent := by positivity
  have hlow : x.lowEnd l < x.mantissa := by
    rw [lowEnd]
    split <;> linarith
  refine .inl ⟨?_, ?_⟩
  · exact mul_lt_mul_of_pos_right hlow hpos
  · exact mul_lt_mul_of_pos_right (by linarith) hpos

/-! ### The search -/

theorem value_exactDecimal (x : Finite) : x.exactDecimal.value = x.magnitude := by
  rw [exactDecimal, Scaled.value, magnitude, zpow_eq_div 2 x.exponent, zpow_neg, zpow_natCast]
  have hten : (10 : ℚ) ^ (-x.exponent).toNat = 2 ^ (-x.exponent).toNat * 5 ^ (-x.exponent).toNat := by
    rw [← mul_pow]
    norm_num
  rw [hten]
  push_cast
  field_simp

/-- A hit on a grid has been tested. -/
theorem readsBack_of_onGrid? {l : Layout} {tie : Tie} {x : Finite} {e : Int} {d : Scaled}
    (h : x.onGrid? l tie e = some d) : x.readsBack l d = true := by
  simp only [onGrid?] at h
  -- Every answer stands behind its own test.
  split at h
  · simp at h
  · rename_i hlower hupper
    rwa [← Option.some.inj h]
  · rename_i hlower hupper
    rwa [← Option.some.inj h]
  · rename_i hlower hupper
    split at h
    · rwa [← Option.some.inj h]
    · rwa [← Option.some.inj h]
    · split at h
      · rw [← Option.some.inj h]
        split <;> assumption
      · rwa [← Option.some.inj h]

/-- **The shortest decimal of a number reads back to it.** -/
theorem readsBack_shortest (l : Layout) (tie : Tie) {x : Finite} (hx : x.mantissa ≠ 0) :
    x.ReadsBack l (x.shortest l tie).value := by
  rw [shortest]
  cases h : ((List.range maxDigits).map fun n => x.decimalScale - (n + 1 : Nat)).findSome?
      (x.onGrid? l tie) with
  | none =>
      rw [Option.getD_none, value_exactDecimal]
      exact readsBack_magnitude l x
  | some d =>
      obtain ⟨e, -, he⟩ := List.exists_of_findSome?_eq_some h
      exact readsBack_of_test hx (readsBack_of_onGrid? he)

/-- The low end of a number other than zero is positive, so nothing worth zero reads back to it. -/
theorem digits_shortest_ne_zero (l : Layout) (tie : Tie) {x : Finite} (hx : x.mantissa ≠ 0) :
    (x.shortest l tie).digits ≠ 0 := by
  intro hzero
  have hpos : (0 : ℚ) < 2 ^ x.exponent := by positivity
  have hlow : 0 < x.lowEnd l := by
    have hone : (1 : ℚ) ≤ x.mantissa := by exact_mod_cast Nat.pos_of_ne_zero hx
    rw [lowEnd]
    split <;> linarith
  have hvalue : (x.shortest l tie).value = 0 := by rw [Scaled.value, hzero]; simp
  have hread := readsBack_shortest l tie hx
  rw [hvalue] at hread
  have hend := mul_pos hlow hpos
  rcases hread with ⟨h, -⟩ | ⟨-, h, -⟩ <;> linarith

end Finite
end LineLog.Decimal
