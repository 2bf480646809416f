import LineLog.Proofs.Decimal.Shortest
import LineLog.Proofs.Decimal.Widen
/-!
# LineLog.Proofs.Decimal.Rounding

Rounding is to the nearest number, and a rational reads back to one number at most.

A number is brought to the place at which its format ends (`roundingExponent`), and its mantissa goes to
the nearest integer there (`nearest_roundedMantissa`). Everything else that is said about rounding follows
from that and from the width of the number: the result is canonical, and the number that was rounded reads
back to it (`round_finite`). It is infinite from halfway past the largest number on (`round_infinite_iff`).

Design points:

* The bounds are on magnitudes, as powers of two with integer exponents. So it does not matter whether a
  mantissa was shifted up or down.
* A zero has no width. It is rounded at the least exponent, unless it had an exponent far above it, and
  that is assumed not to be so (`roundingExponent_of_zero`).
* The intervals of canonical numbers do not overlap: where two of them meet, one of the numbers is odd
  and does not have its end (`Canonical.not_readsBack_of_lt`).
-/

namespace LineLog.Decimal

/-! ### Nearest integers -/

/-- Of all integers, `m` is nearest to `q / unit`, and even if there is another one as near. -/
def NearestTo (unit q : ℚ) (m : Nat) : Prop :=
  ((m - 1 / 2) * unit < q ∧ q < (m + 1 / 2) * unit) ∨
    (m % 2 = 0 ∧ (m - 1 / 2) * unit ≤ q ∧ q ≤ (m + 1 / 2) * unit)

theorem NearestTo.le {unit q : ℚ} {m : Nat} (h : NearestTo unit q m) :
    (m - 1 / 2) * unit ≤ q ∧ q ≤ (m + 1 / 2) * unit := by
  rcases h with ⟨hlow, hhigh⟩ | ⟨-, h⟩
  · exact ⟨hlow.le, hhigh.le⟩
  · exact h

theorem nearestTo_self {unit : ℚ} (h : 0 < unit) (m : Nat) : NearestTo unit (m * unit) m := by
  refine .inl ⟨?_, ?_⟩
  · exact mul_lt_mul_of_pos_right (by linarith) h
  · exact mul_lt_mul_of_pos_right (by linarith) h

theorem NearestTo.mul_right {unit q c : ℚ} {m : Nat} (h : NearestTo unit q m) (hc : 0 < c) :
    NearestTo (unit * c) (q * c) m := by
  rw [NearestTo, ← mul_assoc, ← mul_assoc]
  rcases h with ⟨hlow, hhigh⟩ | ⟨heven, hlow, hhigh⟩
  · exact .inl ⟨mul_lt_mul_of_pos_right hlow hc, mul_lt_mul_of_pos_right hhigh hc⟩
  · exact .inr ⟨heven, mul_le_mul_of_nonneg_right hlow hc.le, mul_le_mul_of_nonneg_right hhigh hc.le⟩

/-- Shifting down goes to the nearest integer. -/
theorem nearestTo_roundShift (n k : Nat) : NearestTo (2 ^ k) n (Finite.roundShift n k) := by
  have hpos : 0 < 2 ^ k := Nat.two_pow_pos k
  have hsplit : ((2 ^ k * (n / 2 ^ k) + n % 2 ^ k : Nat) : ℚ) = n := by rw [Nat.div_add_mod]
  have hlt : n % 2 ^ k < 2 ^ k := Nat.mod_lt _ hpos
  have hcast : ((2 ^ k : Nat) : ℚ) = 2 ^ k := by push_cast; rfl
  rw [Finite.roundShift]
  -- The remainder decides, and nothing else matters of it than that it is below the unit.
  generalize n % 2 ^ k = r at hsplit hlt ⊢
  generalize n / 2 ^ k = q at hsplit ⊢
  rw [← hsplit, ← hcast]
  generalize 2 ^ k = unit at hpos hlt ⊢
  have hr : (0 : ℚ) ≤ r := by positivity
  have hr' : (r : ℚ) < unit := by exact_mod_cast hlt
  split
  · rename_i hbelow
    have hbelow : (2 * r : ℚ) < unit := by exact_mod_cast hbelow
    exact .inl ⟨by push_cast; linarith, by push_cast; linarith⟩
  · split
    · rename_i hhalf
      have hhalf : (2 * r : ℚ) = unit := by exact_mod_cast hhalf
      refine .inr ⟨by omega, ?_⟩
      rcases Nat.mod_two_eq_zero_or_one q with heven | hodd
      · rw [heven]
        exact ⟨by push_cast; linarith, by push_cast; linarith⟩
      · rw [hodd]
        exact ⟨by push_cast; linarith, by push_cast; linarith⟩
    · rename_i hbelow hhalf
      have habove : (unit : ℚ) < 2 * r := by exact_mod_cast (show unit < 2 * r by omega)
      exact .inl ⟨by push_cast; linarith, by push_cast; linarith⟩

/-! ### Widths -/

namespace Finite

theorem bitLength_le_iff {n k : Nat} : bitLength n ≤ k ↔ n < 2 ^ k := by
  rw [bitLength]
  split
  · rename_i hzero
    simp [hzero]
  · rename_i hpos
    rw [Nat.succ_le_iff, Nat.log2_lt hpos]

theorem lt_two_pow_bitLength (n : Nat) : n < 2 ^ bitLength n :=
  bitLength_le_iff.1 (Nat.le_refl _)

theorem bitLength_mul_le (a b : Nat) : bitLength (a * b) ≤ bitLength a + bitLength b := by
  rw [bitLength_le_iff, pow_add]
  exact Nat.mul_lt_mul'' (lt_two_pow_bitLength a) (lt_two_pow_bitLength b)

theorem magnitude_lt (x : Finite) : x.magnitude < 2 ^ (x.exponent + bitLength x.mantissa) := by
  have hlt : x.mantissa < 2 ^ bitLength x.mantissa := lt_two_pow_bitLength x.mantissa
  have hcast : (x.mantissa : ℚ) < 2 ^ bitLength x.mantissa := by exact_mod_cast hlt
  rw [add_comm, zpow_add₀ two_ne_zero, zpow_natCast]
  exact mul_lt_mul_of_pos_right hcast (by positivity)

theorem le_magnitude {x : Finite} (h : x.mantissa ≠ 0) :
    2 ^ (x.exponent + bitLength x.mantissa - 1) ≤ x.magnitude := by
  have hle : 2 ^ Nat.log2 x.mantissa ≤ x.mantissa := Nat.log2_self_le h
  have hcast : (2 : ℚ) ^ Nat.log2 x.mantissa ≤ x.mantissa := by exact_mod_cast hle
  have hexponent : x.exponent + bitLength x.mantissa - 1 = Nat.log2 x.mantissa + x.exponent := by
    rw [bitLength, if_neg h]
    push_cast
    ring
  rw [hexponent, zpow_add₀ two_ne_zero, zpow_natCast]
  exact mul_le_mul_of_nonneg_right hcast (by positivity)

/-! ### Rounding -/

/-- The exponent of the place that `x` is rounded to. -/
def roundingExponent (l : Layout) (x : Finite) : Int :=
  max (x.exponent + bitLength x.mantissa - (l.fractionBits + 1)) l.minExponent

/-- The mantissa at this place. It may have one binary digit too many. -/
def roundedMantissa (l : Layout) (x : Finite) : Nat :=
  if x.roundingExponent l ≤ x.exponent then
    x.mantissa * 2 ^ (x.exponent - x.roundingExponent l).toNat
  else roundShift x.mantissa (x.roundingExponent l - x.exponent).toNat

section Rounding

variable {l : Layout} {x : Finite}

theorem nearest_roundedMantissa (l : Layout) (x : Finite) :
    NearestTo (2 ^ x.roundingExponent l) x.magnitude (x.roundedMantissa l) := by
  have hpos : (0 : ℚ) < 2 ^ x.roundingExponent l := by positivity
  rw [roundedMantissa]
  split
  · rename_i hle
    have hexact : x.magnitude = ((x.mantissa * 2 ^ (x.exponent - x.roundingExponent l).toNat : Nat) : ℚ) *
        2 ^ x.roundingExponent l := by
      rw [magnitude]
      push_cast
      rw [mul_assoc, ← zpow_natCast, ← zpow_add₀ two_ne_zero, Int.toNat_of_nonneg (by omega),
        sub_add_cancel]
    rw [hexact]
    exact nearestTo_self hpos _
  · rename_i hlt
    have hplace : (2 : ℚ) ^ x.roundingExponent l =
        2 ^ (x.roundingExponent l - x.exponent).toNat * 2 ^ x.exponent := by
      rw [← zpow_natCast, ← zpow_add₀ two_ne_zero, Int.toNat_of_nonneg (by omega), sub_add_cancel]
    rw [hplace]
    exact (nearestTo_roundShift _ _).mul_right (by positivity)

theorem magnitude_lt_width (l : Layout) (x : Finite) :
    x.magnitude < 2 ^ (l.fractionBits + 1) * 2 ^ x.roundingExponent l := by
  refine x.magnitude_lt.trans_le ?_
  rw [← zpow_natCast, ← zpow_add₀ two_ne_zero]
  refine zpow_le_zpow_right₀ one_le_two ?_
  have hle := le_max_left (x.exponent + bitLength x.mantissa - (l.fractionBits + 1)) l.minExponent
  rw [← roundingExponent] at hle
  push_cast
  linarith

/-- Above the least exponent, a number has full width. -/
theorem le_magnitude_of_lt (hzero : x.mantissa ≠ 0) (h : l.minExponent < x.roundingExponent l) :
    2 ^ l.fractionBits * 2 ^ x.roundingExponent l ≤ x.magnitude := by
  refine le_trans (le_of_eq ?_) (le_magnitude hzero)
  rw [← zpow_natCast, ← zpow_add₀ two_ne_zero]
  congr 1
  rw [roundingExponent] at h ⊢
  rw [max_eq_left ((lt_max_iff.1 h).resolve_right (lt_irrefl _)).le]
  ring

theorem roundedMantissa_le (l : Layout) (x : Finite) :
    x.roundedMantissa l ≤ 2 ^ (l.fractionBits + 1) := by
  have hpos : (0 : ℚ) < 2 ^ x.roundingExponent l := by positivity
  have hlt := (nearest_roundedMantissa l x).le.1.trans_lt (magnitude_lt_width l x)
  have hbelow : (x.roundedMantissa l : ℚ) - 1 / 2 < 2 ^ (l.fractionBits + 1) :=
    lt_of_mul_lt_mul_right hlt hpos.le
  have hcast : (x.roundedMantissa l : ℚ) < ((2 ^ (l.fractionBits + 1) + 1 : Nat) : ℚ) := by
    push_cast
    linarith
  exact Nat.lt_succ_iff.1 (by exact_mod_cast hcast)

theorem le_roundedMantissa (hzero : x.mantissa ≠ 0) (h : l.minExponent < x.roundingExponent l) :
    2 ^ l.fractionBits ≤ x.roundedMantissa l := by
  have hpos : (0 : ℚ) < 2 ^ x.roundingExponent l := by positivity
  have hle := (le_magnitude_of_lt hzero h).trans (nearest_roundedMantissa l x).le.2
  have habove : (2 : ℚ) ^ l.fractionBits ≤ x.roundedMantissa l + 1 / 2 := le_of_mul_le_mul_right hle hpos
  have hcast : ((2 ^ l.fractionBits : Nat) : ℚ) < ((x.roundedMantissa l + 1 : Nat) : ℚ) := by
    push_cast
    linarith
  exact Nat.lt_succ_iff.1 (by exact_mod_cast hcast)

/-- What rounding answers: a mantissa that is one binary digit too long is halved. -/
theorem round_eq_ite (l : Layout) (x : Finite) :
    x.round l =
      if x.roundedMantissa l = 2 ^ (l.fractionBits + 1) then
        if l.maxExponent < x.roundingExponent l + 1 then .infinite x.negative
        else .finite ⟨x.negative, 2 ^ l.fractionBits, x.roundingExponent l + 1⟩
      else
        if l.maxExponent < x.roundingExponent l then .infinite x.negative
        else .finite ⟨x.negative, x.roundedMantissa l, x.roundingExponent l⟩ := by
  have hexponent : (if x.exponent + bitLength x.mantissa - (l.fractionBits + 1) < l.minExponent then
      l.minExponent else x.exponent + bitLength x.mantissa - (l.fractionBits + 1)) =
        x.roundingExponent l := by
    rw [roundingExponent, max_def]
    split <;> split <;> omega
  rw [round]
  simp only [hexponent]
  rw [← roundedMantissa]
  split <;> rfl

/-- Integers that are nearest read back. Where the number below is nearer than the one above, `q` must not
be below the number. -/
theorem readsBack_of_nearest {q : ℚ} (h : NearestTo (2 ^ x.exponent) q x.mantissa)
    (hnarrow : x.narrowBelow l = true → x.magnitude ≤ q) : x.ReadsBack l q := by
  have hpos : (0 : ℚ) < 2 ^ x.exponent := by positivity
  rw [ReadsBack, lowEnd]
  cases hbelow : x.narrowBelow l with
  | false => simpa only [Bool.false_eq_true, if_false, NearestTo] using h
  | true =>
      have hlow : ((x.mantissa : ℚ) - 1 / 4) * 2 ^ x.exponent < q :=
        (mul_lt_mul_of_pos_right (by linarith) hpos).trans_le (hnarrow hbelow)
      rcases h with ⟨-, hhigh⟩ | ⟨heven, -, hhigh⟩
      · exact .inl ⟨by simpa using hlow, hhigh⟩
      · exact .inr ⟨heven, by simpa using hlow.le, hhigh⟩

/-- A zero with the least exponent at most is rounded to the least exponent. -/
theorem roundingExponent_of_zero (hzero : x.mantissa = 0) (h : x.exponent ≤ l.minExponent) :
    x.roundingExponent l = l.minExponent := by
  rw [roundingExponent, hzero]
  refine max_eq_right ?_
  simp only [bitLength, if_true]
  push_cast
  omega

variable (hzero : x.mantissa = 0 → x.roundingExponent l = l.minExponent)

include hzero

/-- **Rounding answers a canonical number that the rounded one reads back to**, with its sign. -/
theorem round_finite (hl : 0 < l.fractionBits) {y : Finite} (h : x.round l = .finite y) :
    y.Canonical l ∧ y.negative = x.negative ∧ y.ReadsBack l x.magnitude := by
  have hmin : l.minExponent ≤ x.roundingExponent l := le_max_right _ _
  have hnearest := nearest_roundedMantissa l x
  have hle := roundedMantissa_le l x
  rw [round_eq_ite] at h
  split at h
  · -- The mantissa is halved, so the number is a power of two and just above the rounded one.
    rename_i hcarried
    split at h
    · cases h
    · rename_i hmax
      obtain rfl := Binary.finite.inj h
      have hnarrow : narrowBelow l ⟨x.negative, 2 ^ l.fractionBits, x.roundingExponent l + 1⟩ = true := by
        simp [narrowBelow]
        omega
      have hpow : (2 : ℚ) ^ (x.roundingExponent l + 1) = 2 ^ x.roundingExponent l * 2 :=
        zpow_add_one₀ two_ne_zero _
      have hpos : (0 : ℚ) < 2 ^ x.roundingExponent l := by positivity
      refine ⟨⟨Nat.pow_lt_pow_right one_lt_two (Nat.lt_succ_self _), by dsimp only; omega,
        by dsimp only; omega, .inl le_rfl⟩, rfl, .inr ⟨?_, ?_, ?_⟩⟩
      · exact Nat.mod_eq_zero_of_dvd (dvd_pow_self 2 hl.ne')
      · have hlow := hnearest.le.1
        rw [hcarried] at hlow
        rw [lowEnd, if_pos hnarrow]
        dsimp only
        rw [hpow]
        push_cast at hlow ⊢
        rw [pow_succ] at hlow
        linarith
      · have hhigh := magnitude_lt_width l x
        dsimp only
        rw [hpow]
        push_cast
        rw [pow_succ] at hhigh
        linarith
  · rename_i hcarried
    split at h
    · cases h
    · rename_i hmax
      obtain rfl := Binary.finite.inj h
      refine ⟨⟨lt_of_le_of_ne hle hcarried, hmin, not_lt.1 hmax, ?_⟩, rfl, ?_⟩
      · by_cases hmantissa : x.mantissa = 0
        · exact .inr (hzero hmantissa)
        · rcases hmin.lt_or_eq with hlt | heq
          · exact .inl (le_roundedMantissa hmantissa hlt)
          · exact .inr heq.symm
      · refine readsBack_of_nearest hnearest ?_
        intro hnarrow
        simp only [narrowBelow, Bool.and_eq_true, beq_iff_eq, decide_eq_true_eq] at hnarrow
        obtain ⟨hpower, hlt⟩ := hnarrow
        have hmantissa : x.mantissa ≠ 0 := fun hmantissa => hlt.ne' (hzero hmantissa)
        have hfull := le_magnitude_of_lt hmantissa hlt
        rw [magnitude, hpower]
        push_cast
        exact hfull

omit hzero in
theorem round_cases (l : Layout) (x : Finite) :
    x.round l = .infinite x.negative ∨ ∃ y, x.round l = .finite y := by
  rw [round_eq_ite]
  split
  · split <;> simp
  · split <;> simp

end Rounding

/-! ### Intervals -/

/-- Halfway past the largest number of a format. -/
def overflowBound (l : Layout) : ℚ :=
  (2 ^ (l.fractionBits + 1) - 1 / 2) * 2 ^ l.maxExponent

theorem ReadsBack.low_le {l : Layout} {x : Finite} {q : ℚ} (h : x.ReadsBack l q) :
    x.lowEnd l * 2 ^ x.exponent ≤ q := by
  rcases h with ⟨hlow, -⟩ | ⟨-, hlow, -⟩
  · exact hlow.le
  · exact hlow

namespace Canonical

variable {l : Layout} {y z : Finite} {q : ℚ}

/-- What reads back to a number is less than halfway past the numbers of full width. The interval comes that
far for an odd mantissa only, and then without its end. -/
theorem readsBack_lt (hy : y.Canonical l) (h : y.ReadsBack l q) :
    q < (2 ^ (l.fractionBits + 1) - 1 / 2) * 2 ^ y.exponent := by
  have hpos : (0 : ℚ) < 2 ^ y.exponent := by positivity
  have hlt := hy.mantissa_lt
  rcases h with ⟨-, hhigh⟩ | ⟨heven, -, hhigh⟩
  · have hcast : ((y.mantissa + 1 : Nat) : ℚ) ≤ ((2 ^ (l.fractionBits + 1) : Nat) : ℚ) := by
      exact_mod_cast hlt
    push_cast at hcast
    exact hhigh.trans_le (mul_le_mul_of_nonneg_right (by linarith) hpos.le)
  · have htwo : y.mantissa + 2 ≤ 2 ^ (l.fractionBits + 1) := by
      rw [pow_succ] at hlt ⊢
      omega
    have hcast : ((y.mantissa + 2 : Nat) : ℚ) ≤ ((2 ^ (l.fractionBits + 1) : Nat) : ℚ) := by
      exact_mod_cast htwo
    push_cast at hcast
    exact hhigh.trans_lt (mul_lt_mul_of_pos_right (by linarith) hpos)

/-- What reads back to a number of the format is below halfway past its largest number. -/
theorem lt_overflowBound (hy : y.Canonical l) (h : y.ReadsBack l q) : q < overflowBound l := by
  have hwidth : (1 : ℚ) ≤ 2 ^ (l.fractionBits + 1) := one_le_pow₀ one_le_two
  refine (hy.readsBack_lt h).trans_le (mul_le_mul_of_nonneg_left ?_ (by linarith))
  exact zpow_le_zpow_right₀ one_le_two hy.exponent_le

/-- The low end of a number above the least exponent is at least that of the power of two. -/
theorem le_lowEnd (hz : z.Canonical l) (h : l.minExponent < z.exponent) :
    (2 : ℚ) ^ l.fractionBits - 1 / 4 ≤ z.lowEnd l := by
  have hfull : 2 ^ l.fractionBits ≤ z.mantissa := hz.full_or_least.resolve_right h.ne'
  rw [lowEnd]
  split
  · have hcast : ((2 ^ l.fractionBits : Nat) : ℚ) ≤ z.mantissa := by exact_mod_cast hfull
    push_cast at hcast
    linarith
  · rename_i hwide
    have hne : z.mantissa ≠ 2 ^ l.fractionBits := by
      intro heq
      simp [narrowBelow, heq, h] at hwide
    have hcast : ((2 ^ l.fractionBits + 1 : Nat) : ℚ) ≤ z.mantissa := by
      exact_mod_cast lt_of_le_of_ne hfull hne.symm
    push_cast at hcast
    linarith

/-- The intervals of two canonical numbers do not overlap. -/
theorem not_readsBack_of_lt (hy : y.Canonical l) (hz : z.Canonical l)
    (hlt : y.exponent < z.exponent ∨ y.exponent = z.exponent ∧ y.mantissa < z.mantissa)
    (h : y.ReadsBack l q) : ¬ z.ReadsBack l q := by
  intro h'
  rcases hlt with hexponent | ⟨hexponent, hmantissa⟩
  · -- Past the numbers of full width with the lesser exponent begins the one with the greater.
    have hhigh := hy.readsBack_lt h
    have hlow := h'.low_le
    have hend := hz.le_lowEnd (hy.le_exponent.trans_lt hexponent)
    have hwidth : (1 : ℚ) ≤ 2 ^ l.fractionBits := one_le_pow₀ one_le_two
    have hunit : (2 : ℚ) * 2 ^ y.exponent ≤ 2 ^ z.exponent := by
      rw [mul_comm, ← zpow_add_one₀ two_ne_zero]
      exact zpow_le_zpow_right₀ one_le_two hexponent
    refine absurd (hhigh.trans_le ?_) (lt_irrefl q)
    calc ((2 : ℚ) ^ (l.fractionBits + 1) - 1 / 2) * 2 ^ y.exponent
        = (2 ^ l.fractionBits - 1 / 4) * (2 * 2 ^ y.exponent) := by rw [pow_succ]; ring
      _ ≤ (2 ^ l.fractionBits - 1 / 4) * 2 ^ z.exponent :=
          mul_le_mul_of_nonneg_left hunit (by linarith)
      _ ≤ z.lowEnd l * 2 ^ z.exponent := mul_le_mul_of_nonneg_right hend (by positivity)
      _ ≤ q := hlow
  · -- Neighbours share an end, which belongs to the even one of them.
    have hpos : (0 : ℚ) < 2 ^ z.exponent := by positivity
    have hend : (z.mantissa : ℚ) - 1 / 2 ≤ z.lowEnd l := by
      rw [lowEnd]
      split <;> linarith
    have hlow : ((z.mantissa : ℚ) - 1 / 2) * 2 ^ z.exponent ≤ z.lowEnd l * 2 ^ z.exponent :=
      mul_le_mul_of_nonneg_right hend hpos.le
    have hone : ((y.mantissa + 1 : Nat) : ℚ) ≤ z.mantissa := by exact_mod_cast hmantissa
    push_cast at hone
    have hbetween : ((y.mantissa : ℚ) + 1 / 2) * 2 ^ z.exponent ≤ (z.mantissa - 1 / 2) * 2 ^ z.exponent :=
      mul_le_mul_of_nonneg_right (by linarith) hpos.le
    have hle := h'.low_le
    rcases h with ⟨-, hhigh⟩ | ⟨heven, -, hhigh⟩
    · rw [hexponent] at hhigh
      linarith
    · rw [hexponent] at hhigh
      rcases h' with ⟨hstrict, -⟩ | ⟨heven', -⟩
      · linarith
      · have htwo : ((y.mantissa + 2 : Nat) : ℚ) ≤ z.mantissa := by
          exact_mod_cast (show y.mantissa + 2 ≤ z.mantissa by omega)
        push_cast at htwo
        have hgap : ((y.mantissa : ℚ) + 1 / 2) * 2 ^ z.exponent < (z.mantissa - 1 / 2) * 2 ^ z.exponent :=
          mul_lt_mul_of_pos_right (by linarith) hpos
        linarith

/-- **A rational reads back to one magnitude at most.** -/
theorem eq_of_readsBack (hy : y.Canonical l) (hz : z.Canonical l) (h : y.ReadsBack l q)
    (h' : z.ReadsBack l q) : y.mantissa = z.mantissa ∧ y.exponent = z.exponent := by
  rcases lt_trichotomy y.exponent z.exponent with hexponent | hexponent | hexponent
  · exact absurd h' (hy.not_readsBack_of_lt hz (.inl hexponent) h)
  · rcases lt_trichotomy y.mantissa z.mantissa with hmantissa | hmantissa | hmantissa
    · exact absurd h' (hy.not_readsBack_of_lt hz (.inr ⟨hexponent, hmantissa⟩) h)
    · exact ⟨hmantissa, hexponent⟩
    · exact absurd h (hz.not_readsBack_of_lt hy (.inr ⟨hexponent.symm, hmantissa⟩) h')
  · exact absurd h (hz.not_readsBack_of_lt hy (.inl hexponent) h')

end Canonical

/-! ### Overflow -/

/-- Far from the largest number of a format, a number is rounded to a finite one, which is longer by one
binary digit at most. -/
theorem exists_round {l : Layout} {x : Finite} (size : Int)
    (h : x.exponent + bitLength x.mantissa ≤ size) (hmin : l.minExponent + (l.fractionBits + 1) ≤ size)
    (hmax : size ≤ l.maxExponent + l.fractionBits) :
    ∃ y, x.round l = .finite y ∧ y.exponent + bitLength y.mantissa ≤ size + 1 := by
  have hplace : x.roundingExponent l ≤ size - (l.fractionBits + 1) := by
    rw [roundingExponent]
    omega
  have hle := roundedMantissa_le l x
  rw [round_eq_ite]
  split
  · rw [if_neg (by omega)]
    have hwidth : bitLength (2 ^ l.fractionBits) ≤ l.fractionBits + 1 :=
      bitLength_le_iff.2 (Nat.pow_lt_pow_right one_lt_two (Nat.lt_succ_self _))
    refine ⟨_, rfl, ?_⟩
    dsimp only
    omega
  · rename_i hcarried
    rw [if_neg (by omega)]
    have hwidth : bitLength (x.roundedMantissa l) ≤ l.fractionBits + 1 :=
      bitLength_le_iff.2 (lt_of_le_of_ne hle hcarried)
    refine ⟨_, rfl, ?_⟩
    dsimp only
    omega

/-- **Rounding overflows from halfway past the largest number on.** -/
theorem round_infinite_iff {l : Layout} {x : Finite} (hl : 0 < l.fractionBits)
    (hrange : l.minExponent ≤ l.maxExponent)
    (hzero : x.mantissa = 0 → x.roundingExponent l = l.minExponent) :
    x.round l = .infinite x.negative ↔ overflowBound l ≤ x.magnitude := by
  constructor
  · intro h
    have hnearest := (nearest_roundedMantissa l x).le.1
    rw [round_eq_ite] at h
    split at h
    · rename_i hcarried
      split at h
      · rename_i hmax
        rw [hcarried] at hnearest
        push_cast at hnearest
        have hwidth : (1 : ℚ) ≤ 2 ^ (l.fractionBits + 1) := one_le_pow₀ one_le_two
        refine le_trans (mul_le_mul_of_nonneg_left ?_ (by linarith)) hnearest
        exact zpow_le_zpow_right₀ one_le_two (by omega)
      · cases h
    · split at h
      · rename_i hmax
        have hmantissa : x.mantissa ≠ 0 := by
          intro hmantissa
          rw [hzero hmantissa] at hmax
          omega
        refine le_trans ?_ (le_magnitude_of_lt hmantissa (hrange.trans_lt hmax))
        have hunit : (2 : ℚ) ^ l.maxExponent * 2 ≤ 2 ^ x.roundingExponent l := by
          rw [← zpow_add_one₀ two_ne_zero]
          exact zpow_le_zpow_right₀ one_le_two hmax
        have hpos : (0 : ℚ) < 2 ^ l.maxExponent := by positivity
        calc overflowBound l ≤ 2 ^ (l.fractionBits + 1) * 2 ^ l.maxExponent :=
              mul_le_mul_of_nonneg_right (by linarith) hpos.le
          _ = 2 ^ l.fractionBits * (2 ^ l.maxExponent * 2) := by rw [pow_succ]; ring
          _ ≤ 2 ^ l.fractionBits * 2 ^ x.roundingExponent l :=
              mul_le_mul_of_nonneg_left hunit (by positivity)
      · cases h
  · intro h
    rcases round_cases l x with hround | ⟨y, hround⟩
    · exact hround
    · obtain ⟨hcanonical, -, hread⟩ := round_finite hzero hl hround
      exact absurd h (not_le.2 (hcanonical.lt_overflowBound hread))

end Finite
end LineLog.Decimal
