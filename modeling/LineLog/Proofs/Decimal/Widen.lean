import LineLog.Decimal.Widen
import Mathlib
/-!
# LineLog.Proofs.Decimal.Widen

Widening loses nothing: the number of single precision that is nearest to a widened
number is the one that was widened.

A decoded number is canonical (`Finite.Canonical`). Brought to the full width of double
precision it has the word that its fields say (`ofWord_word`), so decoding that word
gives it back, and rounding it shifts out the zeros that were shifted in.
-/

namespace LineLog.Decimal

open Float.Model

/-! ### Canonical numbers -/

/-- The mantissa has full width unless the exponent is the least one, and the number is not too
large for the format. -/
structure Finite.Canonical (l : Layout) (x : Finite) : Prop where
  mantissa_lt : x.mantissa < 2 ^ (l.fractionBits + 1)
  le_exponent : l.minExponent ≤ x.exponent
  exponent_le : x.exponent ≤ l.maxExponent
  full_or_least : 2 ^ l.fractionBits ≤ x.mantissa ∨ x.exponent = l.minExponent

/-- Of the zeros, only the one with the least exponent is canonical. -/
theorem Finite.Canonical.exponent_of_zero {l : Layout} {x : Finite} (hx : x.Canonical l)
    (hzero : x.mantissa = 0) : x.exponent = l.minExponent := by
  refine hx.full_or_least.resolve_left ?_
  rw [hzero]
  exact Nat.not_le.2 (Nat.two_pow_pos _)

/-- The greatest exponent code that a finite number has. -/
theorem codes_eq {l : Layout} (hl : 0 < l.exponentBits) : 2 ^ l.exponentBits = 2 * l.bias + 2 := by
  obtain ⟨n, hn⟩ : ∃ n, l.exponentBits = n + 1 := ⟨l.exponentBits - 1, by omega⟩
  have hpos : 0 < 2 ^ n := Nat.two_pow_pos n
  rw [Layout.bias, hn, Nat.add_sub_cancel, pow_succ]
  omega

/-- A decoded number is canonical. -/
theorem canonical_ofWord {l : Layout} (hl : 1 < l.exponentBits) {word : Nat} {x : Finite}
    (h : Binary.ofWord l word = .finite x) : x.Canonical l := by
  have hcodes := codes_eq (l := l) (by omega)
  have hbias : 0 < l.bias := by
    obtain ⟨n, hn⟩ : ∃ n, l.exponentBits = n + 2 := ⟨l.exponentBits - 2, by omega⟩
    have hpow : 0 < 2 ^ n := Nat.two_pow_pos n
    rw [Layout.bias, hn, show n + 2 - 1 = n + 1 by omega, pow_succ]
    omega
  have hfraction : word % 2 ^ l.fractionBits < 2 ^ l.fractionBits :=
    Nat.mod_lt _ (Nat.two_pow_pos _)
  have hcode : word / 2 ^ l.fractionBits % 2 ^ l.exponentBits < 2 ^ l.exponentBits :=
    Nat.mod_lt _ (Nat.two_pow_pos _)
  rw [Binary.ofWord] at h
  -- All that matters of the word are its fields and their bounds.
  generalize word % 2 ^ l.fractionBits = fraction at h hfraction
  generalize word / 2 ^ l.fractionBits % 2 ^ l.exponentBits = code at h hcode
  split at h
  · split at h <;> simp at h
  · split at h
    · obtain rfl := Binary.finite.inj h
      refine ⟨by simp only [pow_succ]; omega, le_rfl, ?_, .inr rfl⟩
      simp only [Layout.minExponent, Layout.maxExponent]
      omega
    · obtain rfl := Binary.finite.inj h
      refine ⟨by simp only [pow_succ]; omega, ?_, ?_, .inl (by simp)⟩
      · simp only [Layout.minExponent]
        omega
      · simp only [Layout.minExponent, Layout.maxExponent]
        omega

/-! ### Words -/

/-- The word with the given fields. -/
def Layout.word (l : Layout) (negative : Bool) (code fraction : Nat) : Nat :=
  (negative.toNat * 2 ^ l.exponentBits + code) * 2 ^ l.fractionBits + fraction

/-- The fields of a word are found again. -/
theorem ofWord_word (l : Layout) (negative : Bool) {code fraction : Nat}
    (hcode : code < 2 ^ l.exponentBits) (hfraction : fraction < 2 ^ l.fractionBits) :
    Binary.ofWord l (l.word negative code fraction) =
      if code = 2 ^ l.exponentBits - 1 then
        if fraction = 0 then .infinite negative else .nan
      else if code = 0 then .finite ⟨negative, fraction, l.minExponent⟩
      else .finite ⟨negative, 2 ^ l.fractionBits + fraction, (code : Int) - 1 + l.minExponent⟩ := by
  have hlow : l.word negative code fraction % 2 ^ l.fractionBits = fraction := by
    rw [Layout.word, Nat.mul_comm, Nat.mul_add_mod, Nat.mod_eq_of_lt hfraction]
  have hquotient : l.word negative code fraction / 2 ^ l.fractionBits =
      2 ^ l.exponentBits * negative.toNat + code := by
    rw [Layout.word, Nat.mul_comm, Nat.mul_add_div (Nat.two_pow_pos _), Nat.div_eq_of_lt hfraction,
      Nat.add_zero, Nat.mul_comm]
  have hcodeOf : (2 ^ l.exponentBits * negative.toNat + code) % 2 ^ l.exponentBits = code := by
    rw [Nat.mul_add_mod, Nat.mod_eq_of_lt hcode]
  have hhigh : l.word negative code fraction / 2 ^ (l.fractionBits + l.exponentBits) =
      negative.toNat := by
    rw [pow_add, ← Nat.div_div_eq_div_mul, hquotient, Nat.mul_add_div (Nat.two_pow_pos _),
      Nat.div_eq_of_lt hcode, Nat.add_zero]
  have hsign : (negative.toNat % 2 == 1) = negative := by cases negative <;> rfl
  simp only [Binary.ofWord, hlow, hhigh, hsign, hquotient, hcodeOf]

/-- The word that is put together from components. -/
theorem toNat_packComponents (negative : Bool) (code : BitVec 11) (fraction : BitVec 52) :
    (UnpackedFloat.packComponents .binary64 (sign negative) code fraction).toNat =
      Layout.double.word negative code.toNat fraction.toNat := by
  have hsign : (sign negative).toBitVec.toNat = negative.toNat := by cases negative <;> rfl
  rw [UnpackedFloat.packComponents, BitVec.toNat_append, BitVec.toNat_append, hsign,
    ← Nat.shiftLeft_add_eq_or_of_lt fraction.isLt, ← Nat.shiftLeft_add_eq_or_of_lt code.isLt,
    Nat.shiftLeft_eq, Nat.shiftLeft_eq]
  rfl

/-- What the word of packed components stands for. -/
theorem ofFloat_packed {f : UnpackedFloat} {negative : Bool} {code : BitVec 11}
    {fraction : BitVec 52}
    (h : f.pack .binary64 = UnpackedFloat.packComponents .binary64 (sign negative) code fraction) :
    Binary.ofFloat (.ofModel (.pack f)) =
      if code.toNat = 2 ^ 11 - 1 then
        if fraction.toNat = 0 then .infinite negative else .nan
      else if code.toNat = 0 then .finite ⟨negative, fraction.toNat, Layout.double.minExponent⟩
      else .finite ⟨negative, 2 ^ 52 + fraction.toNat,
        (code.toNat : Int) - 1 + Layout.double.minExponent⟩ := by
  have hbits : (Float.ofModel (.pack f)).toBits.toNat =
      Layout.double.word negative code.toNat fraction.toNat := by
    rw [← toNat_packComponents, ← h]
    rfl
  rw [Binary.ofFloat, hbits]
  exact ofWord_word .double negative code.isLt fraction.isLt

/-! ### Numbers that fit -/

/-- A number of full width that is in the range of double precision is decoded again. -/
theorem ofFloat_pack_finite {x : Finite} (hpos : 0 < x.mantissa)
    (hwidth : Nat.log2 x.mantissa = 52) (hlow : Layout.double.minExponent ≤ x.exponent)
    (hhigh : x.exponent ≤ Layout.double.maxExponent) :
    Binary.ofFloat (.ofModel (.pack (.finite (sign x.negative) x.mantissa x.exponent hpos))) =
      .finite x := by
  obtain ⟨hmin, hmax⟩ : Layout.double.minExponent = -1074 ∧ Layout.double.maxExponent = 971 := by
    decide
  rw [hmin] at hlow
  rw [hmax] at hhigh
  -- The code of the exponent: neither that of the least numbers nor that of the infinities.
  obtain ⟨code, hcode⟩ : ∃ code : Nat, (code : Int) = x.exponent + 1075 :=
    ⟨(x.exponent + 1075).toNat, by omega⟩
  have hpack : UnpackedFloat.pack .binary64
      (.finite (sign x.negative) x.mantissa x.exponent hpos) =
        UnpackedFloat.packComponents .binary64 (sign x.negative) (BitVec.ofNat 11 code)
          (BitVec.ofNat 52 x.mantissa) := by
    have hbiased : (x.exponent + (Format.binary64.exponentBias : Int) +
        (Format.binary64.mantissaBitsWithoutImplicit : Int)).toNat = code := by
      simp only [Format.exponentBias]
      omega
    rw [UnpackedFloat.pack]
    simp only [hbiased, hwidth]
    rw [if_neg (by omega), if_pos (show 52 + 1 = Format.binary64.mantissaBits from rfl)]
  have hmantissa : 2 ^ 52 ≤ x.mantissa ∧ x.mantissa < 2 ^ (52 + 1) := by
    rw [← hwidth]
    exact ⟨Nat.log2_self_le hpos.ne', Nat.lt_log2_self⟩
  have hfraction : 2 ^ 52 + x.mantissa % 2 ^ 52 = x.mantissa := by omega
  have hcodeMod : code % 2 ^ 11 = code := by omega
  rw [ofFloat_packed hpack, BitVec.toNat_ofNat, BitVec.toNat_ofNat, hcodeMod, hfraction,
    if_neg (by omega), if_neg (by omega), hmin]
  rw [show (code : Int) - 1 + -1074 = x.exponent by omega]

/-! ### Widening -/

theorem log2_mul_two_pow {m : Nat} (hm : m ≠ 0) (k : Nat) : Nat.log2 (m * 2 ^ k) = Nat.log2 m + k := by
  induction k with
  | zero => simp
  | succ k ih =>
      rw [pow_succ, ← mul_assoc, Nat.mul_comm _ 2, Nat.log2_two_mul (by positivity), ih]
      rfl

/-- A mantissa that was shifted up is shifted back without a remainder. -/
theorem roundShift_mul_two_pow (m k : Nat) : Finite.roundShift (m * 2 ^ k) k = m := by
  have hpos : 0 < 2 ^ k := Nat.two_pow_pos k
  rw [Finite.roundShift, Nat.mul_div_cancel _ hpos, Nat.mul_mod_left]
  simp

/-- A mantissa of single precision has room in double precision. -/
theorem log2_lt_of_canonical {x : Finite} (hx : x.Canonical .single) (hzero : x.mantissa ≠ 0) :
    Nat.log2 x.mantissa < 24 :=
  (Nat.log2_lt hzero).2 hx.mantissa_lt

theorem log2_fullWidth {x : Finite} (hx : x.Canonical .single) (hzero : x.mantissa ≠ 0) :
    Nat.log2 (x.fullWidth .double).mantissa = 52 := by
  have := log2_lt_of_canonical hx hzero
  rw [Finite.fullWidth, Finite.headroom, log2_mul_two_pow hzero]
  show Nat.log2 x.mantissa + (52 - Nat.log2 x.mantissa) = 52
  omega

/-- The rounding of a number whose exponent and mantissa after rounding are known. -/
theorem round_eq {l : Layout} {x : Finite} {m : Nat} {e : Int}
    (he : (if x.exponent + Finite.bitLength x.mantissa - (l.fractionBits + 1) < l.minExponent then
      l.minExponent else x.exponent + Finite.bitLength x.mantissa - (l.fractionBits + 1)) = e)
    (hlt : x.exponent < e) (hm : Finite.roundShift x.mantissa (e - x.exponent).toNat = m)
    (hfit : m < 2 ^ (l.fractionBits + 1)) (hmax : e ≤ l.maxExponent) :
    x.round l = .finite ⟨x.negative, m, e⟩ := by
  rw [Finite.round]
  simp only [he]
  rw [if_neg (Int.not_le.2 hlt), hm]
  simp only [Nat.ne_of_lt hfit, if_false]
  rw [if_neg (Int.not_lt.2 hmax)]

/-- Rounding a number of single precision that was brought to the full width of double precision
gives it back. -/
theorem round_fullWidth {x : Finite} (hx : x.Canonical .single) (hzero : x.mantissa ≠ 0) :
    (x.fullWidth .double).round .single = .finite x := by
  have hmin : Layout.single.minExponent = -149 := by decide
  have hbits : Layout.single.fractionBits = 23 := rfl
  have hlog := log2_lt_of_canonical hx hzero
  have hle := hx.le_exponent
  -- Rounding goes down to 24 bits or to the least exponent. Canonical numbers have been there.
  have hfull : Nat.log2 x.mantissa = 23 ∨ x.exponent = -149 := by
    rcases hx.full_or_least with hfull | hleast
    · have : 23 ≤ Nat.log2 x.mantissa := (Nat.le_log2 hzero).2 hfull
      exact .inl (by omega)
    · exact .inr (hleast.trans hmin)
  have hlength : Finite.bitLength (x.fullWidth .double).mantissa = 53 := by
    rw [Finite.bitLength, if_neg (Finite.fullWidth_mantissa_pos hzero).ne', log2_fullWidth hx hzero]
  have hexponent : (x.fullWidth .double).exponent = x.exponent - (52 - Nat.log2 x.mantissa : Nat) :=
    rfl
  refine round_eq ?_ ?_ ?_ hx.mantissa_lt hx.exponent_le
  · rw [hlength, hexponent, hmin, hbits]
    split <;> omega
  · omega
  · have hheadroom : (x.exponent - (x.fullWidth .double).exponent).toNat = x.headroom .double := by
      show (x.exponent - (x.exponent - (x.headroom .double : Int))).toNat = _
      omega
    rw [hheadroom]
    exact roundShift_mul_two_pow _ _

theorem round_zero (negative : Bool) :
    (⟨negative, 0, Layout.double.minExponent⟩ : Finite).round .single =
      .finite ⟨negative, 0, Layout.single.minExponent⟩ := by
  have hshift : ∀ k, Finite.roundShift 0 k = 0 := by
    intro k
    simpa using roundShift_mul_two_pow 0 k
  cases negative with
  | false => exact round_eq (by decide) (by decide) (hshift _) (by decide) (by decide)
  | true => exact round_eq (by decide) (by decide) (hshift _) (by decide) (by decide)

/-- **Widening loses nothing.** A number that is finite in single precision stays finite, and rounds
back to itself; everything else stays what it is. -/
theorem ofFloat_widen (x : Float32) :
    match Binary.ofWord .single x.toBits.toNat with
    | .finite y => ∃ z, Binary.ofFloat (widen x) = .finite z ∧ z.round .single = .finite y
    | other => Binary.ofFloat (widen x) = other := by
  unfold widen
  cases h : Binary.ofWord .single x.toBits.toNat with
  | nan =>
      have hpack : UnpackedFloat.pack .binary64 .notANumber =
          UnpackedFloat.packComponents .binary64 (sign false) (-1#11) (1#52 <<< 51) := rfl
      exact ofFloat_packed hpack
  | infinite negative =>
      have hpack : UnpackedFloat.pack .binary64 (.infinity (sign negative)) =
          UnpackedFloat.packComponents .binary64 (sign negative) (-1#11) 0#52 := rfl
      exact ofFloat_packed hpack
  | finite y =>
      have hy : y.Canonical .single := canonical_ofWord (by decide) h
      by_cases hzero : y.mantissa = 0
      · have hpack : UnpackedFloat.pack .binary64 (.zero (sign y.negative)) =
            UnpackedFloat.packComponents .binary64 (sign y.negative) 0#11 0#52 := rfl
        refine ⟨⟨y.negative, 0, Layout.double.minExponent⟩, ?_, ?_⟩
        · simp only [Binary.unpacked, hzero, dite_true]
          exact ofFloat_packed hpack
        · have hy' : y = ⟨y.negative, 0, Layout.single.minExponent⟩ := by
            rw [← hzero, ← hy.exponent_of_zero hzero]
          rw [hy']
          exact round_zero y.negative
      · have hmin : Layout.double.minExponent = -1074 := by decide
        have hmax : Layout.double.maxExponent = 971 := by decide
        have hle : -149 ≤ y.exponent := hy.le_exponent
        have hge : y.exponent ≤ 104 := hy.exponent_le
        have hlog := log2_lt_of_canonical hy hzero
        have hexponent : (y.fullWidth .double).exponent =
            y.exponent - (52 - Nat.log2 y.mantissa : Nat) := rfl
        refine ⟨y.fullWidth .double, ?_, round_fullWidth hy hzero⟩
        simp only [Binary.unpacked, hzero, dite_false]
        exact ofFloat_pack_finite _ (log2_fullWidth hy hzero) (by omega) (by omega)

end LineLog.Decimal
