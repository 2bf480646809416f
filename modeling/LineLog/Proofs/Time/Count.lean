import LineLog.Proofs.Field.Append
import LineLog.Proofs.Time.Duration
import LineLog.Proofs.Time.Epoch
/-!
# LineLog.Proofs.Time.Count

A duration is divided by its unit once and exactly, and the count never leaves its word.

`IsQuotient` describes the count by the remainder that is dropped: less than a unit, and never against the
sign of the duration. At most one number is described so (`IsQuotient.unique`).

Design points:

* The quotient of two words is a word again, unless the least word is divided by minus one
  (`Word.div?_eq_none_iff`). The count that is written takes the quotient of the numbers and comes to the
  same (`count?_eq`).
* `Counted` is the law for two words. Fields put an end of the range in the place of a duration beyond it and
  obey the law for these words. That keeps the order of durations, so counts stay in order too.
-/

namespace LineLog.Time

open Decimal Text Json

/-! ### Quotients -/

/-- `q` units of `u` are as many as there are whole ones in `n`: what is left is less than a unit, and is
zero or has the sign of `n`. -/
def IsQuotient (n u q : Int) : Prop :=
  ∃ r, n = q * u + r ∧ |r| < |u| ∧ (r = 0 ∨ r.sign = n.sign)

/-- What is left lies on the same side of zero as the number. -/
theorem remainder_side {n r : Int} (h : r = 0 ∨ r.sign = n.sign) :
    (0 ≤ n → 0 ≤ r) ∧ (n ≤ 0 → r ≤ 0) := by
  rcases h with hzero | hsign
  · simp [hzero]
  · have hnonneg := Int.sign_nonneg_iff (x := r)
    have hnonpos := Int.sign_nonpos_iff (x := r)
    rw [hsign, Int.sign_nonneg_iff] at hnonneg
    rw [hsign, Int.sign_nonpos_iff] at hnonpos
    exact ⟨hnonneg.1, hnonpos.1⟩

theorem isQuotient_tdiv (n : Int) {u : Int} (hu : u ≠ 0) : IsQuotient n u (n.tdiv u) := by
  have hless : (n.tmod u).natAbs < u.natAbs := by
    rw [Int.natAbs_tmod]
    exact Nat.mod_lt _ (Int.natAbs_pos.2 hu)
  have hsign := Int.sign_tmod n u
  refine ⟨n.tmod u, (Int.tdiv_mul_add_tmod n u).symm, ?_, ?_⟩
  · rw [Int.abs_eq_natAbs, Int.abs_eq_natAbs]
    exact_mod_cast hless
  · by_cases hdvd : u ∣ n
    · rw [if_pos hdvd, Int.sign_eq_zero_iff_zero] at hsign
      exact .inl hsign
    · rw [if_neg hdvd] at hsign
      exact .inr hsign

/-- **There is one quotient.** -/
theorem IsQuotient.unique {n u q q' : Int} (h : IsQuotient n u q) (h' : IsQuotient n u q') : q = q' := by
  obtain ⟨r, hn, hless, hsign⟩ := h
  obtain ⟨r', hn', hless', hsign'⟩ := h'
  have hu : u ≠ 0 := by
    intro hu
    rw [hu, abs_zero] at hless
    exact absurd hless (abs_nonneg r).not_gt
  -- Both remainders lie on one side of zero, so they are less than a unit apart.
  have hclose : |r - r'| < |u| := by
    rw [abs_lt] at hless hless' ⊢
    rcases le_total 0 n with hside | hside
    · have hr := (remainder_side hsign).1 hside
      have hr' := (remainder_side hsign').1 hside
      omega
    · have hr := (remainder_side hsign).2 hside
      have hr' := (remainder_side hsign').2 hside
      omega
  have hmultiple : r - r' = (q' - q) * u := by linarith
  have hsame : r - r' = 0 :=
    Int.eq_zero_of_abs_lt_dvd ((abs_dvd u _).2 (hmultiple ▸ dvd_mul_left u _)) hclose
  rw [hsame, eq_comm, mul_eq_zero, or_iff_left hu] at hmultiple
  omega

/-- Whole units never come to more than there is. -/
theorem abs_tdiv_mul_le (n u : Int) : |n.tdiv u * u| ≤ |n| := by
  have hle : n.natAbs / u.natAbs * u.natAbs ≤ n.natAbs := Nat.div_mul_le_self _ _
  rw [Int.abs_eq_natAbs, Int.abs_eq_natAbs, Int.natAbs_mul, Int.natAbs_tdiv]
  exact_mod_cast hle

/-! ### Words -/

namespace Word

theorem toInt_of_ofInt? {n : Int} {w : Int64} (h : ofInt? n = some w) : w.toInt = n := by
  rw [ofInt?, Int64.toInt_minValue, Int64.toInt_maxValue] at h
  split at h
  · rename_i hrange
    rw [← Option.some.inj h]
    exact Int64.toInt_ofInt_of_le (by omega) (by omega)
  · cases h

theorem ofInt?_eq_none_iff {n : Int} : ofInt? n = none ↔ n < -2 ^ 63 ∨ 2 ^ 63 ≤ n := by
  rw [ofInt?, Int64.toInt_minValue, Int64.toInt_maxValue]
  split
  · simp
    omega
  · simp
    omega

/-- A quotient leaves the range of its word where the least word is divided by minus one. -/
theorem tdiv_outside_iff {n u : Int} (hlow : -2 ^ 63 ≤ n) (hhigh : n < 2 ^ 63) :
    n.tdiv u < -2 ^ 63 ∨ 2 ^ 63 ≤ n.tdiv u ↔ n = -2 ^ 63 ∧ u = -1 := by
  constructor
  · intro houtside
    have hle := Int.natAbs_tdiv_le_natAbs n u
    have hleast : n = -2 ^ 63 := by omega
    have hfull : (n.tdiv u).natAbs = 2 ^ 63 := by omega
    -- Divided by two or more, the least word would come to half of its size at most.
    have hunit : u.natAbs < 2 := by
      by_contra hlarge
      have hhalf : n.natAbs / u.natAbs ≤ n.natAbs / 2 :=
        Nat.div_le_div_left (Nat.le_of_not_lt hlarge) (by decide)
      rw [Int.natAbs_tdiv] at hfull
      change n.natAbs / u.natAbs = 2 ^ 63 at hfull
      omega
    have hcases : u = 0 ∨ u = 1 ∨ u = -1 := by omega
    rcases hcases with rfl | rfl | rfl
    · rw [Int.tdiv_zero] at houtside
      omega
    · rw [Int.tdiv_one] at houtside
      omega
    · exact ⟨hleast, rfl⟩
  · intro h
    rw [h.1, h.2]
    decide

/-- **Two words have a quotient** unless the divisor is zero, or minus one for the least word. -/
theorem div?_eq_none_iff {n u : Int64} :
    div? n u = none ↔ u = 0 ∨ n = Int64.minValue ∧ u = -1 := by
  have hminus : (-1 : Int64).toInt = -1 := by decide
  by_cases hu : u = 0
  · simp [div?, hu]
  · rw [div?, if_neg hu, ofInt?_eq_none_iff, tdiv_outside_iff n.le_toInt n.toInt_lt, or_iff_right hu,
      ← Int64.toInt_inj, ← Int64.toInt_inj, Int64.toInt_minValue, hminus]

/-- A quotient on words is the quotient. -/
theorem toInt_of_div? {n u q : Int64} (h : div? n u = some q) :
    u.toInt ≠ 0 ∧ q.toInt = n.toInt.tdiv u.toInt := by
  rw [div?] at h
  split at h
  · cases h
  · rename_i hu
    refine ⟨?_, toInt_of_ofInt? h⟩
    rw [← Int64.toInt_zero, Int64.toInt_inj.ne]
    exact hu

end Word

namespace Duration

/-- **The count on words comes to the same.** -/
theorem count?_eq (n u : Int64) : count? n u = (Word.div? n u).map Int64.toInt := by
  rw [count?]
  cases hdiv : Word.div? n u with
  | none => rw [if_pos (Word.div?_eq_none_iff.1 hdiv), Option.map_none]
  | some q =>
      have hsome : ¬ (u = 0 ∨ n = Int64.minValue ∧ u = -1) := by
        rw [← Word.div?_eq_none_iff, hdiv]
        simp
      rw [if_neg hsome, Option.map_some, (Word.toInt_of_div? hdiv).2]

/-- A duration is held by its word, or by the end of the range on its side. -/
theorem saturating_eq_clamp (n : Int) : Word.saturating n = clamp n := by
  rw [Word.saturating, clamp, Word.ofInt?]
  have hneg : n < Int64.minValue.toInt → n < 0 := by
    rw [Int64.toInt_minValue]
    omega
  have hpos : Int64.maxValue.toInt < n → ¬ n < 0 := by
    rw [Int64.toInt_maxValue]
    omega
  by_cases hlow : n < Int64.minValue.toInt
  · rw [if_neg (fun hrange => absurd hlow (not_lt.2 hrange.1)), if_pos hlow, Option.getD_none,
      if_pos (hneg hlow)]
  · by_cases hhigh : Int64.maxValue.toInt < n
    · rw [if_neg (fun hrange => absurd hhigh (not_lt.2 hrange.2)), if_neg hlow, if_pos hhigh,
        Option.getD_none, if_neg (hpos hhigh)]
    · rw [if_pos ⟨not_lt.1 hlow, not_lt.1 hhigh⟩, if_neg hlow, if_neg hhigh, Option.getD_some]

/-- A greater duration is not held by a lesser word. -/
theorem toInt_clamp_mono {m n : Int} (h : m ≤ n) : (clamp m).toInt ≤ (clamp n).toInt := by
  rw [toInt_clamp, toInt_clamp]
  omega

/-- A unit after zero stays there. -/
theorem toInt_clamp_pos {n : Int} (h : 0 < n) : 0 < (clamp n).toInt := by
  rw [toInt_clamp, Int64.toInt_minValue, Int64.toInt_maxValue]
  omega

/-! ### What is written -/

/-- The bytes hold the count of units of `u` in `n`: null if the words have no quotient, and else the
quotient, which is a word. -/
structure Counted (n u : Int64) (written : Bytes) : Prop where
  null_iff : parseBytes written = .ok .null ↔ u = 0 ∨ n = Int64.minValue ∧ u = -1
  quotient : ¬ (u = 0 ∨ n = Int64.minValue ∧ u = -1) → ∃ q : Int64,
    Word.div? n u = some q ∧ integer? written = some q.toInt ∧
      IsQuotient n.toInt u.toInt q.toInt ∧ |q.toInt * u.toInt| ≤ |n.toInt|

theorem durationCount_eq (n u : Int64) :
    durationCount u n = orNull (fun q : Int64 => integer q.toInt) (Word.div? n u) := by
  rw [durationCount, count?_eq]
  cases Word.div? n u <;> rfl

/-- **The count of a word is written**, or null where there is none. -/
theorem counted_durationCount (n u : Int64) : Counted n u (utf8 (durationCount u n)) where
  null_iff := by
    rw [← Word.div?_eq_none_iff, durationCount_eq]
    cases Word.div? n u with
    | none => simp [orNull, Compact.null.parseBytes]
    | some q => simp [orNull, (Compact.integer q.toInt).parseBytes]
  quotient h := by
    rw [← Word.div?_eq_none_iff] at h
    obtain ⟨q, hq⟩ := Option.ne_none_iff_exists'.1 h
    obtain ⟨hu, hquotient⟩ := Word.toInt_of_div? hq
    refine ⟨q, hq, ?_, ?_, ?_⟩
    · rw [durationCount_eq, hq]
      exact integer?_integer q.toInt
    · rw [hquotient]
      exact isQuotient_tdiv _ hu
    · rw [hquotient]
      exact abs_tdiv_mul_le _ _

theorem writeTo_duration (fallback : Format) (dst : Bytes) (n u : Int64) :
    (FieldValue.duration n u).writeTo fallback dst = dst ++ utf8 (durationCount u n) ∧
      (FieldValue.durationOpt (some n) u).writeTo fallback dst = dst ++ utf8 (durationCount u n) :=
  ⟨appendCount_eq u dst n, appendCount_eq u dst n⟩

/-- Counts of a positive unit are in the order of what is counted. -/
theorem counts_mono (fallback : Format) {n m u : Int64} (hu : 0 < u.toInt) (h : n.toInt ≤ m.toInt) :
    ∃ q q', integer? ((FieldValue.duration n u).writeTo fallback []) = some q ∧
      integer? ((FieldValue.duration m u).writeTo fallback []) = some q' ∧ q ≤ q' := by
  have hdivides : ∀ k : Int64, ¬ (u = 0 ∨ k = Int64.minValue ∧ u = -1) := by
    rintro k (hzero | ⟨-, hminus⟩)
    · rw [hzero] at hu
      exact absurd hu (by decide)
    · rw [hminus] at hu
      exact absurd hu (by decide)
  obtain ⟨q, hq, hread, -⟩ := (counted_durationCount n u).quotient (hdivides n)
  obtain ⟨q', hq', hread', -⟩ := (counted_durationCount m u).quotient (hdivides m)
  refine ⟨q.toInt, q'.toInt, ?_, ?_, ?_⟩
  · rw [(writeTo_duration fallback [] n u).1]
    exact hread
  · rw [(writeTo_duration fallback [] m u).1]
    exact hread'
  · rw [(Word.toInt_of_div? hq).2, (Word.toInt_of_div? hq').2]
    exact Int.tdiv_le_tdiv hu h

/-- **Durations are divided once and never overflow.** A count of units is written behind `dst` for any two
words: null if the unit is zero, or if the least word is counted in units of minus one, and nowhere else;
otherwise the one quotient whose remainder is less than a unit and not against the sign of the duration.
The quotient is a word, so nothing is lost in dividing. A field counts a duration of any length so, with
the ends of the range in the place of a duration or a unit beyond it. For a positive unit, a greater
duration never has a lesser count. -/
theorem count_writeTo (fallback : Format) :
    (∀ (n u : Int64) (dst : Bytes), ∃ written,
      (FieldValue.duration n u).writeTo fallback dst = dst ++ written ∧
      (FieldValue.durationOpt (some n) u).writeTo fallback dst = dst ++ written ∧
      Counted n u written) ∧
    (∀ (key : String) (unit value : Int) (dst : Bytes), ∃ (n u : Int64) (written : Bytes),
      n.toInt = max Int64.minValue.toInt (min value Int64.maxValue.toInt) ∧
      u.toInt = max Int64.minValue.toInt (min unit Int64.maxValue.toInt) ∧
      n = Word.saturating value ∧ u = Word.saturating unit ∧
      (Field.duration key unit value).value.writeTo fallback dst = dst ++ written ∧
      (Field.durationOpt key unit (some value)).value.writeTo fallback dst = dst ++ written ∧
      Counted n u written) ∧
    (∀ n u q q', IsQuotient n u q → IsQuotient n u q' → q = q') ∧
    (∀ n m u : Int64, 0 < u.toInt → n.toInt ≤ m.toInt →
      ∃ q q', integer? ((FieldValue.duration n u).writeTo fallback []) = some q ∧
        integer? ((FieldValue.duration m u).writeTo fallback []) = some q' ∧ q ≤ q') ∧
    ∀ (key : String) (unit value more : Int), 0 < unit → value ≤ more →
      ∃ q q', integer? ((Field.duration key unit value).value.writeTo fallback []) = some q ∧
        integer? ((Field.duration key unit more).value.writeTo fallback []) = some q' ∧ q ≤ q' := by
  refine ⟨?_, ?_, ?_, ?_, ?_⟩
  · intro n u dst
    exact ⟨_, (writeTo_duration fallback dst n u).1, (writeTo_duration fallback dst n u).2,
      counted_durationCount n u⟩
  · intro key unit value dst
    have hwritten := writeTo_duration fallback dst (clamp value) (clamp unit)
    exact ⟨clamp value, clamp unit, _, toInt_clamp value, toInt_clamp unit,
      (saturating_eq_clamp value).symm, (saturating_eq_clamp unit).symm, hwritten.1, hwritten.2,
      counted_durationCount _ _⟩
  · intro n u q q' h h'
    exact h.unique h'
  · intro n m u hu h
    exact counts_mono fallback hu h
  · intro key unit value more hunit h
    exact counts_mono fallback (toInt_clamp_pos hunit) (toInt_clamp_mono h)

/-- A nanosecond more than the least word has, counted backwards. A second and a half before zero is minus
one second, and not minus two. -/
theorem count_writeTo_least :
    (∃ written, (Field.duration "d" (ofParts (-1) 999999999)
        (ofParts (-9223372037) 145224191)).value.writeTo .unix [commaByte] = [commaByte] ++ written ∧
      parseBytes written = .ok .null) ∧
    integer? ((FieldValue.duration (-1500000000) 1000000000).writeTo .unix []) = some (-1) ∧
    ∃ q q', integer? ((Field.duration "d" (ofParts 1 0) (ofParts (-2) 500000000)).value.writeTo
        .unix []) = some q ∧
      integer? ((Field.duration "d" (ofParts 1 0) (ofParts 9223372036 854775808)).value.writeTo
        .unix []) = some q' ∧ q ≤ q' := by
  obtain ⟨hwords, hfields, hunique, -, hordered⟩ := count_writeTo .unix
  refine ⟨?_, ?_, hordered "d" _ _ _ (by decide) (by decide)⟩
  · obtain ⟨n, u, written, hn, hu, -, -, happend, -, hcounted⟩ :=
      hfields "d" (ofParts (-1) 999999999) (ofParts (-9223372037) 145224191) [commaByte]
    have hleast : n = Int64.minValue := Int64.toInt_inj.1 (hn.trans (by decide))
    have hminus : u = -1 := Int64.toInt_inj.1 (hu.trans (by decide))
    exact ⟨written, happend, hcounted.null_iff.2 (.inr ⟨hleast, hminus⟩)⟩
  · obtain ⟨written, happend, -, hcounted⟩ := hwords (-1500000000) 1000000000 []
    obtain ⟨q, -, hread, hquotient, -⟩ := hcounted.quotient (by decide)
    have hq : q.toInt = -1 := hunique _ _ _ _ hquotient ⟨-500000000, by decide⟩
    rw [happend, List.nil_append, hread, hq]

end Duration
end LineLog.Time
