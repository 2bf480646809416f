import LineLog.Proofs.Field.Denotation
import LineLog.Time.Word
import Mathlib.Data.Rat.Floor
/-!
# LineLog.Proofs.Time.Epoch

Counts from the epoch are exact, in every encoding and on 64-bit words.

`Instant.sinceEpoch` is the number of seconds that an instant is from the epoch, as a rational number. The
encoding with a fraction is worth just that, and the others are worth it in their unit, rounded down.

Design points:

* Rounding down is proved once, for any unit that divides a second (`floor_mul_exact`). It is the same
  before the epoch, because the nanoseconds of an instant point forward there too.
* That no step leaves the range of its words is proved of the counts on words (`unixDecimal?_eq`,
  `Format.render?_eq`): they have a result, and it is the one that is written.
* The order of instants is that of their seconds, then of their nanoseconds. It is the order of what is
  written because the nanoseconds stay below a second (`exact_lt_iff`).
-/

namespace LineLog.Time

open Decimal Text Json

/-! ### Words -/

namespace Word

theorem exists_ofInt? {n : Int} (hlow : -2 ^ 63 ≤ n) (hhigh : n < 2 ^ 63) :
    ∃ w, ofInt? n = some w ∧ w.toInt = n := by
  have hrange : Int64.minValue.toInt ≤ n ∧ n ≤ Int64.maxValue.toInt := by
    rw [Int64.toInt_minValue, Int64.toInt_maxValue]
    omega
  exact ⟨Int64.ofInt n, if_pos hrange, Int64.toInt_ofInt_of_le hlow hhigh⟩

theorem toNat_withinSecond (nanos : UInt32) : (withinSecond nanos).toNat = shownNanos nanos.toNat := by
  have hlast : (UInt64.ofNat (nanosPerSecond - 1)).toNat = nanosPerSecond - 1 := by decide
  simp only [withinSecond, shownNanos]
  split
  · rename_i hle
    rw [UInt64.le_iff_toNat_le, UInt32.toNat_toUInt64, hlast] at hle
    rw [UInt32.toNat_toUInt64, min_eq_left hle]
  · rename_i hlt
    rw [UInt64.le_iff_toNat_le, UInt32.toNat_toUInt64, hlast] at hlt
    rw [hlast, min_eq_right (Nat.le_of_not_le hlt)]

end Word

/-- **Seconds with a fraction can be counted on words**, also at both ends of their range. -/
theorem unixDecimal?_eq (secs : Int64) (nanos : UInt32) :
    unixDecimal? secs nanos = some (unixDecimal secs.toInt nanos.toNat) := by
  have hshown := Word.toNat_withinSecond nanos
  have hlt := shownNanos_lt nanos.toNat
  have hcondition : (secs < 0 ∧ 0 < Word.withinSecond nanos) ↔
      (secs.toInt < 0 ∧ 0 < shownNanos nanos.toNat) := by
    rw [Int64.lt_iff_toInt_lt, UInt64.lt_iff_toNat_lt, hshown]
    rfl
  rw [unixDecimal?, unixDecimal_eq]
  by_cases hbefore : secs.toInt < 0 ∧ 0 < shownNanos nanos.toNat
  · rw [if_pos (hcondition.2 hbefore), if_pos hbefore]
    -- The second above one before the epoch is at most zero, and the missing part is less than a second.
    obtain ⟨above, habove, hsum⟩ := Word.exists_ofInt? (n := secs.toInt + 1)
      (by have := secs.le_toInt; omega) (by omega)
    have hsecond : (UInt64.ofNat nanosPerSecond).toNat = nanosPerSecond := by decide
    have hle : Word.withinSecond nanos ≤ UInt64.ofNat nanosPerSecond := by
      rw [UInt64.le_iff_toNat_le, hshown, hsecond]
      exact hlt.le
    have hmissing : (UInt64.ofNat nanosPerSecond - Word.withinSecond nanos).toNat =
        nanosPerSecond - shownNanos nanos.toNat := by
      rw [UInt64.toNat_sub_of_le _ _ hle, hshown, hsecond]
    have hadd : Word.add? secs 1 = some above := habove
    simp only [hadd, Word.sub?, if_pos hle, Option.bind_eq_bind, Option.bind_some, Option.pure_def, hsum,
      hmissing]
  · rw [if_neg (fun h => hbefore (hcondition.1 h)), if_neg hbefore, hshown]

/-! ### The exact number of seconds -/

/-- The seconds from the epoch to a moment, as a rational number. -/
def exactSeconds (secs : Int) (nanos : Nat) : ℚ :=
  secs + nanos / nanosPerSecond

/-- The first moment lies before the second. -/
def Earlier (secs : Int) (nanos : Nat) (secs' : Int) (nanos' : Nat) : Prop :=
  secs < secs' ∨ secs = secs' ∧ nanos < nanos'

theorem exactSeconds_mul (secs : Int) (nanos : Nat) :
    exactSeconds secs nanos * nanosPerSecond = ((secs * nanosPerSecond + nanos : Int) : ℚ) := by
  have hne : (nanosPerSecond : ℚ) ≠ 0 := by norm_num [nanosPerSecond]
  rw [exactSeconds, add_mul, div_mul_cancel₀ _ hne]
  push_cast
  rfl

/-- The exact seconds are in the order of the moments. -/
theorem exactSeconds_lt_iff {secs secs' : Int} {nanos nanos' : Nat} (h : nanos < nanosPerSecond)
    (h' : nanos' < nanosPerSecond) :
    exactSeconds secs nanos < exactSeconds secs' nanos' ↔ Earlier secs nanos secs' nanos' := by
  have hpos : (0 : ℚ) < nanosPerSecond := by norm_num [nanosPerSecond]
  rw [← mul_lt_mul_iff_left₀ hpos, exactSeconds_mul, exactSeconds_mul, Int.cast_lt]
  unfold Earlier nanosPerSecond at *
  omega

/-- In a unit that divides a second, rounding down leaves the seconds whole and counts the units within
the current one. -/
theorem floor_mul_exactSeconds (secs : Int) (nanos : Nat) {perSecond unit : Nat}
    (h : perSecond * unit = nanosPerSecond) :
    ⌊(perSecond : ℚ) * exactSeconds secs nanos⌋ = secs * perSecond + (nanos / unit : Nat) := by
  have hpos : perSecond * unit ≠ 0 := by
    rw [h]
    decide
  have hperSecond : (perSecond : ℚ) ≠ 0 := by exact_mod_cast left_ne_zero_of_mul hpos
  have hunit : (unit : ℚ) ≠ 0 := by exact_mod_cast right_ne_zero_of_mul hpos
  have hsplit : (perSecond : ℚ) * exactSeconds secs nanos =
      ((secs * perSecond : Int) : ℚ) + ((nanos : Int) : ℚ) / (unit : ℚ) := by
    rw [exactSeconds, ← h]
    push_cast
    field_simp
  rw [hsplit, Int.floor_intCast_add, Rat.floor_intCast_div_natCast, Int.natCast_div]

/-! ### Seconds with a fraction -/

/-- What is read in the text that is written for two words. -/
def shownSeconds? (secs : Int64) (nanos : UInt32) : Option ℚ :=
  (unixDecimal? secs nanos).bind fun text => decimal? (utf8 text)

theorem shownSeconds?_eq (secs : Int64) (nanos : UInt32) :
    shownSeconds? secs nanos = some (exactSeconds secs.toInt (shownNanos nanos.toNat)) := by
  rw [shownSeconds?, unixDecimal?_eq, Option.bind_some, ← plain_unixLiteral,
    decimal?_plain (unixLiteral_wellFormed _ _) (unixLiteral_exponent _ _), value_unixLiteral]
  rfl

/-- **Seconds with a fraction are written exactly**, on words, for every pair of them: as a number in
canonical form that is worth the seconds and the nanoseconds, where those beyond a second count as the
last one. Below a second of nanoseconds no two pairs are written alike, and the numbers are in the order
of the pairs. -/
theorem unixDecimal_exact (secs : Int64) (nanos : UInt32) :
    (∃ l : Literal, unixDecimal? secs nanos = some l.plain ∧
      parseBytes (utf8 l.plain) = .ok (.number l) ∧ l.Canonical 9 ∧
      l.value = secs.toInt + ((min nanos.toNat 999999999 : Nat) : ℚ) / 10 ^ 9) ∧
    ∀ (secs' : Int64) (nanos' : UInt32), nanos.toNat < 10 ^ 9 → nanos'.toNat < 10 ^ 9 →
      (unixDecimal? secs nanos = unixDecimal? secs' nanos' → secs = secs' ∧ nanos = nanos') ∧
      ∃ v v' : ℚ, shownSeconds? secs nanos = some v ∧ shownSeconds? secs' nanos' = some v' ∧
        (v < v' ↔ secs < secs' ∨ secs = secs' ∧ nanos < nanos') := by
  constructor
  · refine ⟨unixLiteral secs.toInt nanos.toNat, ?_, ?_, unixLiteral_canonical _ _, ?_⟩
    · rw [unixDecimal?_eq, plain_unixLiteral]
    · exact (Compact.number (unixLiteral_wellFormed _ _) (unixLiteral_exponent _ _)).parseBytes
    · rw [value_unixLiteral]
      norm_num [shownNanos, nanosPerSecond]
  · intro secs' nanos' hnanos hnanos'
    have hshown : ∀ n : Nat, n < 10 ^ 9 → shownNanos n = n := fun n hn =>
      min_eq_left (Nat.le_sub_one_of_lt hn)
    have hworth := shownSeconds?_eq secs nanos
    have hworth' := shownSeconds?_eq secs' nanos'
    rw [hshown _ hnanos] at hworth
    rw [hshown _ hnanos'] at hworth'
    refine ⟨?_, _, _, hworth, hworth', ?_⟩
    · intro hsame
      -- Texts that are the same are worth the same, and neither pair can be the earlier one then.
      rw [shownSeconds?, hsame] at hworth
      have heq := Option.some.inj (hworth.symm.trans hworth')
      have hnot : ¬ Earlier secs.toInt nanos.toNat secs'.toInt nanos'.toNat := fun h =>
        absurd heq ((exactSeconds_lt_iff hnanos hnanos').2 h).ne
      have hnot' : ¬ Earlier secs'.toInt nanos'.toNat secs.toInt nanos.toNat := fun h =>
        absurd heq ((exactSeconds_lt_iff hnanos' hnanos).2 h).ne'
      unfold Earlier at hnot hnot'
      exact ⟨Int64.toInt_inj.1 (by omega), UInt32.toNat_inj.1 (by omega)⟩
    · rw [exactSeconds_lt_iff hnanos hnanos', Earlier, Int64.lt_iff_toInt_lt, UInt32.lt_iff_toNat_lt,
        Int64.toInt_inj]

/-- Just before a second, and at the least one: the text is counted from the second above. -/
theorem unixDecimal_exact_least :
    let secs := Int64.minValue
    let nanos : UInt32 := 999999999
    nanos.toNat < 10 ^ 9 ∧ (0 : UInt32).toNat < 10 ^ 9 ∧
      unixDecimal? secs nanos = some "-9223372036854775807.000000001".toList ∧
      ∃ v v' : ℚ, shownSeconds? secs nanos = some v ∧ shownSeconds? (secs + 1) 0 = some v' ∧ v < v' := by
  intro secs nanos
  have hnanos : nanos.toNat < 10 ^ 9 := by decide
  obtain ⟨-, v, v', hv, hv', hlt⟩ := (unixDecimal_exact secs nanos).2 (secs + 1) 0 hnanos (by decide)
  exact ⟨hnanos, by decide, by decide, v, v', hv, hv', hlt.2 (.inl (by decide))⟩

/-! ### Instants -/

namespace Instant

variable {t : Instant}

/-- The seconds from the epoch to an instant. -/
def sinceEpoch (t : Instant) : ℚ :=
  exactSeconds t.secs t.nanos

/-- The instant is before another one, whatever the offsets. -/
def Before (t u : Instant) : Prop :=
  Earlier t.secs t.nanos u.secs u.nanos

theorem secs_eq_floor (h : t.nanos < nanosPerSecond) : t.secs = ⌊t.sinceEpoch⌋ := by
  have hfloor := floor_mul_exactSeconds t.secs t.nanos (one_mul nanosPerSecond)
  simpa [sinceEpoch, Nat.div_eq_of_lt h] using hfloor.symm

theorem millis_eq_floor (t : Instant) : t.millis = ⌊1000 * t.sinceEpoch⌋ := by
  have hfloor := floor_mul_exactSeconds t.secs t.nanos (show 1000 * 1000000 = nanosPerSecond from rfl)
  exact_mod_cast hfloor.symm

theorem micros_eq_floor (t : Instant) : t.micros = ⌊1000000 * t.sinceEpoch⌋ := by
  have hfloor := floor_mul_exactSeconds t.secs t.nanos (show 1000000 * 1000 = nanosPerSecond from rfl)
  exact_mod_cast hfloor.symm

/-- Units can be counted on words if neither those of the whole seconds nor all of them are out of
range. -/
theorem exists_units? {perSecond within : Nat} (hsecs : -2 ^ 63 ≤ t.secs ∧ t.secs < 2 ^ 63)
    (hperSecond : perSecond < 2 ^ 63) (hwithin : within < 2 ^ 63)
    (hlow : -2 ^ 63 ≤ t.secs * perSecond) (hhigh : t.secs * perSecond + within < 2 ^ 63) :
    ∃ w, t.units? perSecond within = some w ∧ w.toInt = t.secs * perSecond + within := by
  obtain ⟨secs, hword, hsecsEq⟩ := Word.exists_ofInt? hsecs.1 hsecs.2
  have hfactor : (Int64.ofNat perSecond).toInt = perSecond := Int64.toInt_ofNat_of_lt hperSecond
  have hpart : (Int64.ofNat within).toInt = within := Int64.toInt_ofNat_of_lt hwithin
  obtain ⟨whole, hmul, hwhole⟩ := Word.exists_ofInt? hlow (by omega)
  obtain ⟨w, hadd, hw⟩ := Word.exists_ofInt? (n := t.secs * perSecond + within) (by omega) hhigh
  refine ⟨w, ?_, hw⟩
  simp only [units?, Word.mul?, Word.add?, hword, hsecsEq, hfactor, hpart, hmul, hwhole, hadd,
    Option.bind_eq_bind, Option.bind_some]

section Valid

variable (h : t.Valid)
include h

theorem Valid.secs_word : -2 ^ 63 ≤ t.secs ∧ t.secs < 2 ^ 63 := by
  obtain ⟨hfirst, hlast, -⟩ := h
  unfold firstSecond lastSecond at *
  omega

/-- The nanoseconds of a valid instant, those of a leap second too, fit into half a word. -/
theorem Valid.nanos_word : (UInt32.ofNat t.nanos).toNat = t.nanos := by
  obtain ⟨-, -, hnanos, -⟩ := h
  apply UInt32.toNat_ofNat_of_lt'
  unfold nanosPerSecond at hnanos
  exact lt_trans hnanos (by decide)

theorem exists_millis? : ∃ w, t.millis? = some w ∧ w.toInt = t.millis := by
  obtain ⟨hfirst, hlast, hnanos, -⟩ := id h
  unfold firstSecond lastSecond nanosPerSecond at *
  exact exists_units? h.secs_word (by decide) (by omega) (by omega) (by omega)

/-- Microseconds come closest to the ends of the range, and stay a tenth of it away. -/
theorem exists_micros? : ∃ w, t.micros? = some w ∧ w.toInt = t.micros := by
  obtain ⟨hfirst, hlast, hnanos, -⟩ := id h
  unfold firstSecond lastSecond nanosPerSecond at *
  exact exists_units? h.secs_word (by decide) (by omega) (by omega) (by omega)

end Valid
end Instant

/-- **Every encoding of a valid instant can be counted on words**, and what is written is the same. -/
theorem Format.render?_eq {t : Instant} (h : t.Valid) (f : Format) : f.render? t = some (f.render t) := by
  obtain ⟨secs, hword, hsecs⟩ := Word.exists_ofInt? h.secs_word.1 h.secs_word.2
  cases f with
  | rfc3339Nano => rfl
  | rfc3339 => rfl
  | iso8601 => rfl
  | custom layout => rfl
  | unixDecimal =>
      simp only [render?, hword, Option.bind_some, unixDecimal?_eq, hsecs, h.nanos_word]
      rfl
  | unix =>
      simp only [render?, hword, Option.map_some, hsecs]
      rfl
  | unixMillis =>
      obtain ⟨w, hmillis, hw⟩ := Instant.exists_millis? h
      simp only [render?, hmillis, Option.map_some, hw]
      rfl
  | unixMicros =>
      obtain ⟨w, hmicros, hw⟩ := Instant.exists_micros? h
      simp only [render?, hmicros, Option.map_some, hw]
      rfl

/-! ### Numeric encodings -/

namespace Format

/-- The keywords of the numeric encodings. -/
def numericKeywords : List (String × Format) :=
  [("", unixDecimal), ("UNIXDECIMAL", unixDecimal), ("UNIX", unix), ("UNIXMILLI", unixMillis),
    ("UNIXMICRO", unixMicros)]

theorem ofKeyword_numeric : ∀ p ∈ numericKeywords, ofKeyword p.1 = p.2 := by
  decide

/-- What a numeric encoding counts: seconds with their fraction, or units rounded down. -/
def counted (v : ℚ) : Format → ℚ
  | unix => ⌊v⌋
  | unixMillis => ⌊1000 * v⌋
  | unixMicros => ⌊1000000 * v⌋
  | _ => v

theorem counted_mono (f : Format) {v w : ℚ} (h : v ≤ w) : f.counted v ≤ f.counted w := by
  have hfloor : ∀ k : ℚ, 0 ≤ k → (⌊k * v⌋ : ℚ) ≤ ⌊k * w⌋ := fun k hk =>
    Int.cast_le.2 (Int.floor_le_floor (mul_le_mul_of_nonneg_left h hk))
  cases f with
  | unix => exact Int.cast_le.2 (Int.floor_le_floor h)
  | unixMillis => exact hfloor 1000 (by norm_num)
  | unixMicros => exact hfloor 1000000 (by norm_num)
  | _ => exact h

theorem render_offset {f : Format} (hf : f.isNumeric) (t : Instant) (offset : Int) :
    f.render { t with offset := offset } = f.render t := by
  cases f with
  | unixDecimal | unix | unixMillis | unixMicros => rfl
  | rfc3339Nano | rfc3339 | iso8601 | custom _ => simp [isNumeric] at hf

variable {t : Instant} (h : t.nanos < nanosPerSecond)
include h

/-- Seconds with a fraction are worth the instant exactly, unless it lies in a leap second. -/
theorem decimal?_unixDecimal : decimal? (utf8 (unixDecimal.render t)) = some t.sinceEpoch := by
  have hshown : shownNanos t.nanos = t.nanos := min_eq_left (Nat.le_sub_one_of_lt h)
  rw [render, ← plain_unixLiteral, decimal?_plain (unixLiteral_wellFormed _ _) (unixLiteral_exponent _ _),
    value_unixLiteral, hshown]
  rfl

/-- A numeric encoding writes what it counts. -/
theorem decimal?_render {f : Format} (hf : f.isNumeric) :
    decimal? (utf8 (f.render t)) = some (f.counted t.sinceEpoch) := by
  cases f with
  | unixDecimal => exact decimal?_unixDecimal h
  | unix => rw [render, decimal?_integer, Instant.secs_eq_floor h, counted]
  | unixMillis => rw [render, decimal?_integer, Instant.millis_eq_floor, counted]
  | unixMicros => rw [render, decimal?_integer, Instant.micros_eq_floor, counted]
  | rfc3339Nano | rfc3339 | iso8601 | custom _ => simp [isNumeric] at hf

end Format

/-- **The numeric encodings agree.** What is written with a fraction is a number `v`, and the others are
`v`, `1000 v` and `1000000 v`, rounded down. For every one of them, no step of counting on words leaves
their range, the offset plays no part, an instant that is not before another one is not shown by a
smaller number, and a time field with the keyword of the encoding is written the same. -/
theorem numeric_agree {t : Instant} (h : t.Valid) (hleap : t.nanos < nanosPerSecond) :
    (∃ v : ℚ, decimal? (utf8 (Format.unixDecimal.render t)) = some v ∧
      integer? (utf8 (Format.unix.render t)) = some ⌊v⌋ ∧
      integer? (utf8 (Format.unixMillis.render t)) = some ⌊1000 * v⌋ ∧
      integer? (utf8 (Format.unixMicros.render t)) = some ⌊1000000 * v⌋) ∧
    (∀ f : Format, f.isNumeric → f.render? t = some (f.render t) ∧
      (∀ offset, f.render { t with offset := offset } = f.render t) ∧
      ∀ u : Instant, u.Valid → u.nanos < nanosPerSecond → ¬ t.Before u →
        ∃ a b : ℚ, decimal? (utf8 (f.render u)) = some a ∧ decimal? (utf8 (f.render t)) = some b ∧ a ≤ b) ∧
    ∀ p ∈ Format.numericKeywords, ∀ (key : String) (fallback : Format) (dst : Bytes),
      (Field.timeFormat key p.1 t).value.appendTo fallback dst = dst ++ utf8 (p.2.render t) ∧
      (Field.timeFormatOpt key p.1 (some t)).value.appendTo fallback dst =
        dst ++ utf8 (p.2.render t) := by
  refine ⟨⟨t.sinceEpoch, Format.decimal?_unixDecimal hleap, ?_, ?_, ?_⟩, ?_, ?_⟩
  · rw [Format.render, integer?_integer, Instant.secs_eq_floor hleap]
  · rw [Format.render, integer?_integer, Instant.millis_eq_floor]
  · rw [Format.render, integer?_integer, Instant.micros_eq_floor]
  · intro f hf
    refine ⟨Format.render?_eq h f, ?_, ?_⟩
    · exact Format.render_offset hf t
    · intro u _ hu hbefore
      have hle : u.sinceEpoch ≤ t.sinceEpoch :=
        not_lt.1 fun hlt => hbefore ((exactSeconds_lt_iff hleap hu).1 hlt)
      exact ⟨_, _, Format.decimal?_render hu hf, Format.decimal?_render hleap hf, f.counted_mono hle⟩
  · intro p hp key fallback dst
    have hkeyword := Format.ofKeyword_numeric p hp
    simp only [Field.timeFormat, Field.timeFormatOpt, FieldValue.appendTo, FieldValue.render, orNull,
      timeText, if_pos h, hkeyword, Option.getD_some, and_self]

/-- The first second of the calendar, just before the next one: all counts are below the epoch, and that
of microseconds is the farthest from it. -/
theorem numeric_agree_first :
    let t : Instant := ⟨Instant.firstSecond, 999999999, -86399⟩
    t.Valid ∧ t.nanos < nanosPerSecond ∧
      Format.unixMicros.render? t = some "-8334601228799000001".toList ∧
      ∃ v : ℚ, decimal? (utf8 (Format.unixDecimal.render t)) = some v ∧
        integer? (utf8 (Format.unixMicros.render t)) = some ⌊1000000 * v⌋ := by
  intro t
  have h : t.Valid := by decide
  have hleap : t.nanos < nanosPerSecond := by decide
  obtain ⟨⟨v, hv, -, -, hmicros⟩, -⟩ := numeric_agree h hleap
  exact ⟨h, hleap, by decide, v, hv, hmicros⟩

end LineLog.Time
