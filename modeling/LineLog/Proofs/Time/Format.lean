import LineLog.Proofs.Json.Numeral
import LineLog.Proofs.Json.Quoted
import LineLog.Time.Format
import Mathlib.Tactic.Ring
/-!
# LineLog.Proofs.Time.Format

Every encoding of an instant is one JSON value of the announced kind.

The encodings that count from the epoch are numbers without an exponent, and are worth
the instant exactly. The others are strings. `Format.Denotes` says what a reader must
find, and `exists_compact_render` that it is found, for every instant and every layout.

Before the epoch the nanoseconds of an instant point against its sign, so the text of
`unixDecimal` starts from the second above it and counts down. Its literal does the
same, and `value_unixLiteral` is where the two counts meet.
-/

namespace LineLog.Time

open Decimal Text Json

/-! ### Numbers with a fraction -/

/-- The literal of `n + numerator / 10 ^ places`, with a sign. -/
def decimalLiteral (negative : Bool) (n places numerator : Nat) : Literal where
  negative := negative
  whole := natural n
  places := fractionDigits places numerator

theorem decimalLiteral_wellFormed (negative : Bool) (n places numerator : Nat) :
    (decimalLiteral negative n places numerator).WellFormed where
  whole_digits := digits_natural n
  whole_ne_nil := natural_ne_nil n
  no_leading_zero h := by
    have hn : n = 0 := eq_zero_of_head?_natural h
    rw [decimalLiteral, hn, natural_zero]
  places_digits := digits_fractionDigits _ _

theorem plain_decimalLiteral (negative : Bool) (n places numerator : Nat) :
    (decimalLiteral negative n places numerator).plain =
      (if negative then ['-'] else []) ++ natural n ++ fraction places numerator := by
  rw [fraction_eq, Literal.plain]
  rfl

theorem magnitude_decimalLiteral (negative : Bool) (n : Nat) {places numerator : Nat}
    (hp : 0 < places) (h : numerator < 10 ^ places) :
    (decimalLiteral negative n places numerator).magnitude = n + numerator / 10 ^ places := by
  have hn : Nat.ofDigitChars 10 (natural n) 0 = n := ofDigitChars_natural n
  simp [Literal.magnitude, decimalLiteral, hn, placeValue_fractionDigits hp h]

theorem decimalLiteral_canonical {negative : Bool} {n places numerator : Nat} (hp : 0 < places)
    (h : numerator < 10 ^ places) (hzero : negative → n ≠ 0 ∨ numerator ≠ 0) :
    (decimalLiteral negative n places numerator).Canonical places where
  wellFormed := decimalLiteral_wellFormed _ _ _ _
  exponent_eq := rfl
  length_places := length_fractionDigits_le hp h
  getLast?_places := getLast?_fractionDigits _ _
  magnitude_pos hnegative := by
    rw [magnitude_decimalLiteral _ _ hp h]
    rcases hzero hnegative with hn | hn
    · have : (0 : ℚ) < n := by exact_mod_cast Nat.pos_of_ne_zero hn
      positivity
    · have : (0 : ℚ) < numerator := by exact_mod_cast Nat.pos_of_ne_zero hn
      positivity

/-! ### Seconds with a fraction -/

/-- The nanoseconds that a number with a fraction shows. -/
def shownNanos (nanos : Nat) : Nat :=
  min nanos (nanosPerSecond - 1)

theorem shownNanos_lt (nanos : Nat) : shownNanos nanos < nanosPerSecond :=
  lt_of_le_of_lt (min_le_right _ _) (by decide)

theorem unixDecimal_eq (secs : Int) (nanos : Nat) :
    unixDecimal secs nanos =
      if secs < 0 ∧ 0 < shownNanos nanos then
        '-' :: natural (secs + 1).natAbs ++ fraction 9 (nanosPerSecond - shownNanos nanos)
      else Decimal.integer secs ++ fraction 9 (shownNanos nanos) :=
  rfl

/-- The literal of `unixDecimal`. -/
def unixLiteral (secs : Int) (nanos : Nat) : Literal :=
  if secs < 0 ∧ 0 < shownNanos nanos then
    decimalLiteral true (secs + 1).natAbs 9 (nanosPerSecond - shownNanos nanos)
  else decimalLiteral (decide (secs < 0)) secs.natAbs 9 (shownNanos nanos)

theorem unixLiteral_wellFormed (secs : Int) (nanos : Nat) :
    (unixLiteral secs nanos).WellFormed := by
  unfold unixLiteral
  split <;> exact decimalLiteral_wellFormed _ _ _ _

theorem unixLiteral_canonical (secs : Int) (nanos : Nat) : (unixLiteral secs nanos).Canonical 9 := by
  have hlt := shownNanos_lt nanos
  unfold unixLiteral
  split
  · rename_i hbefore
    have hmissing : nanosPerSecond - shownNanos nanos < 10 ^ 9 := by
      have hten : 10 ^ 9 = nanosPerSecond := rfl
      omega
    exact decimalLiteral_canonical (by decide) hmissing fun _ => .inr (by omega)
  · refine decimalLiteral_canonical (by decide) hlt fun hnegative => .inl ?_
    have hneg : secs < 0 := of_decide_eq_true hnegative
    omega

@[simp] theorem unixLiteral_exponent (secs : Int) (nanos : Nat) :
    (unixLiteral secs nanos).exponent = none := by
  unfold unixLiteral
  split <;> rfl

theorem plain_unixLiteral (secs : Int) (nanos : Nat) :
    (unixLiteral secs nanos).plain = unixDecimal secs nanos := by
  rw [unixDecimal_eq, unixLiteral]
  split
  · rw [plain_decimalLiteral]
    rfl
  · rw [plain_decimalLiteral, ← Literal.plain_ofInt]
    simp [Literal.plain, Literal.ofInt]

/-- A seconds count with a fraction is worth the instant exactly, also before the epoch. -/
theorem value_unixLiteral (secs : Int) (nanos : Nat) :
    (unixLiteral secs nanos).value = secs + (shownNanos nanos : ℚ) / nanosPerSecond := by
  have hten : (10 : ℚ) ^ 9 = nanosPerSecond := by norm_num [nanosPerSecond]
  have hshown := shownNanos_lt nanos
  unfold unixLiteral
  split
  · -- The text counts down from the second above the instant.
    rename_i hneg
    have hlt : nanosPerSecond - shownNanos nanos < 10 ^ 9 := by
      rw [show 10 ^ 9 = nanosPerSecond from rfl]
      omega
    have habs : ((secs + 1).natAbs : ℚ) = -(secs + 1) := by
      rw [Nat.cast_natAbs, abs_of_nonpos (by omega)]
      push_cast
      ring
    rw [Literal.value, magnitude_decimalLiteral _ _ (by decide) hlt, habs, hten,
      Nat.cast_sub hshown.le]
    simp only [decimalLiteral, if_true]
    field_simp
    ring
  · rename_i hneg
    have hmagnitude := magnitude_decimalLiteral (decide (secs < 0)) secs.natAbs (by decide)
      (show shownNanos nanos < 10 ^ 9 from hshown)
    rw [Literal.value, hmagnitude, hten, Nat.cast_natAbs]
    by_cases hsecs : secs < 0
    · have hzero : shownNanos nanos = 0 := by omega
      simp [decimalLiteral, hsecs, hzero, abs_of_neg hsecs]
    · simp [decimalLiteral, hsecs, abs_of_nonneg (not_lt.1 hsecs)]

/-! ### Instants -/

/-- What a reader must find for an instant. Encodings that are no numbers are strings. -/
def Format.Denotes (t : Instant) : Format → Tree → Prop
  | rfc3339Nano, tree => tree = .string (t.rfc3339 true)
  | rfc3339, tree => tree = .string (t.rfc3339 false)
  | iso8601, tree => tree = .string t.iso8601
  | unixDecimal, tree => tree.IsDecimal (t.secs + (shownNanos t.nanos : ℚ) / nanosPerSecond)
  | unix, tree => tree.IsInteger t.secs
  | unixMillis, tree => tree.IsInteger t.millis
  | unixMicros, tree => tree.IsInteger t.micros
  | custom layout, tree => tree = .string (t.underLayout layout.toList)

/-- **Every encoding of every instant is one JSON value**, a number without an exponent that is worth
the instant, or the string that shows it. -/
theorem exists_compact_render (t : Instant) (f : Format) :
    ∃ tree, Compact (f.render t) tree ∧ f.Denotes t tree := by
  cases f with
  | rfc3339Nano => exact ⟨_, .quote _, rfl⟩
  | rfc3339 => exact ⟨_, .quote _, rfl⟩
  | iso8601 => exact ⟨_, .quote _, rfl⟩
  | custom layout => exact ⟨_, .quote _, rfl⟩
  | unix => exact ⟨_, .integer t.secs, Tree.isInteger_ofInt _⟩
  | unixMillis => exact ⟨_, .integer t.millis, Tree.isInteger_ofInt _⟩
  | unixMicros => exact ⟨_, .integer t.micros, Tree.isInteger_ofInt _⟩
  | unixDecimal =>
      refine ⟨.number (unixLiteral t.secs t.nanos), ?_, unixLiteral t.secs t.nanos, rfl, by simp,
        value_unixLiteral _ _⟩
      rw [Format.render, ← plain_unixLiteral]
      exact .number (unixLiteral_wellFormed _ _) (by simp)

end LineLog.Time
