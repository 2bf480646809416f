import LineLog.Proofs.Time.Rfc3339
/-!
# LineLog.Proofs.Time.Iso8601

The two strings that show an instant in UTC with a fraction, RFC 3339 and ISO 8601, side by side.

`Stamp.ofUtc?` reads both of them. It keeps the digits of the fraction as they stand, since the two
differ in how many they write: all that are needed, or three. Both show the same date and clock, whether
or not the second is a leap second (`Instant.ofUtc?_dateClock`).

Design points:

* Three digits agree with a fraction if they are its first three, where digits that are not written are
  zeros (`threePlaces`).
* In a leap second the clock goes on to second 60. ISO 8601 shows how far that second has come, and
  RFC 3339 shows its last nanosecond all along. So the two agree in the last millisecond only.
-/

namespace LineLog.Time

open Decimal Text Json

/-! ### Reading -/

/-- What a text shows of a moment: the date, the clock, and the digits of the fraction as they stand. -/
structure Stamp where
  date : Date
  hour : Nat
  minute : Nat
  second : Nat
  places : List Char
  deriving DecidableEq

/-- Reads the digits of a fraction. There may be none. -/
def readPlaces : List Char → List Char × List Char
  | '.' :: cs => digitRun cs
  | cs => ([], cs)

namespace Stamp

/-- Reads a date and a clock in UTC. A minute may have a second 60. -/
def ofUtc? (cs : List Char) : Option Stamp := do
  let (date, cs) ← readDate cs
  let cs ← readMark 'T' cs
  let (hour, cs) ← readTwo cs
  let cs ← readMark ':' cs
  let (minute, cs) ← readTwo cs
  let cs ← readMark ':' cs
  let (second, cs) ← readTwo cs
  let (places, cs) := readPlaces cs
  if hour < 24 ∧ minute < 60 ∧ second ≤ 60 ∧ cs = ['Z'] then some ⟨date, hour, minute, second, places⟩
  else none

/-- Reads a JSON string that holds a date and a clock in UTC. -/
def ofJson? (bytes : Bytes) : Option Stamp :=
  match parseBytes bytes with
  | .ok (.string cs) => ofUtc? cs
  | _ => none

theorem ofJson?_quote (cs : List Char) : ofJson? (utf8 (quote cs)) = ofUtc? cs := by
  simp only [ofJson?, (Compact.quote cs).parseBytes]

end Stamp

/-- The first three digits of a fraction, with zeros for those that are not written. -/
def threePlaces (places : List Char) : List Char :=
  (places ++ List.replicate 3 '0').take 3

/-! ### Fractions -/

/-- The first three of all nine digits are the first three of those that are written. -/
theorem threePlaces_fractionDigits {nanos : Nat} (h : nanos < nanosPerSecond) :
    threePlaces (fractionDigits 9 nanos) = Item.leadingPlaces 3 nanos := by
  by_cases hzero : nanos = 0
  · rw [hzero]
    decide
  · have hplaces : nanos < 10 ^ 9 := h
    obtain ⟨k, hk, hlength⟩ := fractionDigits_append (by decide) hplaces hzero
    have hfill : min (3 - (fractionDigits 9 nanos).length) 3 =
        min (3 - (fractionDigits 9 nanos).length) k := by omega
    rw [threePlaces, Item.leadingPlaces, ← hk, List.take_append, List.take_append, List.take_replicate,
      List.take_replicate, hfill]

/-- The first three of nine digits count milliseconds. -/
theorem leadingPlaces_three {nanos : Nat} (h : nanos < nanosPerSecond) :
    Item.leadingPlaces 3 nanos = zeroPadded 3 (nanos / 1000000) :=
  take_zeroPadded (by decide) 6 h

theorem length_leadingPlaces_three {nanos : Nat} (h : nanos < nanosPerSecond) :
    (Item.leadingPlaces 3 nanos).length = 3 := by
  rw [leadingPlaces_three h]
  unfold nanosPerSecond at h
  exact length_zeroPadded (by decide) (by omega)

/-- Three nines are the last millisecond of a second. -/
theorem leadingPlaces_eq_nines_iff {nanos : Nat} (h : nanos < nanosPerSecond) :
    Item.leadingPlaces 3 nanos = ['9', '9', '9'] ↔ 999000000 ≤ nanos := by
  rw [leadingPlaces_three h]
  unfold nanosPerSecond at h
  constructor
  · intro hnines
    have hvalue := congrArg (Nat.ofDigitChars 10 · 0) hnines
    simp only [ofDigitChars_zeroPadded] at hvalue
    have hworth : Nat.ofDigitChars 10 ['9', '9', '9'] 0 = 999 := by decide
    omega
  · intro hle
    have hmillis : nanos / 1000000 = 999 := by omega
    rw [hmillis]
    decide

/-! ### Instants -/

namespace Instant

variable {t : Instant}

/-- The date and the clock of an instant, with these digits behind them. -/
def stamp (t : Instant) (places : List Char) : Stamp :=
  ⟨t.date, t.hour, t.minute, t.second, places⟩

/-- A clock shows second 60 in a leap second, and no later one. -/
theorem second_le (h : t.nanos < 2 * nanosPerSecond) : t.second ≤ 60 := by
  unfold second nanosPerSecond at *
  omega

/-- **The date and the clock are read back**, in front of a fraction and a `Z`. -/
theorem ofUtc?_dateClock (h : t.nanos < 2 * nanosPerSecond) {tail places : List Char}
    (htail : readPlaces tail = (places, ['Z'])) :
    Stamp.ofUtc? (t.dateClock ++ tail) = some (t.stamp places) := by
  have hreal : t.date.Real := Date.real_ofDays t.days
  have hhour : t.hour < 24 := by
    have := t.secondOfDay_lt
    unfold hour
    omega
  have hminute : t.minute < 60 := by
    unfold minute
    omega
  have hsecond := second_le h
  rw [dateClock_parts h]
  simp [Stamp.ofUtc?, readDate_append hreal, readMark_cons, readTwo_append (show t.hour < 100 by omega),
    readTwo_append (show t.minute < 100 by omega), readTwo_append (show t.second < 100 by omega), htail,
    hhour, hminute, hsecond, stamp]

section Shown

variable (h : t.nanos < 2 * nanosPerSecond) (hutc : t.offset = 0)
include h hutc

/-- RFC 3339 shows the digits of the fraction that are needed. -/
theorem ofUtc?_rfc3339 :
    Stamp.ofUtc? (t.rfc3339 true) = some (t.stamp (fractionDigits 9 (shownNanos t.nanos))) := by
  have hoffset : t.rfc3339Offset = ['Z'] := if_pos hutc
  rw [rfc3339, if_pos rfl, hoffset, List.append_assoc]
  apply ofUtc?_dateClock h
  show readPlaces (fraction 9 (shownNanos t.nanos) ++ ['Z']) = _
  rw [fraction_eq]
  split
  · rename_i hnil
    rw [hnil]
    rfl
  · exact digitRun_append (digits_fractionDigits _ _) (by simp [NoDigit])

/-- ISO 8601 shows three digits, and those of the second that the clock shows. -/
theorem ofUtc?_iso8601 :
    Stamp.ofUtc? t.iso8601 = some (t.stamp (Item.leadingPlaces 3 t.subsecond)) := by
  have hsame : t.inUtc = t := by
    rw [inUtc, ← hutc]
  have hdigits : Digits (Item.leadingPlaces 3 t.subsecond) :=
    (digits_zeroPadded 9 _).subset (List.take_subset _ _)
  rw [iso8601, hsame, List.append_assoc]
  apply ofUtc?_dateClock h
  exact digitRun_append hdigits (by simp [NoDigit])

end Shown

/-- Outside a leap second, three digits are the first three of the fraction. -/
theorem places_agree (h : t.nanos < nanosPerSecond) :
    Item.leadingPlaces 3 t.subsecond = threePlaces (fractionDigits 9 (shownNanos t.nanos)) := by
  have hshown : shownNanos t.nanos = t.nanos := min_eq_left (Nat.le_sub_one_of_lt h)
  rw [subsecond, Nat.mod_eq_of_lt h, hshown, threePlaces_fractionDigits h]

/-- In a leap second all places of the fraction are nines. -/
theorem places_of_leap (h : nanosPerSecond ≤ t.nanos) :
    fractionDigits 9 (shownNanos t.nanos) = List.replicate 9 '9' := by
  have hshown : shownNanos t.nanos = nanosPerSecond - 1 := min_eq_right ((Nat.sub_le _ _).trans h)
  rw [hshown]
  decide

theorem subsecond_of_leap (h : nanosPerSecond ≤ t.nanos) (hlt : t.nanos < 2 * nanosPerSecond) :
    t.subsecond = t.nanos - nanosPerSecond := by
  rw [subsecond, Nat.mod_eq_sub_mod h, Nat.mod_eq_of_lt (by omega)]

/-- The date and the clock count the seconds of the instant, and a leap second as one more. -/
theorem stamp_seconds (hutc : t.offset = 0) :
    t.date.number * 86400 + (t.hour * 3600 + t.minute * 60 + t.second : Nat) =
      t.secs + (t.nanos / nanosPerSecond : Nat) := by
  have hlocal := localSeconds_eq t
  unfold hour minute second
  omega

end Instant

/-- **ISO 8601 and RFC 3339 tell the same time in UTC**, except in leap seconds. Both show the date and
the clock of the instant. The three digits of the one are the first three of the fraction of the other,
exactly if the instant lies in no leap second or in the last millisecond of one: there the fraction is
nothing but nines, whereas the three digits are the milliseconds since second 60 began. -/
theorem iso8601_agrees_iff {t : Instant} (h : t.Valid) (hutc : t.offset = 0) :
    ∃ places three : List Char,
      Stamp.ofJson? (utf8 (Format.rfc3339Nano.render t)) = some (t.stamp places) ∧
      Stamp.ofJson? (utf8 (Format.iso8601.render t)) = some (t.stamp three) ∧
      t.date.number * 86400 + (t.hour * 3600 + t.minute * 60 + t.second : Nat) =
        t.secs + (t.nanos / nanosPerSecond : Nat) ∧
      three.length = 3 ∧ places.length ≤ 9 ∧
      (three = threePlaces places ↔ t.nanos < nanosPerSecond ∨ 1999000000 ≤ t.nanos) ∧
      (nanosPerSecond ≤ t.nanos → places = List.replicate 9 '9' ∧
        Nat.ofDigitChars 10 three 0 = (t.nanos - nanosPerSecond) / 1000000) := by
  have hnanos : t.nanos < 2 * nanosPerSecond := h.2.2.1
  have hsub : t.subsecond < nanosPerSecond := Nat.mod_lt _ (by decide)
  refine ⟨fractionDigits 9 (shownNanos t.nanos), Item.leadingPlaces 3 t.subsecond, ?_, ?_,
    Instant.stamp_seconds hutc, length_leadingPlaces_three hsub,
    length_fractionDigits_le (by decide) (shownNanos_lt _), ?_, ?_⟩
  · rw [Format.render, Stamp.ofJson?_quote, Instant.ofUtc?_rfc3339 hnanos hutc]
  · rw [Format.render, Stamp.ofJson?_quote, Instant.ofUtc?_iso8601 hnanos hutc]
  · by_cases hleap : t.nanos < nanosPerSecond
    · simp [Instant.places_agree hleap, hleap]
    · have hle := Nat.le_of_not_lt hleap
      have hnines : threePlaces (List.replicate 9 '9') = ['9', '9', '9'] := by decide
      rw [Instant.places_of_leap hle, hnines, leadingPlaces_eq_nines_iff hsub,
        Instant.subsecond_of_leap hle hnanos]
      unfold nanosPerSecond at *
      omega
  · intro hle
    refine ⟨Instant.places_of_leap hle, ?_⟩
    rw [leadingPlaces_three hsub, ofDigitChars_zeroPadded, Instant.subsecond_of_leap hle hnanos]

/-- The last second of the calendar before it is over. -/
theorem iso8601_agrees_last :
    let t : Instant := ⟨Instant.lastSecond, 1999000000, 0⟩
    t.Valid ∧ t.offset = 0 ∧
      Format.rfc3339Nano.render t = "\"+262142-12-31T23:59:60.999999999Z\"".toList ∧
      ∃ places three : List Char,
        Stamp.ofJson? (utf8 (Format.rfc3339Nano.render t)) = some (t.stamp places) ∧
        Stamp.ofJson? (utf8 (Format.iso8601.render t)) = some (t.stamp three) ∧
        three = threePlaces places := by
  intro t
  have h : t.Valid := by decide
  obtain ⟨places, three, hplaces, hthree, -, -, -, hiff, -⟩ := iso8601_agrees_iff h rfl
  exact ⟨h, rfl, by decide, places, three, hplaces, hthree, hiff.2 (.inr (by decide))⟩

/-- Half a second into a leap second, the two strings show different fractions of second 60. -/
theorem iso8601_disagrees :
    let t : Instant := ⟨59, 1500000000, 0⟩
    t.Valid ∧ t.offset = 0 ∧
      Format.rfc3339Nano.render t = "\"1970-01-01T00:00:60.999999999Z\"".toList ∧
      Format.iso8601.render t = "\"1970-01-01T00:00:60.500Z\"".toList ∧
      ∃ a b : Stamp, Stamp.ofJson? (utf8 (Format.rfc3339Nano.render t)) = some a ∧
        Stamp.ofJson? (utf8 (Format.iso8601.render t)) = some b ∧ b.places ≠ threePlaces a.places := by
  intro t
  refine ⟨by decide, rfl, by decide, by decide,
    ⟨⟨1970, 1, 1⟩, 0, 0, 60, List.replicate 9 '9'⟩, ⟨⟨1970, 1, 1⟩, 0, 0, 60, ['5', '0', '0']⟩, ?_, ?_,
    by decide⟩
  · rw [Format.render, Stamp.ofJson?_quote]
    decide
  · rw [Format.render, Stamp.ofJson?_quote]
    decide

end LineLog.Time
