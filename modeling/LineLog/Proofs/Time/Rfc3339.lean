import LineLog.Proofs.Field.Denotation
import LineLog.Proofs.Time.Calendar
/-!
# LineLog.Proofs.Time.Rfc3339

RFC 3339 text shows an instant and its offset without loss.

`Instant.ofRfc3339?` is a reader of such text. It takes one part after the other off the front, and
every part is read back in front of whatever may follow it: years of any length with their sign
(`readYear_append`), numbers of two digits (`readTwo_append`), fractions (`readFraction_append`) and
offsets (`readOffset_append`). What the date and the clock come to is the local time, and the offset
leads back from there (`Instant.localSeconds_eq`).

Design points:

* The reader takes real dates and clocks only. It counts the days up to a date the plain way
  (`Date.number`), and knows nothing of how dates are found.
* The digits of a fraction stand for nanoseconds once the zeros are put back that were dropped, so the
  number of digits is part of what they say.
* A leap second and the seconds of an offset are not shown, so they are excluded.
-/

namespace LineLog.Time

open Decimal Text Json

/-! ### Reading -/

/-- Takes the given character off the front of a text. -/
def readMark (mark : Char) : List Char → Option (List Char)
  | [] => none
  | c :: cs => if c = mark then some cs else none

/-- Reads a number of two digits. -/
def readTwo : List Char → Option (Nat × List Char)
  | a :: b :: cs => if a.isDigit ∧ b.isDigit then some (Nat.ofDigitChars 10 [a, b] 0, cs) else none
  | _ => none

/-- Reads a number of four digits or more. -/
def readLong (cs : List Char) : Option (Nat × List Char) :=
  let (ds, rest) := digitRun cs
  if 4 ≤ ds.length then some (Nat.ofDigitChars 10 ds 0, rest) else none

/-- Reads a year. One outside 0 to 9999 has a sign. -/
def readYear : List Char → Option (Int × List Char)
  | '-' :: cs => (readLong cs).bind fun (n, rest) => if n = 0 then none else some (-n, rest)
  | '+' :: cs => (readLong cs).bind fun (n, rest) => if n ≤ 9999 then none else some (n, rest)
  | cs => (readLong cs).bind fun (n, rest) => if n ≤ 9999 then some (n, rest) else none

/-- Reads a date of the calendar. -/
def readDate (cs : List Char) : Option (Date × List Char) := do
  let (year, cs) ← readYear cs
  let cs ← readMark '-' cs
  let (month, cs) ← readTwo cs
  let cs ← readMark '-' cs
  let (day, cs) ← readTwo cs
  if (Date.mk year month day).Real then some (⟨year, month, day⟩, cs) else none

/-- Reads hours and minutes as seconds. -/
def readHourMinute (cs : List Char) : Option (Nat × List Char) := do
  let (hour, cs) ← readTwo cs
  let cs ← readMark ':' cs
  let (minute, cs) ← readTwo cs
  if hour < 24 ∧ minute < 60 then some (hour * 3600 + minute * 60, cs) else none

/-- Reads a clock as the seconds since midnight. -/
def readClock (cs : List Char) : Option (Nat × List Char) := do
  let (minutes, cs) ← readHourMinute cs
  let cs ← readMark ':' cs
  let (second, cs) ← readTwo cs
  if second < 60 then some (minutes + second, cs) else none

/-- Reads a fraction of one to nine digits as nanoseconds. There may be none. -/
def readFraction : List Char → Option (Nat × List Char)
  | '.' :: cs =>
    let (ds, rest) := digitRun cs
    if ds ≠ [] ∧ ds.length ≤ 9 then some (Nat.ofDigitChars 10 ds 0 * 10 ^ (9 - ds.length), rest)
    else none
  | cs => some (0, cs)

/-- Reads an offset: `Z`, or a sign with hours and minutes. -/
def readOffset : List Char → Option (Int × List Char)
  | 'Z' :: cs => some (0, cs)
  | '+' :: cs => (readHourMinute cs).map fun (n, rest) => (n, rest)
  | '-' :: cs => (readHourMinute cs).map fun (n, rest) => (-n, rest)
  | _ => none

namespace Instant

/-- The instant that an RFC 3339 text shows, and its offset. -/
def ofRfc3339? (cs : List Char) : Option Instant := do
  let (date, cs) ← readDate cs
  let cs ← readMark 'T' cs
  let (clock, cs) ← readClock cs
  let (nanos, cs) ← readFraction cs
  let (offset, cs) ← readOffset cs
  if cs = [] then some ⟨date.number * 86400 + clock - offset, nanos, offset⟩ else none

/-- The instant that a JSON string shows. -/
def ofJson? (bytes : Bytes) : Option Instant :=
  match parseBytes bytes with
  | .ok (.string cs) => ofRfc3339? cs
  | _ => none

end Instant

/-! ### Numbers -/

theorem readMark_cons (mark : Char) (cs : List Char) : readMark mark (mark :: cs) = some cs :=
  if_pos rfl

/-- Below 100, two places are two digits. -/
theorem twoPlaces_eq : ∀ n < 100, twoPlaces .zero n = twoDigits n := by decide

theorem readTwo_append {n : Nat} (h : n < 100) (rest : List Char) :
    readTwo (twoDigits n ++ rest) = some (n, rest) := by
  have hlength : (twoDigits n).length = 2 := length_zeroPadded (by decide) h
  have hdigits : Digits (twoDigits n) := digits_zeroPadded 2 n
  have hvalue : Nat.ofDigitChars 10 (twoDigits n) 0 = n := ofDigitChars_zeroPadded 2 n
  generalize twoDigits n = ds at *
  match ds, hlength with
  | [a, b], _ =>
      simp only [digits_cons, digits_nil, and_true] at hdigits
      show readTwo (a :: b :: rest) = _
      rw [readTwo, if_pos hdigits, hvalue]

theorem readLong_append (n : Nat) {rest : List Char} (hrest : NoDigit rest) :
    readLong (zeroPadded 4 n ++ rest) = some (n, rest) := by
  have hlength : 4 ≤ (zeroPadded 4 n).length := by
    rw [zeroPadded, length_padLeft]
    exact le_max_left _ _
  simp [readLong, digitRun_append (digits_zeroPadded 4 n) hrest, hlength]

/-! ### Dates -/

/-- The sign of a year is shown if it is outside 0 to 9999. -/
theorem paddedYear_eq (year : Int) :
    paddedYear .zero year =
      (if year < 0 then ['-'] else if 9999 < year then ['+'] else []) ++ zeroPadded 4 year.natAbs := by
  by_cases hneg : year < 0
  · simp [paddedYear, padded, hneg, zeroPadded]
  · by_cases hbig : 9999 < year
    · simp [paddedYear, padded, hneg, hbig, zeroPadded]
    · simp [paddedYear, padded, hneg, hbig, zeroPadded]

/-- A text that starts with a digit is read as a year without a sign. -/
theorem readYear_of_digit {c : Char} (hc : c.isDigit) (cs : List Char) :
    readYear (c :: cs) = (readLong (c :: cs)).bind fun (n, rest) =>
      if n ≤ 9999 then some ((n : Int), rest) else none := by
  unfold readYear
  split
  · rename_i heq
    obtain ⟨rfl, -⟩ := List.cons.inj heq
    exact absurd hc (by decide)
  · rename_i heq
    obtain ⟨rfl, -⟩ := List.cons.inj heq
    exact absurd hc (by decide)
  · rfl

/-- **Every year is read back**, whatever its sign and its length. -/
theorem readYear_append (year : Int) {rest : List Char} (hrest : NoDigit rest) :
    readYear (paddedYear .zero year ++ rest) = some (year, rest) := by
  have hread := readLong_append year.natAbs hrest
  rw [paddedYear_eq]
  by_cases hneg : year < 0
  · have hne : year.natAbs ≠ 0 := by omega
    have habs : -|year| = year := by rw [abs_of_neg hneg, neg_neg]
    simp [readYear, hneg, hread, hne, habs]
  · have habs : (year.natAbs : Int) = year := by omega
    by_cases hbig : 9999 < year
    · have hlt : ¬ year.natAbs ≤ 9999 := by omega
      simp [readYear, hneg, hbig, hread, hlt, habs]
    · have hle : year.natAbs ≤ 9999 := by omega
      have hdigits := digits_zeroPadded 4 year.natAbs
      simp only [if_neg hneg, if_neg hbig, List.nil_append]
      -- Without a sign, the reader must see a digit before it knows that there is none.
      cases hds : zeroPadded 4 year.natAbs with
      | nil => simp [zeroPadded, padLeft, natural_ne_nil] at hds
      | cons d ds =>
          rw [hds] at hdigits hread
          rw [List.cons_append, readYear_of_digit (digits_cons.1 hdigits).1, ← List.cons_append, hread]
          simp [hle, habs]

/-- The month and the day of a real date have two places. -/
theorem Date.Real.two_places {d : Date} (h : d.Real) : d.month < 100 ∧ d.day < 100 := by
  have hmonth := h.month_le
  have hday := h.day_le.trans (monthLength_le _ _)
  omega

/-- **Every date of the calendar is read back.** -/
theorem readDate_append {d : Date} (h : d.Real) {rest : List Char} :
    readDate (paddedYear .zero d.year ++ '-' :: (twoDigits d.month ++ '-' ::
      (twoDigits d.day ++ rest))) = some (d, rest) := by
  obtain ⟨hmonth, hday⟩ := h.two_places
  have hmark : NoDigit ('-' :: (twoDigits d.month ++ '-' :: (twoDigits d.day ++ rest))) := by
    simp [NoDigit]
  simp [readDate, readYear_append _ hmark, readMark_cons, readTwo_append hmonth, readTwo_append hday, h]

/-! ### Clocks and fractions -/

theorem readHourMinute_append {hour minute : Nat} (hhour : hour < 24) (hminute : minute < 60)
    (rest : List Char) :
    readHourMinute (twoDigits hour ++ ':' :: (twoDigits minute ++ rest)) =
      some (hour * 3600 + minute * 60, rest) := by
  have hhour' : hour < 100 := by omega
  have hminute' : minute < 100 := by omega
  simp [readHourMinute, readTwo_append hhour', readMark_cons, readTwo_append hminute', hhour, hminute]

/-- **Every second of a day is read back.** -/
theorem readClock_append {second : Nat} (h : second < 86400) (rest : List Char) :
    readClock (twoDigits (second / 3600) ++ ':' :: (twoDigits (second / 60 % 60) ++
      ':' :: (twoDigits (second % 60) ++ rest))) = some (second, rest) := by
  have hsecond : second % 60 < 60 := by omega
  have hsecond' : second % 60 < 100 := by omega
  have htotal : second / 3600 * 3600 + second / 60 % 60 * 60 + second % 60 = second := by omega
  have hread := readHourMinute_append (show second / 3600 < 24 by omega)
    (show second / 60 % 60 < 60 by omega)
  simp [readClock, hread, readMark_cons, readTwo_append hsecond', hsecond, htotal]

/-- A fraction of a second as it should be shown: not at all if it is zero, and else by one to nine
digits, of which the last is no zero. -/
def ShowsFraction (nanos : Nat) (cs : List Char) : Prop :=
  if nanos = 0 then cs = []
  else ∃ ds, cs = '.' :: ds ∧ Digits ds ∧ 1 ≤ ds.length ∧ ds.length ≤ 9 ∧ ds.getLast? ≠ some '0'

section Fraction

variable {nanos : Nat} (h : nanos < nanosPerSecond)
include h

theorem showsFraction : ShowsFraction nanos (fraction 9 nanos) := by
  unfold ShowsFraction
  split
  · rename_i hzero
    rw [hzero, fraction_zero]
  · rename_i hne
    have hsome : fractionDigits 9 nanos ≠ [] := fractionDigits_ne_nil hne
    refine ⟨fractionDigits 9 nanos, ?_, digits_fractionDigits 9 nanos, List.length_pos_iff.2 hsome,
      length_fractionDigits_le (by decide) h, getLast?_fractionDigits 9 nanos⟩
    rw [fraction_eq, if_neg hsome]

/-- Putting the zeros back that were dropped gives the nanoseconds. -/
theorem ofDigitChars_fractionDigits :
    Nat.ofDigitChars 10 (fractionDigits 9 nanos) 0 * 10 ^ (9 - (fractionDigits 9 nanos).length) =
      nanos := by
  by_cases hzero : nanos = 0
  · simp [hzero, fractionDigits]
  · have hplaces : nanos < 10 ^ 9 := h
    obtain ⟨k, hk, hlength⟩ := fractionDigits_append (by decide) hplaces hzero
    rw [← Nat.eq_sub_of_add_eq' hlength, ← ofDigitChars_append_zero, hk, ofDigitChars_zeroPadded]

/-- **Every fraction is read back**, in front of anything that does not look like more of it. -/
theorem readFraction_append {rest : List Char} (hrest : NoDigit rest) (hpoint : rest.head? ≠ some '.') :
    readFraction (fraction 9 nanos ++ rest) = some (nanos, rest) := by
  rw [fraction_eq]
  split
  · rename_i hnil
    have hzero := ofDigitChars_fractionDigits h
    rw [hnil] at hzero
    obtain rfl : 0 = nanos := by simpa using hzero
    rw [List.nil_append]
    unfold readFraction
    split
    · exact absurd rfl hpoint
    · rfl
  · rename_i hne
    have hrun := digitRun_append (digits_fractionDigits 9 nanos) hrest
    have hlength : (fractionDigits 9 nanos).length ≤ 9 := length_fractionDigits_le (by decide) h
    simp [readFraction, hrun, hne, hlength, ofDigitChars_fractionDigits h]

end Fraction

/-! ### Instants -/

namespace Instant

/-- RFC 3339 text can show the instant: it is valid and no leap second, and has an offset of whole
minutes. -/
def Expressible (t : Instant) : Prop :=
  t.Valid ∧ t.nanos < nanosPerSecond ∧ t.offset % 60 = 0

instance (t : Instant) : Decidable t.Expressible :=
  inferInstanceAs (Decidable (_ ∧ _))

variable {t : Instant}

/-- **The local date and clock lead back to the instant.** -/
theorem localSeconds_eq (t : Instant) : t.date.number * 86400 + t.secondOfDay - t.offset = t.secs := by
  rw [date, Date.number_ofDays]
  unfold secondOfDay days localSeconds
  omega

theorem secondOfDay_lt (t : Instant) : t.secondOfDay < 86400 := by
  unfold secondOfDay
  omega

/-- The date and the clock are written part by part. -/
theorem dateClock_parts (h : t.nanos < 2 * nanosPerSecond) :
    t.dateClock =
      paddedYear .zero t.date.year ++ '-' :: (twoDigits t.date.month ++ '-' :: (twoDigits t.date.day ++
        'T' :: (twoDigits t.hour ++ ':' :: (twoDigits t.minute ++ ':' :: twoDigits t.second)))) := by
  have hreal : t.date.Real := Date.real_ofDays t.days
  obtain ⟨hmonth, hday⟩ := hreal.two_places
  have hhour : t.hour < 100 := by
    have := t.secondOfDay_lt
    unfold hour
    omega
  have hminute : t.minute < 100 := by
    unfold minute
    omega
  have hsecond : t.second < 100 := by
    unfold second nanosPerSecond at *
    omega
  simp [dateClock, renderItems, Layout.dashDate, Layout.clock, Layout.joined, Item.render,
    Number.render, twoPlaces_eq _ hmonth, twoPlaces_eq _ hday, twoPlaces_eq _ hhour,
    twoPlaces_eq _ hminute, twoPlaces_eq _ hsecond]

/-- Only a leap second is shown as another one. -/
theorem second_eq (h : t.nanos < nanosPerSecond) : t.second = t.secondOfDay % 60 := by
  rw [second, Nat.div_eq_of_lt h, Nat.add_zero]

/-- The date and the clock are written from the seconds of the day. -/
theorem dateClock_eq (h : t.nanos < nanosPerSecond) :
    t.dateClock =
      paddedYear .zero t.date.year ++ '-' :: (twoDigits t.date.month ++ '-' :: (twoDigits t.date.day ++
        'T' :: (twoDigits (t.secondOfDay / 3600) ++ ':' :: (twoDigits (t.secondOfDay / 60 % 60) ++
          ':' :: twoDigits (t.secondOfDay % 60))))) := by
  rw [dateClock_parts (by omega), second_eq h, hour, minute]

/-- **Every offset of whole minutes is read back.** -/
theorem readOffset_append (h : t.Expressible) (rest : List Char) :
    readOffset (t.rfc3339Offset ++ rest) = some (t.offset, rest) := by
  obtain ⟨⟨-, -, -, -, hlow, hhigh⟩, -, hminutes⟩ := h
  by_cases hzero : t.offset = 0
  · simp [rfc3339Offset, readOffset, hzero]
  · have htotal : t.offset.natAbs / 60 / 60 * 3600 + t.offset.natAbs / 60 % 60 * 60 =
        t.offset.natAbs := by omega
    have hread := readHourMinute_append (show t.offset.natAbs / 60 / 60 < 24 by omega)
      (show t.offset.natAbs / 60 % 60 < 60 by omega) rest
    rw [htotal] at hread
    by_cases hneg : t.offset < 0
    · have habs : -|t.offset| = t.offset := by rw [abs_of_neg hneg, neg_neg]
      simp [rfc3339Offset, readOffset, offsetSign, hzero, hneg, hread, habs]
    · have habs : |t.offset| = t.offset := abs_of_nonneg (not_lt.1 hneg)
      simp [rfc3339Offset, readOffset, offsetSign, hzero, hneg, hread, habs]

/-- An offset starts with a letter or a sign. -/
theorem head?_rfc3339Offset (t : Instant) :
    ∃ c, (c = 'Z' ∨ c = '-' ∨ c = '+') ∧ t.rfc3339Offset.head? = some c := by
  unfold rfc3339Offset offsetSign
  split
  · exact ⟨'Z', .inl rfl, rfl⟩
  · split
    · exact ⟨'-', .inr (.inl rfl), rfl⟩
    · exact ⟨'+', .inr (.inr rfl), rfl⟩

/-- The text with its fraction is the text without, and the fraction before the offset. -/
theorem rfc3339_eq (h : t.nanos < nanosPerSecond) (shown : Bool) :
    t.rfc3339 shown = t.dateClock ++ fraction 9 (if shown then t.nanos else 0) ++ t.rfc3339Offset := by
  have hmin : min t.nanos (nanosPerSecond - 1) = t.nanos := min_eq_left (Nat.le_sub_one_of_lt h)
  cases shown with
  | false => rfl
  | true => simp only [rfc3339, hmin, if_true]

/-- **The text of an instant is read back**, without its nanoseconds if they are not shown. -/
theorem ofRfc3339?_rfc3339 (h : t.Expressible) (shown : Bool) :
    ofRfc3339? (t.rfc3339 shown) = some { t with nanos := if shown then t.nanos else 0 } := by
  have hnanos : (if shown then t.nanos else 0) < nanosPerSecond := by
    have := h.2.1
    split <;> omega
  -- What stands behind the fraction cannot be taken for more of it, nor for a fraction if there is none.
  obtain ⟨c, hc, hhead⟩ := t.head?_rfc3339Offset
  have hdigit : NoDigit t.rfc3339Offset := by
    intro d hd
    obtain rfl : c = d := by simpa [hhead] using hd
    rcases hc with rfl | rfl | rfl <;> decide
  have hpoint : t.rfc3339Offset.head? ≠ some '.' := by
    rw [hhead]
    rcases hc with rfl | rfl | rfl <;> decide
  have hoffset := readOffset_append h []
  rw [List.append_nil] at hoffset
  have hreal : t.date.Real := Date.real_ofDays t.days
  rw [rfc3339_eq h.2.1, dateClock_eq h.2.1]
  simp [ofRfc3339?, readDate_append hreal, readMark_cons, readClock_append t.secondOfDay_lt,
    readFraction_append hnanos hdigit hpoint, hoffset, localSeconds_eq]

theorem ofJson?_quote (cs : List Char) : ofJson? (utf8 (quote cs)) = ofRfc3339? cs := by
  simp only [ofJson?, (Compact.quote cs).parseBytes]

/-- A `Z` stands in the text exactly if there is no offset. -/
theorem letter_mem_rfc3339_iff (h : t.nanos < nanosPerSecond) (shown : Bool) :
    'Z' ∈ t.rfc3339 shown ↔ t.offset = 0 := by
  have hdigits : ∀ {ds : List Char}, Digits ds → 'Z' ∉ ds := fun hds hmem =>
    absurd (hds _ hmem) (by decide)
  have htwo : ∀ n, 'Z' ∉ twoDigits n := fun n => hdigits (digits_zeroPadded 2 n)
  have hyear : 'Z' ∉ paddedYear .zero t.date.year := by
    rw [paddedYear_eq, List.mem_append, not_or]
    refine ⟨?_, hdigits (digits_zeroPadded 4 _)⟩
    split
    · decide
    · split <;> decide
  have hfraction : ∀ n, 'Z' ∉ fraction 9 n := by
    intro n
    rw [fraction_eq]
    split
    · simp
    · simp [hdigits (digits_fractionDigits 9 n)]
  have hoffset : 'Z' ∈ t.rfc3339Offset ↔ t.offset = 0 := by
    unfold rfc3339Offset offsetSign
    split
    · simp_all
    · split <;> simp_all
  simp [rfc3339_eq h, dateClock_eq h, hyear, htwo, hfraction, hoffset]

end Instant

/-- **RFC 3339 loses nothing.** What is written for an instant is read back as the instant and its
offset, also behind whatever a destination holds; without nanoseconds, all but them is read back. A
fraction is shown as it should be, the text without it is otherwise the same, and `Z` stands for no
offset and nothing else. So no two instants are written alike, nor is one at two offsets. -/
theorem rfc3339_lossless {t : Instant} (h : t.Expressible) :
    Instant.ofJson? (utf8 (Format.rfc3339Nano.render t)) = some t ∧
    Instant.ofJson? (utf8 (Format.rfc3339.render t)) = some { t with nanos := 0 } ∧
    (∀ (fallback : Format) (format : Option Format) (dst : Bytes),
      format.getD fallback = .rfc3339Nano →
        Instant.ofJson? (((FieldValue.time t format).appendTo fallback dst).drop dst.length) = some t) ∧
    (∃ fraction, ShowsFraction t.nanos fraction ∧
      Format.rfc3339Nano.render t = quote (t.dateClock ++ fraction ++ t.rfc3339Offset) ∧
      Format.rfc3339.render t = quote (t.dateClock ++ t.rfc3339Offset)) ∧
    (∀ shown, 'Z' ∈ t.rfc3339 shown ↔ t.offset = 0) ∧
    ∀ u : Instant, u.Expressible →
      Format.rfc3339Nano.render u = Format.rfc3339Nano.render t → u = t := by
  have hread : ∀ u : Instant, u.Expressible →
      Instant.ofJson? (utf8 (Format.rfc3339Nano.render u)) = some u := by
    intro u hu
    rw [Format.render, Instant.ofJson?_quote, Instant.ofRfc3339?_rfc3339 hu]
    rfl
  refine ⟨hread t h, ?_, ?_, ?_, Instant.letter_mem_rfc3339_iff h.2.1, ?_⟩
  · rw [Format.render, Instant.ofJson?_quote, Instant.ofRfc3339?_rfc3339 h]
    rfl
  · intro fallback format dst hformat
    rw [FieldValue.appendTo, List.drop_left, FieldValue.render, timeText, if_pos h.1, hformat]
    exact hread t h
  · refine ⟨fraction 9 t.nanos, showsFraction h.2.1, ?_, ?_⟩
    · rw [Format.render, Instant.rfc3339_eq h.2.1]
      rfl
    · rw [Format.render, Instant.rfc3339_eq h.2.1]
      simp
  · intro u hu heq
    have hsame := hread u hu
    rw [heq, hread t h] at hsame
    exact (Option.some.inj hsame).symm

/-- The first second of the calendar, almost a day west of Greenwich: the local year is one before the
first. -/
theorem rfc3339_lossless_first :
    let t : Instant := ⟨Instant.firstSecond, 120000000, -86340⟩
    t.Expressible ∧
      Format.rfc3339Nano.render t = "\"-262144-12-31T00:01:00.12-23:59\"".toList ∧
      Instant.ofJson? (utf8 (Format.rfc3339Nano.render t)) = some t := by
  intro t
  have h : t.Expressible := by decide
  exact ⟨h, by decide, (rfc3339_lossless h).1⟩

end LineLog.Time
