import LineLog.Proofs.Field.Denotation
import LineLog.Proofs.Time.Components
/-!
# LineLog.Proofs.Time.Duration

The text of a duration is a code for its nanoseconds that loses nothing, and the only one of its kind.

Design points:

* What is written is first put down as a list of components (`parts`). One lemma says that the text is
  theirs (`text_eq`), one that they add up (`worth_parts`), and one that they are laid out as they should
  be (`laidOut_reading`).
* `Reading.LaidOut` says which units a number of nanoseconds calls for, and how far they are filled. That
  leaves one choice of components only (`Reading.LaidOut.unique`).
-/

namespace LineLog.Time.Duration

open Decimal Text Json

/-! ### What is written -/

/-- A number of units with a fraction of so many places. -/
def component (scale : Scale) (n : Nat) (places numerator : Nat := 0) : Component :=
  ⟨natural n, fractionDigits places numerator, scale⟩

theorem component_tidy (scale : Scale) (n places numerator : Nat) :
    (component scale n places numerator).Tidy where
  whole_digits := digits_natural n
  whole_ne_nil := natural_ne_nil n
  no_leading_zero h := by
    have hn : n = 0 := eq_zero_of_head?_natural h
    rw [component, hn, natural_zero]
  places_digits := digits_fractionDigits _ _
  no_trailing_zero := getLast?_fractionDigits _ _

theorem text_component (scale : Scale) (n places numerator : Nat) :
    (component scale n places numerator).text =
      natural n ++ fraction places numerator ++ scale.symbol := by
  rw [Component.text, component, fraction_eq]

theorem count_component (scale : Scale) (n places numerator : Nat) :
    (component scale n places numerator).count = n :=
  ofDigitChars_natural n

/-- A component is worth its digits, if those behind the point are as many as its unit has zeros. -/
theorem nanoseconds_component {scale : Scale} {places : Nat} (hscale : scale.nanoseconds = 10 ^ places)
    (n : Nat) {numerator : Nat} (h : numerator < 10 ^ places) :
    (component scale n places numerator).nanoseconds = ((n * 10 ^ places + numerator : Nat) : ℚ) := by
  have hplaces : placeValue (fractionDigits places numerator) = numerator / 10 ^ places := by
    by_cases hzero : places = 0
    · rw [hzero, Nat.pow_zero, Nat.lt_one_iff] at h
      simp [h, fractionDigits]
    · exact placeValue_fractionDigits (Nat.pos_of_ne_zero hzero) h
  rw [Component.nanoseconds, count_component, component, hplaces, hscale]
  push_cast
  field_simp

theorem nanoseconds_whole (scale : Scale) (n : Nat) :
    (component scale n).nanoseconds = ((n * scale.nanoseconds : Nat) : ℚ) := by
  rw [Component.nanoseconds, count_component]
  simp [component, fractionDigits]

/-- The component of less than a second. -/
def shortPart (total : Nat) : Component :=
  if total < 1000 then component .nanos total
  else if total < 1000000 then component .micros (total / 1000) 3 (total % 1000)
  else component .millis (total / 1000000) 6 (total % 1000000)

/-- A whole number of units where there is a call for it. -/
def wholeIf (p : Prop) [Decidable p] (scale : Scale) (n : Nat) : List Component :=
  if p then [component scale n] else []

section wholeIf

variable {p : Prop} [Decidable p] {scale : Scale} {n : Nat}

theorem eq_of_mem_wholeIf {c : Component} (h : c ∈ wholeIf p scale n) : c = component scale n := by
  unfold wholeIf at h
  split at h
  · exact List.mem_singleton.1 h
  · exact absurd h List.not_mem_nil

theorem text_wholeIf :
    (wholeIf p scale n).flatMap Component.text = if p then natural n ++ scale.symbol else [] := by
  unfold wholeIf
  split
  · rw [List.flatMap_singleton, text_component, fraction_zero, List.append_nil]
  · rfl

theorem worth_wholeIf : worth (wholeIf p scale n) =
    ((if p then n * scale.nanoseconds else 0 : Nat) : ℚ) := by
  unfold wholeIf
  split
  · rw [worth_cons, worth_nil, add_zero, nanoseconds_whole]
  · rfl

theorem scales_wholeIf : (wholeIf p scale n).map Component.scale = if p then [scale] else [] := by
  unfold wholeIf
  split
  · rfl
  · rfl

end wholeIf

/-- The components of a second or more. -/
def longParts (total : Nat) : List Component :=
  let secs := total / nanosPerSecond
  wholeIf (3600 ≤ secs) .hours (secs / 3600) ++ wholeIf (60 ≤ secs) .minutes (secs / 60 % 60) ++
  [component .seconds (secs % 60) 9 (total % nanosPerSecond)]

/-- The components of a duration. -/
def parts (total : Nat) : List Component :=
  if total = 0 then [component .seconds 0]
  else if total < nanosPerSecond then [shortPart total]
  else longParts total

/-- Less than a second is split at the thousand that it fills, into a number below a thousand and the
rest. -/
theorem shortPart_cases {total : Nat} (hpos : 0 < total) (hlt : total < nanosPerSecond) :
    ∃ scale places, scale ∈ [Scale.nanos, .micros, .millis] ∧ scale.nanoseconds = 10 ^ places ∧
      10 ^ places ≤ total ∧ total < 10 ^ places * 1000 ∧
      shortPart total = component scale (total / 10 ^ places) places (total % 10 ^ places) := by
  unfold nanosPerSecond at hlt
  unfold shortPart
  split
  · rename_i h
    exact ⟨.nanos, 0, by decide, rfl, hpos, h, by simp [Nat.mod_one]⟩
  · rename_i hle
    split
    · rename_i h
      exact ⟨.micros, 3, by decide, rfl, Nat.le_of_not_lt hle, h, rfl⟩
    · rename_i hle'
      exact ⟨.millis, 6, by decide, rfl, Nat.le_of_not_lt hle', hlt, rfl⟩

theorem text_shortPart (total : Nat) : (shortPart total).text = belowSecond total := by
  unfold shortPart belowSecond
  split
  · rw [text_component, fraction_zero, List.append_nil, Scale.symbol]
  · split
    · rw [text_component, Scale.symbol]
    · rw [text_component, Scale.symbol]

theorem text_longParts (total : Nat) : (longParts total).flatMap Component.text = fromSecond total := by
  unfold longParts fromSecond
  generalize total / nanosPerSecond = secs
  have hhours : 3600 ≤ secs ↔ 0 < secs / 3600 := by omega
  have hminutes : 60 ≤ secs ↔ 0 < secs / 3600 ∨ 0 < secs / 60 % 60 := by omega
  simp only [hhours, hminutes, List.flatMap_append, List.flatMap_singleton, text_wholeIf,
    text_component, Scale.symbol, List.append_assoc]

/-- What is written of a duration: its sign and its components. -/
def reading (n : Int) : Reading :=
  ⟨decide (n < 0), parts n.natAbs⟩

/-- **The text of a duration is that of its components**, behind its sign. -/
theorem text_eq (n : Int) : text n = (reading n).text := by
  have hmagnitude : n ≠ 0 → magnitude n.natAbs = (parts n.natAbs).flatMap Component.text := by
    intro hne
    rw [magnitude, parts, if_neg (Int.natAbs_ne_zero.2 hne)]
    split
    · rw [List.flatMap_singleton, text_shortPart]
    · rw [text_longParts]
  by_cases hzero : n = 0
  · rw [hzero]
    decide
  · simp only [text, if_neg hzero, hmagnitude hzero, reading, Reading.text, decide_eq_true_eq]
    split
    · rfl
    · rfl

/-- The seconds, minutes and hours add up to the seconds. -/
theorem worth_longParts (total : Nat) : worth (longParts total) = total := by
  have hlast : (component .seconds (total / nanosPerSecond % 60) 9 (total % nanosPerSecond)).nanoseconds =
      ((total / nanosPerSecond % 60 * 10 ^ 9 + total % nanosPerSecond : Nat) : ℚ) :=
    nanoseconds_component rfl _ (Nat.mod_lt _ (by decide))
  simp only [longParts, worth_append, worth_wholeIf, worth_cons, worth_nil, add_zero, hlast, ← Nat.cast_add,
    Nat.cast_inj, Scale.nanoseconds]
  unfold nanosPerSecond
  split
  · split
    · omega
    · omega
  · split
    · omega
    · omega

/-- **The components add up to the nanoseconds.** -/
theorem worth_parts (total : Nat) : worth (parts total) = total := by
  unfold parts
  split
  · rename_i hzero
    simp [hzero, nanoseconds_whole]
  · rename_i hne
    split
    · rename_i hlt
      obtain ⟨scale, places, -, hscale, -, -, hpart⟩ := shortPart_cases (Nat.pos_of_ne_zero hne) hlt
      have hrest : total % 10 ^ places < 10 ^ places := Nat.mod_lt _ (Nat.pow_pos (by decide))
      rw [worth_cons, worth_nil, add_zero, hpart, nanoseconds_component hscale _ hrest, Nat.div_add_mod']
    · exact worth_longParts total

/-! ### How it is laid out -/

theorem orderly_longParts (total : Nat) : Orderly (longParts total) := by
  refine .append ?_ (component_tidy _ _ _ _)
  intro c hc
  have hwhole : ∃ scale n, c = component scale n := by
    rcases List.mem_append.1 hc with hc | hc
    · exact ⟨_, _, eq_of_mem_wholeIf hc⟩
    · exact ⟨_, _, eq_of_mem_wholeIf hc⟩
  obtain ⟨scale, n, rfl⟩ := hwhole
  exact ⟨component_tidy scale n 0 0, by simp [component, fractionDigits]⟩

theorem orderly_parts (total : Nat) : Orderly (parts total) := by
  unfold parts
  split
  · exact component_tidy _ _ _ _
  · split
    · unfold shortPart
      split
      · exact component_tidy _ _ _ _
      · split
        · exact component_tidy _ _ _ _
        · exact component_tidy _ _ _ _
    · exact orderly_longParts total

/-- The units that a second or more reaches: hours and minutes if it is as long, and seconds. -/
def Scale.reached (total : Nat) : List Scale :=
  (if 3600 * nanosPerSecond ≤ total then [hours] else []) ++
  (if 60 * nanosPerSecond ≤ total then [minutes] else []) ++ [seconds]

/-- A duration is laid out as it should be: a minus sign for less than zero and for nothing else, digits in
order, `0s` for zero, one small unit below a second, and from a second on hours and minutes as far as the
duration reaches them, below 60 of a unit where there is a greater one. -/
structure Reading.LaidOut (r : Reading) (n : Int) : Prop where
  negative_iff : r.negative ↔ n < 0
  orderly : Orderly r.components
  zero : n = 0 → r.components = [⟨['0'], [], .seconds⟩]
  short : n ≠ 0 → n.natAbs < nanosPerSecond → ∃ c, r.components = [c] ∧
    c.scale ∈ [Scale.nanos, .micros, .millis] ∧ 1 ≤ c.count ∧ c.count ≤ 999
  scales : nanosPerSecond ≤ n.natAbs → r.components.map Component.scale = Scale.reached n.natAbs
  counts : nanosPerSecond ≤ n.natAbs → ∀ c ∈ r.components, c.scale ≠ .hours → c.count < 60

/-- The components of a second or more are in the units that it reaches. -/
theorem scales_longParts (total : Nat) :
    (longParts total).map Component.scale = Scale.reached total := by
  have hsecs : ∀ k, k * nanosPerSecond ≤ total ↔ k ≤ total / nanosPerSecond :=
    fun k => (Nat.le_div_iff_mul_le (by decide)).symm
  simp only [Scale.reached, hsecs, longParts, List.map_append, List.map_singleton, scales_wholeIf, component]

/-- Of a unit below hours there are fewer than 60. -/
theorem count_longParts (total : Nat) {c : Component} (hc : c ∈ longParts total)
    (hscale : c.scale ≠ .hours) : c.count < 60 := by
  rcases List.mem_append.1 hc with hc | hc
  · rcases List.mem_append.1 hc with hc | hc
    · rw [eq_of_mem_wholeIf hc] at hscale
      exact absurd rfl hscale
    · rw [eq_of_mem_wholeIf hc, count_component]
      exact Nat.mod_lt _ (by decide)
  · rw [List.mem_singleton.1 hc, count_component]
    exact Nat.mod_lt _ (by decide)

theorem parts_of_le {total : Nat} (h : nanosPerSecond ≤ total) : parts total = longParts total := by
  have hpos : total ≠ 0 := by
    rintro rfl
    exact absurd h (by decide)
  rw [parts, if_neg hpos, if_neg (Nat.not_lt.2 h)]

/-- **A duration is laid out as it should be.** -/
theorem laidOut_reading (n : Int) : (reading n).LaidOut n where
  negative_iff := decide_eq_true_iff
  orderly := orderly_parts _
  zero h := by
    rw [h]
    decide
  short hne hlt := by
    have hpos : 0 < n.natAbs := Int.natAbs_pos.2 hne
    obtain ⟨scale, places, hscale, -, hle, hlt', hpart⟩ := shortPart_cases hpos hlt
    refine ⟨shortPart n.natAbs, ?_, ?_, ?_, ?_⟩
    · show parts n.natAbs = _
      rw [parts, if_neg hpos.ne', if_pos hlt]
    · rwa [hpart]
    · rw [hpart, count_component]
      exact Nat.div_pos hle (Nat.pow_pos (by decide))
    · rw [hpart, count_component]
      exact Nat.le_of_lt_succ (Nat.div_lt_of_lt_mul hlt')
  scales h := by
    show (parts n.natAbs).map Component.scale = _
    rw [parts_of_le h, scales_longParts]
  counts h c hc := by
    have hparts : (reading n).components = longParts n.natAbs := parts_of_le h
    rw [hparts] at hc
    exact count_longParts _ hc

/-! ### Nothing else is laid out so -/

/-- The units below a second lie a thousand apart. -/
theorem small_scales_apart : ∀ a ∈ [Scale.nanos, .micros, .millis], ∀ b ∈ [Scale.nanos, .micros, .millis],
    a.nanoseconds < 1000 * b.nanoseconds → b.nanoseconds < 1000 * a.nanoseconds → a = b := by
  decide

namespace Reading.LaidOut

variable {r s : Reading} {n : Int}

theorem worth_eq (h : r.LaidOut n) (hworth : r.nanoseconds = n) :
    worth r.components = (n.natAbs : ℚ) := by
  rw [Reading.nanoseconds] at hworth
  rw [Nat.cast_natAbs]
  by_cases hn : n < 0
  · rw [if_pos (h.negative_iff.2 hn)] at hworth
    rw [abs_of_neg hn]
    push_cast
    linarith
  · have hpositive : ¬ r.negative := fun hnegative => hn (h.negative_iff.1 hnegative)
    rw [if_neg hpositive, one_mul] at hworth
    rw [abs_of_nonneg (Int.not_lt.1 hn), hworth]

/-- From a second on, no component fills the unit of the one before it. -/
theorem nested (h : r.LaidOut n) (hn : nanosPerSecond ≤ n.natAbs) : Nested r.components := by
  have hchain : (r.components.map Component.scale).IsChain fun a b =>
      a.nanoseconds = 60 * b.nanoseconds ∧ b ≠ .hours := by
    rw [h.scales hn, Scale.reached]
    split
    · rw [if_pos (by omega)]
      decide
    · split
      · decide
      · decide
  rw [List.isChain_map] at hchain
  refine hchain.imp_of_mem_imp fun c d _ hd hunit => ?_
  rw [hunit.1]
  exact Nat.mul_le_mul_right _ (h.counts hn d hd hunit.2)

/-- Below a second, the unit is filled, and less than a thousand times. -/
theorem single (h : r.LaidOut n) (hworth : r.nanoseconds = n) (hn : n ≠ 0)
    (hlt : n.natAbs < nanosPerSecond) :
    ∃ c, r.components = [c] ∧ c.scale ∈ [Scale.nanos, .micros, .millis] ∧
      c.scale.nanoseconds ≤ n.natAbs ∧ n.natAbs < 1000 * c.scale.nanoseconds := by
  obtain ⟨c, hc, hscale, hlow, hhigh⟩ := h.short hn hlt
  have horderly := h.orderly
  have hsum := h.worth_eq hworth
  rw [hc] at horderly hsum
  rw [worth_cons, worth_nil, add_zero] at hsum
  obtain ⟨hle, hlt'⟩ := c.nanoseconds_bounds horderly
  rw [hsum] at hle hlt'
  have hle : c.count * c.scale.nanoseconds ≤ n.natAbs := by exact_mod_cast hle
  have hlt' : n.natAbs < (c.count + 1) * c.scale.nanoseconds := by exact_mod_cast hlt'
  refine ⟨c, hc, hscale, ?_, ?_⟩
  · exact (Nat.le_mul_of_pos_left _ hlow).trans hle
  · exact hlt'.trans_le (Nat.mul_le_mul_right _ (Nat.succ_le_succ hhigh))

/-- **There is one way to be laid out.** What is laid out as it should be for a number of nanoseconds, and
is worth that number, is the same. -/
theorem unique (hr : r.LaidOut n) (hs : s.LaidOut n) (hrn : r.nanoseconds = n) (hsn : s.nanoseconds = n) :
    r = s := by
  have hnegative : r.negative = s.negative :=
    Bool.eq_iff_iff.2 (hr.negative_iff.trans hs.negative_iff.symm)
  have hsum := (hr.worth_eq hrn).trans (hs.worth_eq hsn).symm
  have hcomponents : r.components = s.components := by
    by_cases hzero : n = 0
    · rw [hr.zero hzero, hs.zero hzero]
    · by_cases hlt : n.natAbs < nanosPerSecond
      · obtain ⟨c, hc, hscale, hle, hgt⟩ := hr.single hrn hzero hlt
        obtain ⟨d, hd, hscale', hle', hgt'⟩ := hs.single hsn hzero hlt
        have hunits : c.scale = d.scale :=
          small_scales_apart c.scale hscale d.scale hscale' (hle.trans_lt hgt') (hle'.trans_lt hgt)
        have hcs := hr.orderly
        have hds := hs.orderly
        rw [hc] at hcs hsum ⊢
        rw [hd] at hds hsum ⊢
        exact eq_of_worth hcs hds (.singleton c) (.singleton d) (congrArg (fun a => [a]) hunits) hsum
      · have hle := Nat.le_of_not_lt hlt
        exact eq_of_worth hr.orderly hs.orderly (hr.nested hle) (hs.nested hle)
          ((hr.scales hle).trans (hs.scales hle).symm) hsum
  cases r
  cases s
  exact congr (congrArg Reading.mk hnegative) hcomponents

end Reading.LaidOut

/-! ### The whole text -/

/-- The nanoseconds of a duration in a JSON string. -/
def ofJson? (bytes : Bytes) : Option ℚ :=
  match parseBytes bytes with
  | .ok (.string cs) => (read? cs).map Reading.nanoseconds
  | _ => none

/-- **A duration is read back** as its sign and its components. -/
theorem read?_text (n : Int) : read? (text n) = some (reading n) := by
  rw [text_eq]
  exact read?_reading (orderly_parts n.natAbs)

/-- What is read is worth the nanoseconds. -/
theorem nanoseconds_reading (n : Int) : (reading n).nanoseconds = n := by
  rw [Reading.nanoseconds, reading, worth_parts, Nat.cast_natAbs]
  by_cases h : n < 0
  · simp [h, abs_of_neg h]
  · simp [h, abs_of_nonneg (Int.not_lt.1 h)]

/-- **No other text is laid out so.** -/
theorem eq_text {cs : List Char} {r : Reading} {n : Int} (h : read? cs = some r)
    (hworth : r.nanoseconds = n) (hlaid : r.LaidOut n) : cs = text n := by
  rw [eq_of_read? h, text_eq, hlaid.unique (laidOut_reading n) hworth (nanoseconds_reading n)]

/-- Two durations of one text are one. -/
theorem text_injective : Function.Injective text := by
  intro m n h
  have hread := read?_text m
  rw [h, read?_text n] at hread
  have hworth := congrArg Reading.nanoseconds (Option.some.inj hread)
  rw [nanoseconds_reading, nanoseconds_reading, Int.cast_inj] at hworth
  exact hworth.symm

/-- The text starts with a minus sign for less than zero and for nothing else. -/
theorem head?_text (n : Int) : (text n).head? = some '-' ↔ n < 0 := by
  rw [text_eq, Reading.text, reading]
  by_cases h : n < 0
  · simp [h]
  · obtain ⟨d, rest, htext, hd⟩ := (orderly_parts n.natAbs).text_cons
    have hne : d ≠ '-' := ne_of_isDigit hd (by decide)
    simp [h, htext, hne]

/-- A longer duration is held at the end of the range. -/
theorem toInt_clamp (n : Int) :
    (clamp n).toInt = max Int64.minValue.toInt (min n Int64.maxValue.toInt) := by
  unfold clamp
  rw [Int64.toInt_minValue, Int64.toInt_maxValue]
  split
  · rw [Int64.toInt_minValue]
    omega
  · split
    · rw [Int64.toInt_maxValue]
      omega
    · rw [Int64.toInt_ofInt_of_le (by omega) (by omega)]
      omega

theorem ofJson?_durationQuoted (n : Int64) : ofJson? (utf8 (durationQuoted n)) = some (n.toInt : ℚ) := by
  simp only [ofJson?, durationQuoted, (Compact.quote _).parseBytes, read?_text, Option.map_some,
    nanoseconds_reading]

/-- **The text of a duration loses nothing.** It is read back as just the nanoseconds that it was written
for, and is laid out as it should be; no other text is laid out so and worth as much. It starts with a
minus sign for less than zero only, and no other number of nanoseconds has the same text. A field holds
the text of a duration that fits into 64 bits, and of any other the text of the end of the range that is
nearer. -/
theorem text_lossless (n : Int64) :
    (∃ r, read? (text n.toInt) = some r ∧ r.nanoseconds = n.toInt ∧ r.LaidOut n.toInt) ∧
    (∀ cs r, read? cs = some r → r.nanoseconds = n.toInt → r.LaidOut n.toInt → cs = text n.toInt) ∧
    ((text n.toInt).head? = some '-' ↔ n.toInt < 0) ∧
    (∀ m : Int64, text m.toInt = text n.toInt → m = n) ∧
    ∀ (key : String) (value : Int) (fallback : Format) (dst : Bytes), ∃ written,
      (Field.durationText key value).value.appendTo fallback dst = dst ++ written ∧
      (Field.durationTextOpt key (some value)).value.appendTo fallback dst = dst ++ written ∧
      ofJson? written = some ((max Int64.minValue.toInt (min value Int64.maxValue.toInt) : Int) : ℚ) := by
  refine ⟨⟨_, read?_text _, nanoseconds_reading _, laidOut_reading _⟩, ?_, head?_text _, ?_, ?_⟩
  · exact fun cs r hread hworth hlaid => eq_text hread hworth hlaid
  · exact fun m h => Int64.toInt_inj.1 (text_injective h)
  · intro key value fallback dst
    refine ⟨utf8 (durationQuoted (clamp value)), rfl, rfl, ?_⟩
    rw [ofJson?_durationQuoted, toInt_clamp]

/-- The longest duration before zero has one nanosecond more than the longest one after it. -/
theorem text_lossless_least :
    text Int64.minValue.toInt = "-2562047h47m16.854775808s".toList ∧
      (∃ r, read? (text Int64.minValue.toInt) = some r ∧ r.nanoseconds = Int64.minValue.toInt) ∧
      Int64.ofInt (-2 ^ 63) = Int64.minValue := by
  obtain ⟨⟨r, hread, hworth, hlaid⟩, honly, -, hinj, -⟩ := text_lossless Int64.minValue
  have hread' : read? "-2562047h47m16.854775808s".toList = some r := by
    rw [← hread]
    decide
  exact ⟨(honly _ r hread' hworth hlaid).symm, ⟨r, hread, hworth⟩, hinj _ (by decide)⟩

end LineLog.Time.Duration
