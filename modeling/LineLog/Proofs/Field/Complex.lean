import LineLog.Proofs.Field.Floating
import LineLog.Proofs.Field.Pieces
/-!
# LineLog.Proofs.Field.Complex

Complex numbers in fields: the sign between their parts, and how the parts are read back.

The imaginary part is announced as one sign and an unsigned text. A plus sign is written before a part that
is not below zero, and the text of the part brings the other signs. That comes to the same but for two kinds
of numbers (`ComplexText.Unannounced`): not a number has no sign of its own and gets none, and a negative
zero is not below zero and has one of its own, so that it gets a second one.

Design points:

* Text is split into the sign that a number brings and an unsigned rest (`FloatWidth.text_eq`), and what
  stands between the parts is computed from the imaginary part alone (`ComplexText.joint`).
* The parts can be told apart in all cases, also in those two. The first part ends where the first sign or
  capital letter comes behind its first character, not a number apart (`ComplexText.firstPart`).
-/

namespace LineLog

open Decimal Text Json

/-! ### Signs -/

/-- Less than zero. Not a number and a negative zero are not. -/
def Decimal.Binary.belowZero : Binary → Bool
  | .nan => false
  | .infinite negative => negative
  | .finite x => x.negative && x.mantissa != 0

namespace ComplexText

/-- The sign that is announced for an imaginary part. -/
def announcedSign (im : Float) : Char :=
  if (Binary.ofFloat im).belowZero then '-' else '+'

/-- The sign that the text of a number brings. -/
def ownSign (x : Float) : List Char :=
  match Binary.ofFloat x with
  | .nan => []
  | .infinite negative => if negative then ['-'] else ['+']
  | .finite x => if x.negative then ['-'] else []

/-- What stands between the text of the real part and the unsigned text of the imaginary part. -/
def joint (im : Float) : List Char :=
  (if needsPlus im then ['+'] else []) ++ ownSign im

/-- The imaginary parts that no single sign is written for: not a number, and a negative zero. -/
def Unannounced (im : Float) : Prop :=
  Binary.ofFloat im = .nan ∨ ∃ e, Binary.ofFloat im = .finite ⟨true, 0, e⟩

end ComplexText

open ComplexText

namespace FloatWidth

/-- The text of a number without its sign. -/
def unsignedText (w : FloatWidth) (x : Float) : List Char :=
  match Binary.ofFloat x with
  | .nan => "NaN".toList
  | .infinite _ => "Inf".toList
  | .finite x => w.finite { x with negative := false }

/-- Rounding keeps the sign, and does not look at it. -/
theorem round_unsigned (l : Layout) (x : Finite) :
    (x.round l = .infinite x.negative ∧
      Finite.round l { x with negative := false } = .infinite false) ∨
    ∃ y, x.round l = .finite y ∧ y.negative = x.negative ∧
      Finite.round l { x with negative := false } = .finite { y with negative := false } := by
  have hexponent : Finite.roundingExponent l { x with negative := false } = x.roundingExponent l := rfl
  have hmantissa : Finite.roundedMantissa l { x with negative := false } = x.roundedMantissa l := rfl
  rw [Finite.round_eq_ite, Finite.round_eq_ite, hexponent, hmantissa]
  split
  · split
    · exact .inl ⟨rfl, rfl⟩
    · exact .inr ⟨_, rfl, rfl, rfl⟩
  · split
    · exact .inl ⟨rfl, rfl⟩
    · exact .inr ⟨_, rfl, rfl, rfl⟩

theorem plain_finite_eq (l : Layout) (x : Finite) :
    Style.plain.finite l x =
      (if x.negative then ['-'] else []) ++ Style.plain.finite l { x with negative := false } := by
  rw [finite_eq, finite_eq]
  rfl

/-- A finite number is written as its sign and the same number without it. -/
theorem finite_eq_sign (w : FloatWidth) (x : Finite) :
    w.finite x = (if x.negative then ['-'] else []) ++ w.finite { x with negative := false } := by
  cases w with
  | double => exact plain_finite_eq .double x
  | single =>
      rcases round_unsigned .single x with ⟨hround, hunsigned⟩ | ⟨y, hround, hnegative, hunsigned⟩
      · simp only [finite, hround, hunsigned]
        cases x.negative <;> rfl
      · simp only [finite, hround, hunsigned]
        rw [plain_finite_eq, hnegative]

/-- The text of a number is its own sign and its unsigned text. -/
theorem text_eq (w : FloatWidth) (x : Float) : w.text x = ownSign x ++ w.unsignedText x := by
  unfold text ownSign unsignedText
  cases Binary.ofFloat x with
  | nan => rfl
  | infinite negative => cases negative <;> rfl
  | finite y => exact w.finite_eq_sign y

theorem complexText_eq (w : FloatWidth) (re im : Float) :
    w.complexText re im = w.text re ++ joint im ++ w.unsignedText im ++ ['i'] := by
  rw [complexText, text_eq w im, joint]
  simp

end FloatWidth

/-! ### The sign between the parts -/

namespace ComplexText

variable {im : Float}

/-- Not a number is joined without a sign. -/
theorem joint_of_nan (h : Binary.ofFloat im = .nan) : joint im = [] := by
  simp [joint, needsPlus, ownSign, h, Binary.nonnegative]

/-- A negative zero is joined by two signs. -/
theorem joint_of_negativeZero {e : Int} (h : Binary.ofFloat im = .finite ⟨true, 0, e⟩) :
    joint im = ['+', '-'] := by
  simp [joint, needsPlus, ownSign, h, Binary.nonnegative]

/-- Any other part is joined by the announced sign. -/
theorem joint_of_announced (h : ¬ Unannounced im) : joint im = [announcedSign im] := by
  unfold Unannounced at h
  unfold joint announcedSign ownSign needsPlus
  cases him : Binary.ofFloat im with
  | nan => exact absurd (.inl him) h
  | infinite negative => cases negative <;> rfl
  | finite y =>
      obtain ⟨negative, mantissa, exponent⟩ := y
      cases negative with
      | false => simp [Binary.nonnegative, Binary.belowZero]
      | true =>
          have hne : mantissa ≠ 0 := by
            rintro rfl
            exact h (.inr ⟨exponent, him⟩)
          simp [Binary.nonnegative, Binary.belowZero, hne]

end ComplexText

/-- **The announced sign is written, and it is the only one, but for two kinds of numbers.** -/
theorem FloatWidth.complexText_eq_iff (w : FloatWidth) (re im : Float) (sign : Char) :
    w.complexText re im = w.text re ++ sign :: w.unsignedText im ++ ['i'] ↔
      ¬ Unannounced im ∧ sign = announcedSign im := by
  have hjoint : w.complexText re im = w.text re ++ sign :: w.unsignedText im ++ ['i'] ↔
      joint im = [sign] := by
    rw [complexText_eq]
    constructor
    · intro h
      have hbetween : joint im ++ (w.unsignedText im ++ ['i']) =
          [sign] ++ (w.unsignedText im ++ ['i']) := by simpa using h
      exact List.append_cancel_right hbetween
    · intro h
      rw [h]
      simp
  rw [hjoint]
  by_cases h : Unannounced im
  · refine iff_of_false ?_ fun hboth => hboth.1 h
    rcases h with hnan | ⟨e, hzero⟩
    · simp [joint_of_nan hnan]
    · simp [joint_of_negativeZero hzero]
  · rw [joint_of_announced h]
    simp [h, eq_comm]

/-! ### Unsigned text -/

namespace ComplexText

/-- No sign and no capital letter stands in the text. -/
def Unmarked (cs : List Char) : Prop :=
  ∀ c ∈ cs, c ∉ ['+', '-', 'N', 'I']

-- Named, since characters are finitely many and all of them could be tried instead.
instance (cs : List Char) : Decidable (Unmarked cs) :=
  List.decidableBAll _ cs

theorem unmarked_append {a b : List Char} : Unmarked (a ++ b) ↔ Unmarked a ∧ Unmarked b :=
  List.forall_mem_append

theorem unmarked_digits {cs : List Char} (h : Digits cs) : Unmarked cs := by
  intro c hc hmark
  have hdigit : c.isDigit := h c hc
  simp only [List.mem_cons, List.not_mem_nil, or_false] at hmark
  rcases hmark with rfl | rfl | rfl | rfl <;> cases hdigit

theorem unmarked_plain {n : Literal} (h : n.WellFormed) (hnegative : n.negative = false) :
    Unmarked n.plain := by
  have hplaces : Unmarked (if n.places = [] then [] else '.' :: n.places) := by
    split
    · decide
    · exact unmarked_append.2 ⟨show Unmarked ['.'] by decide, unmarked_digits h.places_digits⟩
  rw [Literal.plain, hnegative]
  exact unmarked_append.2 ⟨unmarked_digits h.whole_digits, hplaces⟩

end ComplexText

namespace FloatWidth

/-- The text of a finite number without its sign is not empty, and unmarked. -/
theorem unmarked_finite (w : FloatWidth) (x : Finite) :
    w.finite { x with negative := false } ≠ [] ∧ Unmarked (w.finite { x with negative := false }) := by
  have hplain : ∀ (l : Layout) (y : Finite), Style.plain.finite l { y with negative := false } ≠ [] ∧
      Unmarked (Style.plain.finite l { y with negative := false }) := by
    intro l y
    obtain ⟨n, hwell, -, hplain, hnegative, -⟩ :=
      exists_plain_finite (s := .plain) rfl l { y with negative := false }
    rw [hplain]
    refine ⟨?_, unmarked_plain hwell hnegative⟩
    simp [Literal.plain, hwell.whole_ne_nil]
  cases w with
  | double => exact hplain .double x
  | single =>
      rcases round_unsigned .single x with ⟨-, hunsigned⟩ | ⟨y, -, -, hunsigned⟩
      · simp only [finite, hunsigned]
        exact ⟨by decide, show Unmarked ['i', 'n', 'f'] by decide⟩
      · simp only [finite, hunsigned]
        exact hplain .single y

/-- There is no sign in the text of a number without its sign. -/
theorem unsigned_unsignedText (w : FloatWidth) (x : Float) :
    ∀ c ∈ w.unsignedText x, c ≠ '+' ∧ c ≠ '-' := by
  unfold unsignedText
  cases Binary.ofFloat x with
  | nan => simp
  | infinite negative => simp
  | finite y =>
      intro c hc
      have hmark := (w.unmarked_finite y).2 c hc
      simp only [List.mem_cons, not_or] at hmark
      exact ⟨hmark.1, hmark.2.1⟩

end FloatWidth

/-! ### Reading the parts -/

namespace ComplexText

/-- A character that begins what stands behind the first part. -/
def stops (c : Char) : Bool :=
  c == '+' || c == '-' || c == 'N'

/-- The first part of a complex number, and what stands behind it. -/
def firstPart (cs : List Char) : List Char × List Char :=
  if cs.take 3 = "NaN".toList then (cs.take 3, cs.drop 3)
  else (cs.take 1 ++ (cs.drop 1).takeWhile (!stops ·), (cs.drop 1).dropWhile (!stops ·))

/-- The second part of a complex number, from what stands behind the first one. A plus sign belongs to an
infinite part, and only separates any other. -/
def secondPart (cs : List Char) : List Char :=
  match cs.dropLast with
  | '+' :: rest => if rest = "Inf".toList then '+' :: rest else rest
  | rest => rest

/-- The parts of a complex number. -/
def parts (cs : List Char) : List Char × List Char :=
  ((firstPart cs).1, secondPart (firstPart cs).2)

theorem secondPart_plus {cs : List Char} (h : cs ≠ "Inf".toList) :
    secondPart (['+'] ++ cs ++ ['i']) = cs := by
  rw [secondPart, List.dropLast_concat]
  exact if_neg h

theorem secondPart_minus (cs : List Char) : secondPart (['-'] ++ cs ++ ['i']) = '-' :: cs := by
  rw [secondPart, List.dropLast_concat]
  rfl

end ComplexText

namespace FloatWidth

/-- The text of a number other than not a number does not stop behind its first character. -/
theorem text_shape {w : FloatWidth} {x : Float} (h : Binary.ofFloat x ≠ .nan) :
    ∃ c cs, w.text x = c :: cs ∧ c ≠ 'N' ∧ ∀ d ∈ cs, stops d = false := by
  have hstops : ∀ {cs}, Unmarked cs → ∀ d ∈ cs, stops d = false := by
    intro cs hcs d hd
    have hmark := hcs d hd
    simp only [List.mem_cons, not_or] at hmark
    simp [stops, hmark.1, hmark.2.1, hmark.2.2.1]
  rw [text_eq]
  unfold ownSign unsignedText
  cases hx : Binary.ofFloat x with
  | nan => exact absurd hx h
  | infinite negative =>
      refine ⟨if negative then '-' else '+', "Inf".toList, ?_, ?_, ?_⟩
      · cases negative <;> rfl
      · cases negative <;> decide
      · simp [stops]
  | finite y =>
      obtain ⟨hne, hunmarked⟩ := w.unmarked_finite y
      obtain ⟨d, ds, hd⟩ := List.exists_cons_of_ne_nil hne
      rw [hd] at hunmarked
      cases hnegative : y.negative with
      | true => exact ⟨'-', d :: ds, by simp [hnegative, hd], by decide, hstops hunmarked⟩
      | false =>
          refine ⟨d, ds, by simp [hnegative, hd], ?_, fun e he => ?_⟩
          · rintro rfl
            exact hunmarked 'N' List.mem_cons_self (by decide)
          · exact hstops hunmarked e (List.mem_cons_of_mem _ he)

/-- The first part ends where something stops it. -/
theorem firstPart_text (w : FloatWidth) (x : Float) {c : Char} (hc : stops c = true) (rest : List Char) :
    firstPart (w.text x ++ c :: rest) = (w.text x, c :: rest) := by
  by_cases hnan : Binary.ofFloat x = .nan
  · have htext : w.text x = "NaN".toList := by simp only [text, hnan]; rfl
    rw [htext]
    rfl
  · obtain ⟨d, ds, htext, hd, hds⟩ := text_shape (w := w) hnan
    have hfirst : (d :: ds ++ c :: rest).take 3 ≠ "NaN".toList := by
      intro heq
      exact hd (List.cons.inj heq).1
    have hgoes : ∀ e ∈ ds, (!stops e) = true := fun e he => by rw [hds e he]; rfl
    have hrun : (ds ++ c :: rest).takeWhile (!stops ·) = ds := by
      rw [List.takeWhile_append_of_pos hgoes]
      simp [hc]
    have hleft : (ds ++ c :: rest).dropWhile (!stops ·) = c :: rest := by
      rw [List.dropWhile_append_of_pos hgoes]
      simp [hc]
    rw [htext, firstPart, if_neg hfirst]
    show (d :: (ds ++ c :: rest).takeWhile (!stops ·), (ds ++ c :: rest).dropWhile (!stops ·)) = _
    rw [hrun, hleft]

/-- The second part is read behind whatever joins it to the first one. -/
theorem secondPart_text (w : FloatWidth) (im : Float) :
    secondPart (joint im ++ w.unsignedText im ++ ['i']) = w.text im := by
  have hname : ∀ {cs}, 'I' ∉ cs → cs ≠ "Inf".toList := by
    rintro _ hmem rfl
    exact hmem List.mem_cons_self
  rw [text_eq]
  cases him : Binary.ofFloat im with
  | nan =>
      rw [joint_of_nan him]
      simp only [ownSign, unsignedText, him]
      rfl
  | infinite negative =>
      simp only [joint, ownSign, needsPlus, unsignedText, him]
      cases negative <;> rfl
  | finite y =>
      have hcapital : 'I' ∉ w.unsignedText im := by
        simp only [unsignedText, him]
        exact fun hmem => (w.unmarked_finite y).2 'I' hmem (by simp)
      obtain ⟨negative, mantissa, exponent⟩ := y
      cases negative with
      | false =>
          have hjoint : joint im = ['+'] := by simp [joint, ownSign, needsPlus, him, Binary.nonnegative]
          have hown : ownSign im = [] := by simp [ownSign, him]
          rw [hjoint, hown]
          exact secondPart_plus (hname hcapital)
      | true =>
          have hown : ownSign im = ['-'] := by simp [ownSign, him]
          rw [hown]
          by_cases hzero : mantissa = 0
          · subst hzero
            rw [joint_of_negativeZero him]
            have hsigned : '-' :: w.unsignedText im ≠ "Inf".toList := hname (by simpa using hcapital)
            exact secondPart_plus hsigned
          · have hjoint : joint im = ['-'] := by
              simp [joint, ownSign, needsPlus, him, Binary.nonnegative, hzero]
            rw [hjoint]
            exact secondPart_minus _

/-- What stands behind the first part begins with a sign, or with not a number. -/
theorem exists_stop (w : FloatWidth) (im : Float) :
    ∃ c rest, joint im ++ w.unsignedText im ++ ['i'] = c :: rest ∧ stops c = true := by
  by_cases h : Unannounced im
  · rcases h with hnan | ⟨e, hzero⟩
    · refine ⟨'N', ['a', 'N', 'i'], ?_, by decide⟩
      rw [joint_of_nan hnan, unsignedText, hnan]
      rfl
    · exact ⟨'+', _, by rw [joint_of_negativeZero hzero]; rfl, by decide⟩
  · refine ⟨announcedSign im, _, by rw [joint_of_announced h]; rfl, ?_⟩
    unfold announcedSign
    split <;> decide

/-- **The parts of a complex number are read back from its text.** -/
theorem parts_complexText (w : FloatWidth) (re im : Float) :
    parts (w.complexText re im) = (w.text re, w.text im) := by
  obtain ⟨c, rest, hrest, hc⟩ := w.exists_stop im
  have htext : w.complexText re im = w.text re ++ c :: rest := by
    rw [complexText_eq, ← hrest]
    simp
  rw [parts, htext, firstPart_text w re hc, ← hrest, secondPart_text]

end FloatWidth
namespace FieldValue

/-- **A complex number is a string of its parts, with the announced sign between them, but for two kinds
of numbers.** The sign is the only one of an imaginary part exactly if the part is a number and no negative
zero. A part that is not a number has none, and a negative zero has two. In all cases the parts are read
back from the text, and the text tells what they stand for in their precision. -/
theorem complex_writeTo (re im : Float) (w : FloatWidth) :
    (complex re im w).Writes (String.ofList (w.complexText re im)) ∧
    (complexOpt (some (re, im)) w).Writes (String.ofList (w.complexText re im)) ∧
    (∀ sign, w.complexText re im = w.text re ++ sign :: w.unsignedText im ++ ['i'] ↔
      ¬ Unannounced im ∧ sign = announcedSign im) ∧
    (∀ c ∈ w.unsignedText im, c ≠ '+' ∧ c ≠ '-') ∧
    (Binary.ofFloat im = .nan → w.complexText re im = w.text re ++ "NaNi".toList) ∧
    (∀ e, Binary.ofFloat im = .finite ⟨true, 0, e⟩ →
      w.complexText re im = w.text re ++ ['+', '-'] ++ w.unsignedText im ++ ['i']) ∧
    parts (w.complexText re im) = (w.text re, w.text im) ∧
    ∀ re' im', w.complexText re im = w.complexText re' im' →
      w.rounded re = w.rounded re' ∧ w.rounded im = w.rounded im' := by
  refine ⟨?_, ?_, w.complexText_eq_iff re im, w.unsigned_unsignedText im, ?_, ?_,
    w.parts_complexText re im, ?_⟩
  · exact writes_of_render fun _ => by rw [quoted, String.toList_ofList]; rfl
  · exact writes_of_render fun _ => by rw [quoted, String.toList_ofList]; rfl
  · intro hnan
    rw [w.complexText_eq, joint_of_nan hnan, FloatWidth.unsignedText, hnan]
    simp
  · intro e hzero
    rw [w.complexText_eq, joint_of_negativeZero hzero]
  · intro re' im' heq
    have hparts := congrArg parts heq
    rw [w.parts_complexText, w.parts_complexText] at hparts
    obtain ⟨hre, him⟩ := Prod.mk.inj hparts
    exact ⟨FloatWidth.rounded_of_text hre, FloatWidth.rounded_of_text him⟩

/-- The imaginary part is a number below zero that is a zero in single precision. It keeps its sign. -/
theorem complex_writeTo_narrowed :
    FloatWidth.single.complexText (.ofBits 0x7FF8000000000000) (.ofBits 0xB66244CE242C5561) =
      "NaN-0i".toList := by
  have hannounced : ¬ Unannounced (.ofBits 0xB66244CE242C5561) := by
    have him : Binary.ofFloat (.ofBits 0xB66244CE242C5561) =
        .finite ⟨true, 0x1244CE242C5561, -205⟩ := by decide
    unfold Unannounced
    simp [him]
  obtain ⟨-, -, hsign, -⟩ :=
    complex_writeTo (.ofBits 0x7FF8000000000000) (.ofBits 0xB66244CE242C5561) .single
  exact ((hsign '-').2 ⟨hannounced, by decide⟩).trans (by decide)

/-- One, and not a number: there is no sign between the parts. One, and a negative zero: there are two. -/
theorem complex_missigned :
    (complex (.ofBits 0x3FF0000000000000) (.ofBits 0x7FF8000000000000) .double).render .unix =
        "\"1NaNi\"".toList ∧
      announcedSign (.ofBits 0x7FF8000000000000) = '+' ∧
      (complex (.ofBits 0x3FF0000000000000) (.ofBits 0x8000000000000000) .double).render .unix =
        "\"1+-0i\"".toList ∧
      announcedSign (.ofBits 0x8000000000000000) = '+' := by
  decide

end FieldValue
end LineLog
