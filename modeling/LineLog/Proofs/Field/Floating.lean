import LineLog.Proofs.Decimal.Rounding
import LineLog.Proofs.Field.Append
/-!
# LineLog.Proofs.Field.Floating

Floating-point numbers in fields: what is announced for them, and the numbers for which it is not written.

A number that is finite in the precision of its field is announced as a JSON number without an exponent,
and everything else as a string that names it (`FloatWidth.Announces`). Not a number and the infinities are
told apart before a number is brought to its precision. So a finite number that overflows on the way is
written under a name of its own, and without quotation marks. These are the only exceptions
(`FloatWidth.announced_iff`), and they are the numbers from halfway past the largest number of single
precision on (`FloatWidth.overflows_iff`).

Design points:

* `FloatWidth.rounded` says what a number stands for in the precision of its field. It does not mention
  text.
* A literal is announced by the number that it reads back to. A rational reads back to one number only, so
  the text of a number tells which one it is (`FloatWidth.rounded_of_text`).
-/

namespace LineLog

open Decimal Text Json

namespace FloatWidth

/-- The format of a precision. -/
def layout : FloatWidth → Layout
  | single => .single
  | double => .double

/-- What a number stands for in the precision that it is written in. -/
def rounded (w : FloatWidth) (x : Float) : Binary :=
  match w, Binary.ofFloat x with
  | single, .finite y => y.round .single
  | _, other => other

/-- The number is finite, and infinite in the precision that it is written in. -/
def Overflows (w : FloatWidth) (x : Float) : Prop :=
  (Binary.ofFloat x).isFinite = true ∧ (w.rounded x).isFinite = false

/-- What is announced for a number of this precision: as a JSON value, as bare text, and as what a reader
finds. -/
def Announces (w : FloatWidth) : Binary → List Char → List Char → Tree → Prop
  | .nan, json, text, tree => text = "NaN".toList ∧ json = quote text ∧ tree = .string text
  | .infinite negative, json, text, tree =>
    text = (if negative then "-Inf".toList else "+Inf".toList) ∧ json = quote text ∧ tree = .string text
  | .finite y, json, text, tree => json = text ∧ ∃ n : Literal, tree = .number n ∧ text = n.plain ∧
      n.WellFormed ∧ n.exponent = none ∧ n.negative = y.negative ∧ y.ReadsBack w.layout n.magnitude

/-! ### Rounding to a precision -/

variable {w : FloatWidth} {x : Float}

theorem canonical_ofFloat {y : Finite} (h : Binary.ofFloat x = .finite y) : y.Canonical .double :=
  canonical_ofWord (by decide) h

theorem roundingExponent_single {y : Finite} (hy : y.Canonical .double) (hzero : y.mantissa = 0) :
    y.roundingExponent .single = Layout.single.minExponent :=
  Finite.roundingExponent_of_zero hzero (by rw [hy.exponent_of_zero hzero]; decide)

/-- What a finite number stands for in a precision is the nearest number in it. -/
theorem rounded_finite {y z : Finite} (hy : Binary.ofFloat x = .finite y) (hz : w.rounded x = .finite z) :
    z.Canonical w.layout ∧ z.negative = y.negative ∧ z.ReadsBack w.layout y.magnitude := by
  have hcanonical := canonical_ofFloat hy
  cases w with
  | single =>
      simp only [rounded, hy] at hz
      exact Finite.round_finite (roundingExponent_single hcanonical) (by decide) hz
  | double =>
      simp only [rounded, hy] at hz
      obtain rfl := Binary.finite.inj hz
      exact ⟨hcanonical, rfl, y.readsBack_magnitude _⟩

/-- **Numbers overflow from halfway past the largest number of single precision on**, and only in single
precision. -/
theorem overflows_iff :
    w.Overflows x ↔
      w = single ∧ ∃ y, Binary.ofFloat x = .finite y ∧ 2 ^ 128 - 2 ^ 103 ≤ y.magnitude := by
  have hbound : Finite.overflowBound .single = 2 ^ 128 - 2 ^ 103 := by
    rw [Finite.overflowBound, show Layout.single.maxExponent = ((104 : Nat) : Int) by decide,
      show Layout.single.fractionBits = 23 from rfl, zpow_natCast]
    norm_num
  unfold Overflows
  cases hx : Binary.ofFloat x with
  | nan => simp [Binary.isFinite]
  | infinite negative => simp [Binary.isFinite]
  | finite y =>
      cases w with
      | double => simp [rounded, hx, Binary.isFinite]
      | single =>
          have hround := Finite.round_infinite_iff (l := .single) (x := y) (by decide) (by decide)
            (roundingExponent_single (canonical_ofFloat hx))
          rw [hbound] at hround
          simp only [rounded, hx, Binary.isFinite, true_and, Binary.finite.injEq, exists_eq_left', ← hround]
          rcases Finite.round_cases .single y with hinfinite | ⟨z, hfinite⟩
          · simp [hinfinite]
          · simp [hfinite]

/-! ### Texts -/

/-- A number that is finite in its precision is written as the number that it stands for there. -/
theorem text_of_rounded {z : Finite} (hz : w.rounded x = .finite z) :
    w.text x = Style.plain.finite w.layout z ∧ w.json x = w.text x := by
  cases hx : Binary.ofFloat x with
  | nan => cases w <;> simp [rounded, hx] at hz
  | infinite negative => cases w <;> simp [rounded, hx] at hz
  | finite y =>
      have hsame : w.json x = w.text x := by simp only [json, text, hx]
      refine ⟨?_, hsame⟩
      simp only [text, hx]
      cases w with
      | single =>
          simp only [rounded, hx] at hz
          simp only [finite, hz, layout]
      | double =>
          simp only [rounded, hx] at hz
          obtain rfl := Binary.finite.inj hz
          rfl

/-- A number that overflows is written without quotation marks, under a name that is no other number's. -/
theorem text_of_overflows (h : w.Overflows x) :
    ∃ y, Binary.ofFloat x = .finite y ∧ w.rounded x = .infinite y.negative ∧
      w.text x = (if y.negative then "-inf".toList else "inf".toList) ∧ w.json x = w.text x := by
  obtain ⟨hfinite, hrounded⟩ := h
  cases hx : Binary.ofFloat x with
  | nan => simp [hx, Binary.isFinite] at hfinite
  | infinite negative => simp [hx, Binary.isFinite] at hfinite
  | finite y =>
      have hsame : w.json x = w.text x := by simp only [json, text, hx]
      cases w with
      | double => simp [rounded, hx, Binary.isFinite] at hrounded
      | single =>
          simp only [rounded, hx] at hrounded
          rcases Finite.round_cases .single y with hinfinite | ⟨z, hz⟩
          · refine ⟨y, rfl, by simp only [rounded, hx, hinfinite], ?_, hsame⟩
            simp only [text, hx, finite, hinfinite]
            rfl
          · simp [hz, Binary.isFinite] at hrounded

/-- The names of what overflows are no JSON values, nor is what follows them. -/
theorem treeOfBytes_overflow (negative : Bool) (rest : List Char) :
    treeOfBytes (utf8 (if negative then "-inf".toList else "inf".toList) ++ utf8 rest) =
      .error .malformed := by
  rw [← utf8_append, treeOfBytes, text?_utf8]
  simp only [String.toList_ofList]
  cases negative <;> rfl

/-- **What is announced for a number is written, unless it overflows.** -/
theorem announced_iff :
    (∃ tree, w.Announces (w.rounded x) (w.json x) (w.text x) tree ∧ Compact (w.json x) tree) ↔
      ¬ w.Overflows x := by
  constructor
  · rintro ⟨tree, -, hcompact⟩ hoverflows
    obtain ⟨y, -, -, htext, hsame⟩ := text_of_overflows hoverflows
    have hread := hcompact.treeOfBytes_append closes_nil
    rw [hsame, htext, treeOfBytes_overflow] at hread
    cases hread
  · intro h
    cases hx : Binary.ofFloat x with
    | nan =>
        have hrounded : w.rounded x = .nan := by cases w <;> simp only [rounded, hx]
        simp only [hrounded, json, text, hx]
        exact ⟨_, ⟨rfl, rfl, rfl⟩, .quote _⟩
    | infinite negative =>
        have hrounded : w.rounded x = .infinite negative := by cases w <;> simp only [rounded, hx]
        simp only [hrounded, json, text, hx]
        cases negative <;> exact ⟨_, ⟨rfl, rfl, rfl⟩, .quote _⟩
    | finite y =>
        cases hrounded : w.rounded x with
        | nan | infinite _ => exact absurd ⟨by rw [hx]; rfl, by rw [hrounded]; rfl⟩ h
        | finite z =>
            obtain ⟨htext, hsame⟩ := text_of_rounded hrounded
            obtain ⟨n, hwell, hexponent, hplain, hnegative, hread⟩ :=
              exists_plain_finite (s := .plain) rfl w.layout z
            refine ⟨.number n, ?_, ?_⟩
            · exact ⟨hsame, n, rfl, htext.trans hplain, hwell, hexponent, hnegative, hread⟩
            · rw [hsame, htext, hplain]
              exact .number hwell hexponent

/-! ### Reading back -/

/-- The texts that are no literals, and what the numbers that are written so stand for. -/
def names : List (List Char × Binary) :=
  [("NaN".toList, .nan), ("+Inf".toList, .infinite false), ("-Inf".toList, .infinite true),
    ("inf".toList, .infinite false), ("-inf".toList, .infinite true)]

theorem names_functional : ∀ p ∈ names, ∀ q ∈ names, p.1 = q.1 → p.2 = q.2 := by decide

theorem parse_name : ∀ p ∈ names, parse p.1 = .error .malformed := by
  simp only [names, List.forall_mem_cons]
  exact ⟨rfl, rfl, rfl, rfl, rfl, by simp⟩

/-- A number is written as a literal that reads back to it, or under one of the names. -/
theorem text_cases (w : FloatWidth) (x : Float) :
    (∃ z n, w.rounded x = .finite z ∧ z.Canonical w.layout ∧ n.negative = z.negative ∧
      z.ReadsBack w.layout n.magnitude ∧ parse (w.text x) = .ok (.number n)) ∨
      (w.text x, w.rounded x) ∈ names := by
  cases hx : Binary.ofFloat x with
  | nan =>
      refine .inr ?_
      cases w <;> simp [rounded, text, hx, names]
  | infinite negative =>
      refine .inr ?_
      cases w <;> cases negative <;> simp [rounded, text, hx, names]
  | finite y =>
      cases hrounded : w.rounded x with
      | finite z =>
          obtain ⟨htext, -⟩ := text_of_rounded hrounded
          obtain ⟨n, hcompact, hnegative, hread, -⟩ := exists_compact_finite .plain w.layout z
          refine .inl ⟨z, n, rfl, (rounded_finite hx hrounded).1, hnegative, hread, ?_⟩
          rw [htext]
          exact hcompact.parse
      | nan | infinite _ =>
          obtain ⟨v, -, hinfinite, htext, -⟩ :=
            text_of_overflows ⟨by rw [hx]; rfl, show (w.rounded x).isFinite = false by rw [hrounded]; rfl⟩
          rw [← hrounded, hinfinite, htext]
          refine .inr ?_
          cases v.negative <;> decide

/-- **The text of a number tells what the number stands for in its precision.** -/
theorem rounded_of_text {x y : Float} (h : w.text x = w.text y) : w.rounded x = w.rounded y := by
  rcases text_cases w x with ⟨z, n, hx, hz, hsign, hread, hparse⟩ | hx
  · rcases text_cases w y with ⟨z', n', hy, hz', hsign', hread', hparse'⟩ | hy
    · rw [h, hparse'] at hparse
      obtain rfl : n' = n := by
        simpa using hparse
      obtain ⟨hmantissa, hexponent⟩ := hz.eq_of_readsBack hz' hread hread'
      have hnegative : z.negative = z'.negative := hsign.symm.trans hsign'
      rw [hx, hy]
      cases z
      cases z'
      simp_all
    · rw [h, parse_name _ hy] at hparse
      cases hparse
  · rcases text_cases w y with ⟨z', n', hy, hz', hsign', hread', hparse'⟩ | hy
    · rw [← h, parse_name _ hx] at hparse'
      cases hparse'
    · exact names_functional _ hx _ hy h

end FloatWidth

namespace FieldValue

/-- **A floating-point number is one JSON value of the announced form, unless it overflows.** Wherever it
is written, one value is read in its place, whatever closes it, and that value and the bare text are as
announced for what the number stands for in its precision. This is so exactly for the numbers that do not
overflow, that is, which are not written in single precision or are less than halfway past its largest
number. The others have two names of their own, and no value is read there. -/
theorem float_writeTo (x : Float) (w : FloatWidth) :
    (∀ fallback dst, (float x w).writeTo fallback dst = dst ++ utf8 (w.json x) ∧
      (floatOpt (some x) w).writeTo fallback dst = dst ++ utf8 (w.json x)) ∧
    ((∃ tree, w.Announces (w.rounded x) (w.json x) (w.text x) tree ∧
      ∀ rest, Closes rest → treeOfBytes (utf8 (w.json x) ++ utf8 rest) = .ok (tree, rest)) ↔
        ¬ w.Overflows x) ∧
    (w.Overflows x ↔
      w = .single ∧ ∃ y, Binary.ofFloat x = .finite y ∧ 2 ^ 128 - 2 ^ 103 ≤ y.magnitude) ∧
    (w.Overflows x → ∃ y, Binary.ofFloat x = .finite y ∧
      w.text x = (if y.negative then "-inf".toList else "inf".toList) ∧ w.json x = w.text x ∧
      ∀ rest, treeOfBytes (utf8 (w.json x) ++ utf8 rest) = .error .malformed) ∧
    ∀ y z, Binary.ofFloat x = .finite y → w.rounded x = .finite z →
      z.Canonical w.layout ∧ z.negative = y.negative ∧ z.ReadsBack w.layout y.magnitude := by
  have hoverflow : w.Overflows x → ∃ y, Binary.ofFloat x = .finite y ∧
      w.text x = (if y.negative then "-inf".toList else "inf".toList) ∧ w.json x = w.text x ∧
      ∀ rest, treeOfBytes (utf8 (w.json x) ++ utf8 rest) = .error .malformed := by
    intro h
    obtain ⟨y, hy, -, htext, hsame⟩ := FloatWidth.text_of_overflows h
    refine ⟨y, hy, htext, hsame, fun rest => ?_⟩
    rw [hsame, htext]
    exact FloatWidth.treeOfBytes_overflow y.negative rest
  refine ⟨fun _ _ => ⟨rfl, rfl⟩, ⟨?_, ?_⟩, FloatWidth.overflows_iff, hoverflow,
    fun _ _ => FloatWidth.rounded_finite⟩
  · rintro ⟨tree, -, hread⟩ h
    obtain ⟨-, -, -, -, hmalformed⟩ := hoverflow h
    have hnone := hread [] closes_nil
    rw [hmalformed] at hnone
    cases hnone
  · intro h
    obtain ⟨tree, hannounces, hcompact⟩ := FloatWidth.announced_iff.2 h
    exact ⟨tree, hannounces, fun rest hrest => hcompact.treeOfBytes_append hrest⟩

/-- The last number below halfway past the largest number of single precision, and the one just at it. -/
theorem float_writeTo_halfway :
    (∃ tree, ∀ rest, Closes rest →
      treeOfBytes (utf8 (FloatWidth.single.json (.ofBits 0x47EFFFFFEFFFFFFF)) ++ utf8 rest) =
        .ok (tree, rest)) ∧
      FloatWidth.single.json (.ofBits 0x47EFFFFFF0000000) = "inf".toList := by
  have hbelow : ¬ FloatWidth.single.Overflows (.ofBits 0x47EFFFFFEFFFFFFF) := by
    rintro ⟨-, hrounded⟩
    exact absurd hrounded (by decide)
  have habove : FloatWidth.single.Overflows (.ofBits 0x47EFFFFFF0000000) := ⟨by decide, by decide⟩
  obtain ⟨-, hannounced, -⟩ := float_writeTo (.ofBits 0x47EFFFFFEFFFFFFF) .single
  obtain ⟨-, -, -, hoverflow, -⟩ := float_writeTo (.ofBits 0x47EFFFFFF0000000) .single
  obtain ⟨tree, -, hread⟩ := hannounced.2 hbelow
  obtain ⟨y, hy, htext, hsame, -⟩ := hoverflow habove
  refine ⟨⟨tree, hread⟩, ?_⟩
  have hpositive : (Binary.finite ⟨false, 2 ^ 53 - 2 ^ 28, 75⟩) = .finite y :=
    Eq.trans (by decide) hy
  obtain rfl := Binary.finite.inj hpositive
  rw [hsame, htext]
  rfl

/-- About 10^300 in single precision: neither a number nor the name of an infinity is written, and no
value is read. -/
theorem float_overflowing :
    (float (.ofBits 0x7E37E43C8800759C) .single).writeTo .unix [0x3A] = [0x3A] ++ utf8 "inf".toList ∧
      FloatWidth.single.text (.ofBits 0x7E37E43C8800759C) = "inf".toList ∧
      ¬ ∃ tree rest, treeOfBytes (utf8 "inf".toList) = .ok (tree, rest) := by
  refine ⟨by decide, by decide, ?_⟩
  rintro ⟨tree, rest, hread⟩
  have hmalformed := FloatWidth.treeOfBytes_overflow false []
  rw [utf8_nil, List.append_nil] at hmalformed
  rw [show utf8 "inf".toList = utf8 (if false then "-inf".toList else "inf".toList) from rfl,
    hmalformed] at hread
  cases hread

end FieldValue
end LineLog
