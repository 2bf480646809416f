import LineLog.Proofs.Json.Enclosed
import LineLog.Proofs.Json.Numeral
import LineLog.Proofs.Decimal.Rounding
import LineLog.Json.Encodings
import LineLog.Value.Shown
/-!
# LineLog.Proofs.Json.Typed

Typed readers take back what is written for them.

A reader is given the text of a value with more text behind it, as it stands among the members of an
object, and answers the value and what is behind (`Takes`). Strings and words end by themselves; a number
ends by what follows, so nothing but the end of a value may follow it (`Closes`).

Design points:

* An integer is read digit by digit into a number of 64 bits, and checked against the largest number of
  double precision before it is taken for an integer (`overflows_natural`). Neither is in the way of a
  number that fits into 64 bits.
* The two forms of a time format start with different characters, so a layout is never taken for a name,
  whatever it spells.
-/

namespace LineLog.Json

open Decimal Text

/-- The reader takes `a` off the front of every text that starts with `text` and ends the value there. -/
def Takes {α : Type} (read : Reader α) (text : List Char) (a : α) : Prop :=
  ∀ rest, Closes rest → read (text ++ rest) = .ok (a, rest)

theorem Takes.map {α β : Type} {read : Reader α} {text : List Char} {a : α} (h : Takes read text a)
    (f : α → β) : Takes (fun cs => (read cs).map fun (a, rest) => (f a, rest)) text (f a) := by
  intro rest hrest
  dsimp only
  rw [h rest hrest]
  rfl

/-- A text that does not start with a blank is read as it is. -/
theorem value_cons {α : Type} (read : Reader α) {c : Char} (hc : isBlank c = false) (cs : List Char) :
    value read (c :: cs) = read (c :: cs) := by
  have hskip : skipBlanks (c :: cs) = c :: cs := by simp [skipBlanks, hc]
  rw [value, hskip]

/-! ### Words and strings -/

theorem takes_bool (b : Bool) : Takes bool (Inspect.bool b) b := by
  intro rest _
  cases b <;> rfl

theorem string_quote (cs rest : List Char) : string (quote cs ++ rest) = .ok (cs, rest) := by
  have hread := stringBody_escape cs rest
  simp only [quote, List.cons_append, List.append_assoc, List.nil_append]
  rw [string, value_cons _ rfl]
  exact hread

theorem takes_string (cs : List Char) : Takes string (quote cs) cs :=
  fun rest _ => string_quote cs rest

/-! ### Integers -/

/-- Digits are gathered as long as their number fits into 64 bits. -/
theorem gather_of_lt {ds : List Char} {n : Nat} (h : Nat.ofDigitChars 10 ds n < 2 ^ 64) :
    gather n ds = (Nat.ofDigitChars 10 ds n, []) := by
  induction ds generalizing n with
  | nil => rfl
  | cons d ds ih =>
      have hstep : Nat.ofDigitChars 10 (d :: ds) n = Nat.ofDigitChars 10 ds (Nat.ofDigitChars 10 [d] n) := by
        simp [Nat.ofDigitChars_cons]
      rw [hstep] at h ⊢
      have hfits : Nat.ofDigitChars 10 [d] n < 2 ^ 64 := by
        refine lt_of_le_of_lt ?_ h
        rw [Nat.ofDigitChars_eq_ofDigitChars_zero (l := ds)]
        exact le_trans (Nat.le_mul_of_pos_left _ (Nat.pow_pos (by decide))) (Nat.le_add_right _ _)
      have hgather : gather n (d :: ds) = if Nat.ofDigitChars 10 [d] n < 2 ^ 64 then
          gather (Nat.ofDigitChars 10 [d] n) ds else (n, d :: ds) := rfl
      rw [hgather, if_pos hfits]
      exact ih h

theorem leadingDigits_natural {n : Nat} (h : n < 2 ^ 64) : leadingDigits (natural n) [] = (n, 0) := by
  have hgather : gather 0 (natural n) = (n, []) := by
    have hlt : Nat.ofDigitChars 10 (natural n) 0 < 2 ^ 64 := by rwa [ofDigitChars_natural]
    rw [gather_of_lt hlt, ofDigitChars_natural]
  have hnone : gather n [] = (n, []) := rfl
  simp [leadingDigits, hgather, hnone]

/-- Numbers of 64 bits are far below the largest number of double precision. -/
theorem overflows_natural {n : Nat} (h : n < 2 ^ 64) : overflows n 0 = false := by
  have hmin : Layout.double.minExponent = -1074 := by decide
  have hmax : Layout.double.maxExponent = 971 := by decide
  have hbits : Layout.double.fractionBits = 52 := rfl
  have hlength : Finite.bitLength n ≤ 64 := Finite.bitLength_le_iff.2 h
  obtain ⟨x, hx, hxsize⟩ := Finite.exists_round (l := .double) (x := ⟨false, n, 0⟩) 64
    (by dsimp only; omega) (by omega) (by omega)
  have hone : Finite.ofNat .double (10 ^ (0 : Int).toNat) = .finite ⟨false, 2 ^ 52, -52⟩ := by decide
  have hwidth : Finite.bitLength (2 ^ 52) = 53 := by decide
  obtain ⟨y, hy, -⟩ := Finite.exists_round (l := .double)
    (x := ⟨x.negative != false, x.mantissa * 2 ^ 52, x.exponent + -52⟩) 66
    (by
      have := Finite.bitLength_mul_le x.mantissa (2 ^ 52)
      dsimp only
      omega)
    (by omega) (by omega)
  have hmul : (x.mul .double ⟨false, 2 ^ 52, -52⟩).isFinite = true := by
    rw [Finite.mul, hy]
    rfl
  have hdigits : Finite.ofNat .double n = .finite x := hx
  rw [overflows]
  by_cases hn : n = 0
  · simp [hn]
  · rw [if_neg (by simp [hn]), if_neg (by decide)]
    simp only [hdigits, hone, hmul, Bool.not_true]

/-- Digits that end a value are read as their number. -/
theorem unsigned_natural {n : Nat} (h : n < 2 ^ 64) {rest : List Char} (hrest : Closes rest) :
    unsigned (natural n ++ rest) = .ok (.natural n, rest) := by
  have hwhole := integerPart_append (digits_natural n) (natural_ne_nil n)
    (fun hzero => by rw [eq_zero_of_head?_natural hzero, natural_zero]) hrest.noDigit
  have hplaces : fractionPart rest = .ok ([], rest) :=
    fractionPart_append digits_nil hrest.noDigit hrest.no_point
  simp [unsigned, hwhole, hplaces, hrest.exponentPart, leadingDigits_natural h, overflows_natural h,
    bind, Except.bind]

/-- What an integer is read as. -/
def Numeral.ofInt (n : Int) : Numeral :=
  if n < 0 then .negative n.natAbs else .natural n.natAbs

theorem number_integer {n : Int} (h : n.natAbs < 2 ^ 64) {rest : List Char} (hrest : Closes rest) :
    number (Decimal.integer n ++ rest) = .ok (.ofInt n, rest) := by
  cases n with
  | ofNat n =>
      have hread := unsigned_natural (n := n) h hrest
      obtain ⟨d, ds, hd⟩ := List.exists_cons_of_ne_nil (natural_ne_nil n)
      have hnotMinus : d ≠ '-' := ne_of_isDigit (digits_natural n d (by simp [hd])) (by decide)
      show number (natural n ++ rest) = _
      rw [hd, List.cons_append] at hread ⊢
      unfold number
      split
      · rename_i heq
        exact absurd (List.cons.inj heq).1 hnotMinus
      · rw [hread]
        rfl
  | negSucc n =>
      have hread := unsigned_natural (n := n + 1) h hrest
      have hneg : Numeral.ofInt (Int.negSucc n) = .negative (n + 1) := if_pos (Int.negSucc_lt_zero n)
      show number ('-' :: (natural (n + 1) ++ rest)) = _
      rw [number, hread, hneg]
      rfl

theorem integer_cons (n : Int) :
    ∃ c cs, Decimal.integer n = c :: cs ∧ isBlank c = false ∧ (c = '-' ∨ c.isDigit) := by
  have hnotBlank : ∀ {c : Char}, c.isDigit → isBlank c = false := by
    intro c hc
    have hnoDigit : ∀ d ∈ [' ', '\n', '\t', '\r'], ¬ d.isDigit := by simp
    have hne : ∀ d ∈ [' ', '\n', '\t', '\r'], c ≠ d := fun d hd => ne_of_isDigit hc (hnoDigit d hd)
    simp [isBlank, hne]
  cases n with
  | ofNat n =>
      obtain ⟨d, ds, hd⟩ := List.exists_cons_of_ne_nil (natural_ne_nil n)
      have hdigit : d.isDigit := digits_natural n d (by simp [hd])
      exact ⟨d, ds, hd, hnotBlank hdigit, .inr hdigit⟩
  | negSucc n => exact ⟨'-', natural (n + 1), rfl, rfl, .inl rfl⟩

/-- **An integer between the bounds is read back**, if it fits into 64 bits. -/
theorem takes_integer {low high n : Int} (hbits : n.natAbs < 2 ^ 64) (hlow : low ≤ n) (hhigh : n ≤ high) :
    Takes (integer low high) (Decimal.integer n) n := by
  intro rest hrest
  have hread := number_integer hbits hrest
  obtain ⟨c, cs, hcs, hblank, hstart⟩ := integer_cons n
  rw [hcs, List.cons_append] at hread ⊢
  rw [integer, value_cons _ hblank]
  simp only [if_pos hstart, hread, bind, Except.bind]
  by_cases hneg : n < 0
  · have habs : -(n.natAbs : Int) = n := by omega
    simp only [Numeral.ofInt, if_pos hneg, habs, if_pos (And.intro hlow hhigh)]
  · have habs : (n.natAbs : Int) = n := by omega
    simp only [Numeral.ofInt, if_neg hneg, habs, if_pos (And.intro hlow hhigh)]

theorem ofInt_toNat (n : UInt64) : UInt64.ofInt (n.toNat : Int) = n := by
  have hlt := n.toNat_lt_size
  have hsize : UInt64.size = 2 ^ 64 := rfl
  apply UInt64.toNat_inj.1
  simp only [UInt64.ofInt, UInt64.toNat_ofNat']
  omega

/-- A machine word is read back. -/
theorem takes_word (n : UInt64) :
    Takes (integer 0 (UInt64.size - 1)) (natural n.toNat) (n.toNat : Int) := by
  have hlt := n.toNat_lt_size
  have hsize : UInt64.size = 2 ^ 64 := rfl
  exact takes_integer (n := n.toNat) (by omega) (by omega) (by omega)

/-! ### Severities -/

theorem takes_severity (s : Severity) : Takes Severity.reader s.json s := by
  have hlow := s.level.minValue_le_toInt
  have hhigh := s.level.toInt_le
  have hmin : Int32.minValue.toInt = -2 ^ 31 := by decide
  have hmax : Int32.maxValue.toInt = 2 ^ 31 - 1 := by decide
  intro rest hrest
  have hread := takes_integer (n := s.level.toInt) (by omega) hlow hhigh rest hrest
  rw [Severity.reader, Severity.json, Severity.number, hread]
  simp [bind, Except.bind, pure, Except.pure]

/-! ### Time formats -/

open Time.Format (ofName? objectReader customName)

/-- A name is read as the format that it names. -/
theorem ofName?_name {f : Time.Format} {name : String} (h : f.name? = some name) :
    ofName? name.toList = some f := by
  cases f with
  | custom layout => cases h
  | _ => obtain rfl := Option.some.inj h; decide

theorem sign_cons {c : Char} (h : isBlank c = false) (cs : List Char) :
    Time.Format.sign c (c :: cs) = .ok cs := by
  have hskip : skipBlanks (c :: cs) = c :: cs := by simp [skipBlanks, h]
  simp [Time.Format.sign, hskip]

theorem objectReader_layout (layout : String) (rest : List Char) :
    objectReader (quoted customName ++ ':' :: quoted layout ++ '}' :: rest) =
      .ok (.custom layout, rest) := by
  have hname := memberName_quote customName.toList (':' :: (quoted layout ++ '}' :: rest))
  have hlayout := string_quote layout.toList ('}' :: rest)
  rw [List.append_assoc, List.cons_append, objectReader, quoted, hname]
  simp only [bind, Except.bind, if_true, sign_cons (show isBlank ':' = false from rfl), quoted, hlayout,
    sign_cons (show isBlank '}' = false from rfl), String.ofList_toList]
  rfl

theorem takes_format (f : Time.Format) : Takes Time.Format.reader f.json f := by
  intro rest _
  have hfixed : ∀ name, f.name? = some name →
      Time.Format.reader (quoted name ++ rest) = .ok (f, rest) := by
    intro name hname
    have hread := string_quote name.toList rest
    rw [quoted]
    rw [quote, List.cons_append, List.cons_append] at hread ⊢
    rw [Time.Format.reader, value_cons _ rfl]
    simp only [hread, bind, Except.bind, ofName?_name hname]
    rfl
  cases f with
  | custom layout =>
      have hread := objectReader_layout layout rest
      simp only [Time.Format.json, List.append_assoc, List.cons_append, List.nil_append] at hread ⊢
      rw [Time.Format.reader, value_cons _ rfl]
      exact hread
  | _ => exact hfixed _ rfl

/-- A name is a string, a layout an object with one member. -/
theorem exists_compact_format (f : Time.Format) : ∃ t, Compact f.json t := by
  cases f with
  | custom layout =>
      have hmember : CompactMember (quote customName.toList ++ ':' :: quote layout.toList)
          (customName.toList, .string layout.toList) := .of (.quote layout.toList)
      have hobject := Compact.object (.cons hmember .nil)
      rw [Object.enclosed, List.intercalate_singleton] at hobject
      exact ⟨_, hobject⟩
  | _ => exact ⟨_, .quote _⟩

end LineLog.Json
