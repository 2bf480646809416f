import LineLog.Proofs.Json.Numeral
import LineLog.Proofs.Text.Escape
/-!
# LineLog.Proofs.Text.Bare

Text that stands for itself, in a string as well as in a layout.

Numbers, dates and lengths of time are written between quotation marks without being escaped. That is
right because nothing in them has a meaning there (`escape_of_bare`, `appendVerbatim_eq`). Nor is there a
percent sign in them, so none that is found in a rendered layout comes from a number or a name.
-/

namespace LineLog.Text

open Decimal Json

/-- No control character, and none that has a meaning in a string or in a layout. -/
def BareChar (c : Char) : Prop :=
  0x20 ≤ c.toNat ∧ c ≠ '"' ∧ c ≠ '\\' ∧ c ≠ '%'

instance (c : Char) : Decidable (BareChar c) := by
  unfold BareChar
  infer_instance

/-- All characters stand for themselves. -/
def Bare (cs : List Char) : Prop :=
  ∀ c ∈ cs, BareChar c

-- Named, since characters are finitely many and all of them could be tried instead.
instance (cs : List Char) : Decidable (Bare cs) :=
  List.decidableBAll _ cs

@[simp] theorem bare_nil : Bare [] := by simp [Bare]

@[simp] theorem bare_cons {c : Char} {cs : List Char} : Bare (c :: cs) ↔ BareChar c ∧ Bare cs := by
  simp [Bare]

@[simp] theorem bare_append {a b : List Char} : Bare (a ++ b) ↔ Bare a ∧ Bare b := by
  simp [Bare, or_imp, forall_and]

theorem Bare.subset {a b : List Char} (h : Bare b) (hab : a ⊆ b) : Bare a :=
  fun c hc => h c (hab hc)

theorem bare_ite {p : Prop} [Decidable p] {a b : List Char} (ha : Bare a) (hb : Bare b) :
    Bare (if p then a else b) := by
  split
  · exact ha
  · exact hb

/-! ### Numbers -/

theorem bare_digits {cs : List Char} (h : Digits cs) : Bare cs := by
  intro c hc
  have hdigit : c.isDigit := h c hc
  exact ⟨visible_digits h c hc, ne_of_isDigit hdigit (by decide), ne_of_isDigit hdigit (by decide),
    ne_of_isDigit hdigit (by decide)⟩

@[simp] theorem bare_natural (n : Nat) : Bare (natural n) :=
  bare_digits (digits_natural n)

@[simp] theorem bare_zeroPadded (width n : Nat) : Bare (zeroPadded width n) :=
  bare_digits (digits_zeroPadded width n)

@[simp] theorem bare_integer (n : Int) : Bare (integer n) := by
  cases n with
  | ofNat n => exact bare_natural n
  | negSucc n => exact bare_cons.2 ⟨by decide, bare_natural (n + 1)⟩

@[simp] theorem bare_fraction (places numerator : Nat) : Bare (fraction places numerator) := by
  rw [fraction_eq]
  exact bare_ite bare_nil (bare_cons.2 ⟨by decide, bare_digits (digits_fractionDigits _ _)⟩)

theorem bare_padLeft {width : Nat} {fill : Char} {cs : List Char} (hfill : BareChar fill) (h : Bare cs) :
    Bare (padLeft width fill cs) := by
  refine bare_append.2 ⟨?_, h⟩
  intro c hc
  rwa [List.eq_of_mem_replicate hc]

theorem bare_plain {l : Literal} (h : l.WellFormed) : Bare l.plain := by
  have hplaces : Bare ('.' :: l.places) := bare_cons.2 ⟨by decide, bare_digits h.places_digits⟩
  exact bare_append.2 ⟨bare_append.2 ⟨bare_ite (by decide) bare_nil, bare_digits h.whole_digits⟩,
    bare_ite bare_nil hplaces⟩

/-! ### Escaping -/

theorem escapeChar_of_bare {c : Char} (h : BareChar c) : escapeChar c = [c] := by
  obtain ⟨hvisible, hquote, hsolidus, -⟩ := h
  rcases escapeChar_cases c with ⟨letter, hmem, -⟩ | ⟨hlt, -⟩ | ⟨-, -, -, hself⟩
  · have hforms : ∀ p ∈ shortEscapes, p.1.toNat < 0x20 ∨ p.1 = '"' ∨ p.1 = '\\' := by decide
    rcases hforms _ hmem with hlt | heq | heq
    · exact absurd hvisible (Nat.not_le.2 hlt)
    · exact absurd heq hquote
    · exact absurd heq hsolidus
  · omega
  · exact hself

/-- **Bare text needs no escape.** -/
theorem escape_of_bare {cs : List Char} (h : Bare cs) : escape cs = cs := by
  induction cs with
  | nil => rfl
  | cons c cs ih =>
      obtain ⟨hc, hcs⟩ := bare_cons.1 h
      rw [escape_cons, escapeChar_of_bare hc, ih hcs]
      rfl

/-- Escaping may begin behind a part that is bare. -/
theorem appendEscaped_behind_bare {a : List Char} (h : Bare a) (dst : Bytes) (cs : List Char) :
    appendEscaped (dst ++ [quoteByte] ++ utf8 a) (utf8 cs) ++ [quoteByte] =
      dst ++ utf8 (quote (a ++ cs)) := by
  have hbare : escapeBytes (utf8 a) = utf8 a := by rw [escapeBytes_utf8, escape_of_bare h]
  rw [utf8_quote, utf8_append, escapeBytes_append, hbare, appendEscaped_eq]
  simp

/-- Between quotation marks, bare text is a JSON string. -/
theorem appendVerbatim_eq {cs : List Char} (h : Bare cs) (dst : Bytes) :
    appendVerbatim dst cs = dst ++ utf8 (quote cs) := by
  have hempty := appendEscaped_behind_bare h dst []
  rw [List.append_nil] at hempty
  rw [← hempty, appendEscaped_eq, appendVerbatim]
  simp

end LineLog.Text
