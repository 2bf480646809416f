import LineLog.Text.Bytes
/-!
# LineLog.Text.Place

Places in a text, counted in bytes of its encoding.

A text is searched from its end for a character of a kind, and what is found is the place at which
that character starts. At a place the text can be cut in two, unless the place lies inside a character or
behind the end.

Design points:

* A place is a bare number, and any number can be asked for: `cut?` answers nothing where a cut would
  break a character.
* The places of a text are the widths of its front parts (`cut?_width`), so what `lastPlace?` finds is
  always one (`lastPlace?_last`).
-/

namespace LineLog.Text

/-- The number of bytes of a text. -/
def width : List Char → Nat
  | [] => 0
  | c :: cs => c.utf8Size + width cs

@[simp] theorem width_nil : width [] = 0 := rfl

@[simp] theorem width_cons (c : Char) (cs : List Char) : width (c :: cs) = c.utf8Size + width cs := rfl

@[simp] theorem width_append (a b : List Char) : width (a ++ b) = width a + width b := by
  induction a with
  | nil => simp
  | cons c a ih => simp [ih, Nat.add_assoc]

/-! ### Searching -/

/-- The place of the last character that is of the kind `p`. -/
def lastPlace? (p : Char → Bool) : List Char → Option Nat
  | [] => none
  | c :: cs =>
    match lastPlace? p cs with
    | some place => some (c.utf8Size + place)
    | none => if p c then some 0 else none

theorem lastPlace?_eq_none {p : Char → Bool} {cs : List Char} (h : ∀ c ∈ cs, p c = false) :
    lastPlace? p cs = none := by
  induction cs with
  | nil => rfl
  | cons c cs ih =>
      rw [lastPlace?, ih fun d hd => h d (by simp [hd])]
      simp [h c (by simp)]

/-- With nothing of its kind behind it, a character is found at the width of what stands before it. -/
theorem lastPlace?_last {p : Char → Bool} {c : Char} (hc : p c = true) (front : List Char)
    {behind : List Char} (h : ∀ d ∈ behind, p d = false) :
    lastPlace? p (front ++ c :: behind) = some (width front) := by
  induction front with
  | nil =>
      rw [List.nil_append, lastPlace?, lastPlace?_eq_none h]
      simp [hc]
  | cons d front ih => rw [List.cons_append, lastPlace?, ih, width_cons]

/-- Of the characters of a kind, if there are any, one is the last. -/
theorem exists_last (p : Char → Bool) (cs : List Char) :
    (∀ c ∈ cs, p c = false) ∨
      ∃ front c behind, cs = front ++ c :: behind ∧ p c = true ∧ ∀ d ∈ behind, p d = false := by
  induction cs with
  | nil => exact .inl (by simp)
  | cons c cs ih =>
      rcases ih with hnone | ⟨front, d, behind, rfl, hd, hbehind⟩
      · cases hc : p c with
        | false => exact .inl (by simpa [hc] using hnone)
        | true => exact .inr ⟨[], c, cs, rfl, hc, hnone⟩
      · exact .inr ⟨c :: front, d, behind, rfl, hd, hbehind⟩

/-! ### Cutting -/

/-- The text before a place and the text behind it. -/
def cut? : List Char → Nat → Option (List Char × List Char)
  | cs, 0 => some ([], cs)
  | [], _ + 1 => none
  | c :: cs, place + 1 =>
    if c.utf8Size ≤ place + 1 then
      (cut? cs (place + 1 - c.utf8Size)).map fun parts => (c :: parts.1, parts.2)
    else none

@[simp] theorem cut?_zero (cs : List Char) : cut? cs 0 = some ([], cs) := by
  cases cs <;> rfl

/-- The width of a front part is a place. -/
theorem cut?_width (front behind : List Char) :
    cut? (front ++ behind) (width front) = some (front, behind) := by
  induction front with
  | nil => simp
  | cons c front ih =>
      have hwidth : width (c :: front) = width front + (c.utf8Size - 1) + 1 := by
        have := c.utf8Size_pos
        rw [width_cons]
        omega
      rw [List.cons_append, hwidth, cut?, ← hwidth, width_cons, if_pos (by omega),
        Nat.add_sub_cancel_left, ih]
      rfl

end LineLog.Text
