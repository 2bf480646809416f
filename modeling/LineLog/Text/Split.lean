/-!
# LineLog.Text.Split

Cutting a text at a separator.

Design points:

* A text without separators is one piece, so there is always a first one: `pieces`
  answers it beside the others.
* Nothing but the separators is lost (`pieces_join`).
-/

namespace LineLog.Text

/-- The piece before the first separator, and the pieces after each separator. -/
def pieces (separator : Char) : List Char → List Char × List (List Char)
  | [] => ([], [])
  | c :: cs =>
    let (first, others) := pieces separator cs
    if c = separator then ([], first :: others) else (c :: first, others)

@[simp] theorem pieces_nil (separator : Char) : pieces separator [] = ([], []) := rfl

theorem pieces_cons_separator (separator : Char) (cs : List Char) :
    pieces separator (separator :: cs) =
      ([], (pieces separator cs).1 :: (pieces separator cs).2) := by
  simp [pieces]

theorem pieces_cons_of_ne {separator c : Char} (h : c ≠ separator) (cs : List Char) :
    pieces separator (c :: cs) = (c :: (pieces separator cs).1, (pieces separator cs).2) := by
  simp [pieces, h]

/-- The pieces with a separator before each but the first give the text back. -/
theorem pieces_join (separator : Char) (cs : List Char) :
    (pieces separator cs).1 ++ (pieces separator cs).2.flatMap (separator :: ·) = cs := by
  induction cs with
  | nil => rfl
  | cons c cs ih =>
    by_cases h : c = separator
    · subst h
      simpa [pieces_cons_separator] using ih
    · simpa [pieces_cons_of_ne h] using ih

end LineLog.Text
