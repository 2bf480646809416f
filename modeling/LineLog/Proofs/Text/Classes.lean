import LineLog.Text.Classes
import Mathlib
/-!
# LineLog.Proofs.Text.Classes

What trimming and upper-casing come to.

Trimming takes blank ends off and nothing else: it gives back any text that is put between blanks
(`trim_between`), and what it takes off is blank (`exists_trim`). Upper-casing is done letter by letter
as long as the text is ASCII (`upper_of_ascii`), and two texts have the same upper case exactly if they
are the same but for the case of letters (`sameButCase_iff_toUpper`).
-/

namespace LineLog.Text

/-! ### White space -/

/-- The text is white space. -/
def Blank (cs : List Char) : Prop :=
  ∀ c ∈ cs, isBlank c

/-- No character of the text is white space. -/
def Unblank (cs : List Char) : Prop :=
  ∀ c ∈ cs, isBlank c = false

-- Named, since characters are finitely many and all of them could be tried instead.
instance (cs : List Char) : Decidable (Blank cs) :=
  List.decidableBAll _ cs

instance (cs : List Char) : Decidable (Unblank cs) :=
  List.decidableBAll _ cs

/-- The text is ASCII. -/
def Ascii (cs : List Char) : Prop :=
  ∀ c ∈ cs, c.toNat < 0x80

instance (cs : List Char) : Decidable (Ascii cs) :=
  List.decidableBAll _ cs

/-- The white space of ASCII: space, tab, line feed, vertical tab, form feed and carriage return. -/
def asciiBlanks : List Char :=
  [' ', '\t', '\n', '\x0b', '\x0c', '\r']

theorem isBlank_iff_of_ascii {c : Char} (h : c.toNat < 0x80) : isBlank c ↔ c ∈ asciiBlanks := by
  have hcodes : ∀ n < 0x80, inRanges blankRanges n ↔ n ∈ asciiBlanks.map Char.toNat := by decide
  rw [isBlank, hcodes _ h, List.mem_map_of_injective fun _ _ => Char.toNat_inj.1]

theorem blank_iff_of_ascii {cs : List Char} (h : Ascii cs) : Blank cs ↔ cs ⊆ asciiBlanks := by
  constructor
  · intro hblank c hc
    exact (isBlank_iff_of_ascii (h c hc)).1 (hblank c hc)
  · intro hsub c hc
    exact (isBlank_iff_of_ascii (h c hc)).2 (hsub hc)

theorem Blank.reverse {cs : List Char} (h : Blank cs) : Blank cs.reverse :=
  fun c hc => h c (List.mem_reverse.1 hc)

theorem Unblank.reverse {cs : List Char} (h : Unblank cs) : Unblank cs.reverse :=
  fun c hc => h c (List.mem_reverse.1 hc)

/-! ### Trimming -/

/-- A blank front is dropped, up to a text that is not blank. -/
theorem dropWhile_blank_append {before core after : List Char} (hbefore : Blank before)
    (hcore : Unblank core) (hne : core ≠ []) :
    (before ++ (core ++ after)).dropWhile isBlank = core ++ after := by
  rw [List.dropWhile_append_of_pos hbefore]
  cases core with
  | nil => exact absurd rfl hne
  | cons c core => exact List.dropWhile_cons_of_neg (by simp [hcore c (.head _)])

/-- A text without white space is what trimming leaves of it between blanks. -/
theorem trim_between {before core after : List Char} (hbefore : Blank before)
    (hcore : Unblank core) (hne : core ≠ []) (hafter : Blank after) :
    trim (before ++ core ++ after) = core := by
  have hback : after.reverse ++ core.reverse = after.reverse ++ (core.reverse ++ []) := by simp
  rw [trim, List.append_assoc, dropWhile_blank_append hbefore hcore hne, List.reverse_append, hback,
    dropWhile_blank_append hafter.reverse hcore.reverse (by simpa using hne)]
  simp

/-- What trimming takes off are blank ends. -/
theorem exists_trim (cs : List Char) :
    ∃ before after, cs = before ++ trim cs ++ after ∧ Blank before ∧ Blank after := by
  have hback := List.takeWhile_append_dropWhile (p := isBlank)
    (l := (cs.dropWhile isBlank).reverse)
  refine ⟨cs.takeWhile isBlank, ((cs.dropWhile isBlank).reverse.takeWhile isBlank).reverse, ?_, ?_, ?_⟩
  · rw [trim, List.append_assoc, ← List.reverse_append, hback, List.reverse_reverse,
      List.takeWhile_append_dropWhile]
  · intro c hc
    exact List.mem_takeWhile_imp hc
  · intro c hc
    exact List.mem_takeWhile_imp (List.mem_reverse.1 hc)

/-! ### Case -/

/-- The texts are the same but for the case of letters of ASCII. -/
def SameButCase (a b : List Char) : Prop :=
  a.map Char.toLower = b.map Char.toLower

instance (a b : List Char) : Decidable (SameButCase a b) :=
  inferInstanceAs (Decidable (_ = _))

/-- It can be told from upper case as well. -/
theorem sameButCase_iff_toUpper {a b : List Char} :
    SameButCase a b ↔ a.map Char.toUpper = b.map Char.toUpper := by
  have hlower : ∀ cs : List Char, (cs.map Char.toUpper).map Char.toLower = cs.map Char.toLower := by
    simp
  have hupper : ∀ cs : List Char, (cs.map Char.toLower).map Char.toUpper = cs.map Char.toUpper := by
    simp
  constructor
  · intro h
    rw [← hupper a, ← hupper b, h]
  · intro h
    rw [SameButCase, ← hlower a, ← hlower b, h]

/-- The text holds no letter of ASCII. -/
def Letterless (cs : List Char) : Prop :=
  ∀ c ∈ cs, c.isAlpha = false

theorem toUpper_of_not_isAlpha {c : Char} (h : c.isAlpha = false) : c.toUpper = c := by
  have hlower : c.isLower = false := by
    rw [Char.isAlpha, Bool.or_eq_false_iff] at h
    exact h.2
  exact Char.toUpper_eq_of_not_isLower (by simp [hlower])

/-- A text without letters has one case only. -/
theorem Letterless.map_toUpper {cs : List Char} (h : Letterless cs) : cs.map Char.toUpper = cs := by
  rw [List.map_congr_left fun c hc => toUpper_of_not_isAlpha (h c hc), List.map_id']

/-- If the upper case of a text has no letters, then it is the text itself. -/
theorem eq_of_map_toUpper {cs upper : List Char} (h : cs.map Char.toUpper = upper)
    (hupper : Letterless upper) : cs = upper := by
  have hcs : Letterless cs := by
    intro c hc
    rw [← Char.isAlpha_toUpper_eq_isAlpha]
    exact hupper _ (h ▸ List.mem_map_of_mem hc)
  rw [← h, hcs.map_toUpper]

theorem SameButCase.eq_of_letterless {a b : List Char} (h : SameButCase a b) (hb : Letterless b) :
    a = b :=
  eq_of_map_toUpper ((sameButCase_iff_toUpper.1 h).trans hb.map_toUpper) hb

/-! ### Printable text -/

/-- The text holds characters of ASCII that can be seen, and no others. -/
def Printable (cs : List Char) : Prop :=
  ∀ c ∈ cs, 0x20 < c.toNat ∧ c.toNat < 0x7F

instance (cs : List Char) : Decidable (Printable cs) :=
  List.decidableBAll _ cs

theorem Printable.append {a b : List Char} (ha : Printable a) (hb : Printable b) :
    Printable (a ++ b) :=
  List.forall_mem_append.2 ⟨ha, hb⟩

theorem Printable.ascii {cs : List Char} (h : Printable cs) : Ascii cs :=
  fun c hc => Nat.lt_trans (h c hc).2 (by decide)

theorem Printable.unblank {cs : List Char} (h : Printable cs) : Unblank cs := by
  intro c hc
  have hcodes : ∀ n < 0x7F, 0x20 < n → inRanges blankRanges n = false := by decide
  exact hcodes _ (h c hc).2 (h c hc).1

/-- Lower-casing changes capital letters only, into letters. -/
theorem toNat_toLower (c : Char) :
    c.toLower.toNat = c.toNat ∨ 0x41 ≤ c.toNat ∧ c.toNat ≤ 0x5A ∧ c.toLower.toNat = c.toNat + 0x20 := by
  by_cases h : c.isUpper
  · have hrange : 0x41 ≤ c.toNat ∧ c.toNat ≤ 0x5A := by
      simpa [Char.isUpper, UInt32.le_iff_toNat_le] using h
    have hvalid : (c.toNat + 0x20).isValidChar := by
      left
      omega
    rw [Char.toLower_eq_of_isUpper h, Char.toNat_ofNat, if_pos hvalid]
    exact .inr ⟨hrange.1, hrange.2, rfl⟩
  · exact .inl (congrArg Char.toNat (Char.toLower_eq_of_not_isUpper h))

/-- The case of a text has no part in whether it is printable. -/
theorem SameButCase.printable {a b : List Char} (h : SameButCase a b) (hb : Printable b) :
    Printable a := by
  intro c hc
  have hmem : c.toLower ∈ b.map Char.toLower := h ▸ List.mem_map_of_mem hc
  obtain ⟨d, hd, hcase⟩ := List.mem_map.1 hmem
  have hprintable := hb d hd
  have hcode := congrArg Char.toNat hcase
  have hc := toNat_toLower c
  have hd := toNat_toLower d
  omega

/-! ### Upper case -/

theorem upperAscii_of_ascii {c : Char} (h : c.toNat < 0x80) : upperAscii c = [c.toUpper] := by
  rw [upperAscii]
  split
  case h_11 => rfl
  all_goals omega

theorem upper_of_ascii {cs : List Char} (h : Ascii cs) : upper cs = cs.map Char.toUpper := by
  induction cs with
  | nil => rfl
  | cons c cs ih =>
      rw [upper, List.flatMap_cons, upperAscii_of_ascii (h c (.head _)), ← upper,
        ih fun d hd => h d (.tail _ hd)]
      rfl

end LineLog.Text
