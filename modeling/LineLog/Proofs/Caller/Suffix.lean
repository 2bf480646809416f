import LineLog.Caller.Walk
import LineLog.Proofs.Text.Escape
/-!
# LineLog.Proofs.Caller.Suffix

Paths that end in the file of a call site.

A call site names its file as the compiler was given it, and the stack names the same file with more
directories in front. A path is taken for that file if the last of its segments are the segments of the
file.

A path in bytes has the segments of its text, byte for byte (`Path.segments_encoded`): what separates
segments is one byte, and no other character has that byte in it. So nothing depends on whether bytes or
characters are compared (`Path.nativeEndsWith_utf8`).
-/

namespace LineLog

/-! ### Pieces -/

namespace Text

/-- What has no separator in it belongs to the first piece. -/
theorem pieces_append {separator : Char} {front : List Char} (h : separator ∉ front)
    (cs : List Char) :
    pieces separator (front ++ cs) =
      (front ++ (pieces separator cs).1, (pieces separator cs).2) := by
  induction front with
  | nil => rfl
  | cons c front ih =>
      obtain ⟨hc, hfront⟩ : separator ≠ c ∧ separator ∉ front := by simpa using h
      rw [List.cons_append, pieces_cons_of_ne hc.symm, ih hfront, List.cons_append]

/-- The bytes of a text, each as the character of its number. -/
def encoded (cs : List Char) : List Char :=
  latin (utf8 cs)

theorem encoded_cons (c : Char) (cs : List Char) :
    encoded (c :: cs) = latin (String.utf8EncodeChar c) ++ encoded cs := by
  rw [encoded, utf8_cons, latin, List.map_append]
  rfl

theorem encoded_injective : Function.Injective encoded :=
  latin_injective.comp (Function.LeftInverse.injective lossy_utf8)

/-- The byte of an ASCII character is in the encoding of no other character. -/
theorem notMem_latin_char {separator c : Char} (hascii : separator.toNat < 128) (h : c ≠ separator) :
    separator ∉ latin (String.utf8EncodeChar c) := by
  intro hmem
  obtain ⟨b, hb, rfl⟩ := List.mem_map.1 hmem
  rw [toNat_latin] at hascii
  by_cases hc : c.toNat < 128
  · rw [utf8EncodeChar_ascii hc, List.mem_singleton] at hb
    rw [hb, toNat_toUInt8 hc, Char.ofNat_toNat] at h
    exact h rfl
  · have := utf8EncodeChar_byte (Nat.le_refl 128) (Nat.le_of_not_lt hc) b hb
    omega

/-- Bytes are cut where their text is cut. -/
theorem pieces_encoded (cs : List Char) :
    pieces '/' (encoded cs) = (encoded (pieces '/' cs).1, (pieces '/' cs).2.map encoded) := by
  induction cs with
  | nil => rfl
  | cons c cs ih =>
      rw [encoded_cons]
      by_cases hc : c = '/'
      · have hone : latin (String.utf8EncodeChar c) = ['/'] := by rw [hc]; rfl
        rw [hone, hc, List.singleton_append, pieces_cons_separator, pieces_cons_separator, ih]
        rfl
      · rw [pieces_append (notMem_latin_char (by decide) hc), pieces_cons_of_ne hc, ih, encoded_cons]

end Text

namespace Path

open Text

/-! ### Segments -/

/-- A path ends in another one if its last segments are the segments of that one. -/
theorem endsWith_iff_suffix {path ending : List Char} :
    endsWith path ending = true ↔ segments ending <:+ segments path :=
  List.isSuffixOf_iff_suffix

theorem isNamed_iff {piece : List Char} : isNamed piece = true ↔ piece ≠ [] ∧ piece ≠ ['.'] := by
  simp [isNamed]

theorem segments_of_pieces {path : List Char} (h : path ≠ []) :
    segments path =
      (if (pieces '/' path).1 = [] then ['/'] else (pieces '/' path).1) ::
        (pieces '/' path).2.filter isNamed := by
  have hjoin := pieces_join '/' path
  rw [segments]
  rcases hpieces : pieces '/' path with ⟨first, others⟩
  cases first with
  | nil =>
      cases others with
      | nil =>
          rw [hpieces] at hjoin
          exact absurd hjoin.symm h
      | cons piece others => rfl
  | cons c first => rfl

/-- Segments are compared whole. -/
example : endsWith "src/mycore/log.rs".toList "core/log.rs".toList = false := by decide

/-! ### Paths in bytes -/

theorem isNamed_encoded (piece : List Char) : isNamed (encoded piece) = isNamed piece := by
  rw [Bool.eq_iff_iff, isNamed_iff, isNamed_iff]
  exact and_congr (encoded_injective.ne_iff' rfl) (encoded_injective.ne_iff' rfl)

theorem segments_encoded (path : List Char) :
    segments (encoded path) = (segments path).map encoded := by
  by_cases hpath : path = []
  · rw [hpath]
    rfl
  · have hencoded : encoded path ≠ [] := (encoded_injective.ne_iff' rfl).2 hpath
    have hfilter : ∀ others : List (List Char),
        (others.map encoded).filter isNamed = (others.filter isNamed).map encoded := fun others => by
      rw [List.filter_map]
      exact congrArg _ (List.filter_congr fun piece _ => isNamed_encoded piece)
    rw [segments_of_pieces hpath, segments_of_pieces hencoded, pieces_encoded, hfilter, List.map_cons]
    congr 1
    by_cases hfirst : (pieces '/' path).1 = []
    · rw [hfirst]
      rfl
    · have hencodedFirst : encoded (pieces '/' path).1 ≠ [] :=
        (encoded_injective.ne_iff' rfl).2 hfirst
      rw [if_neg hfirst]
      exact if_neg hencodedFirst

theorem nativeEndsWith_iff {path : Bytes} {ending : List Char} :
    nativeEndsWith path ending = true ↔ segments (encoded ending) <:+ segments (latin path) :=
  endsWith_iff_suffix

/-- **It makes no difference whether bytes or characters are compared.** -/
theorem nativeEndsWith_utf8 (path ending : List Char) :
    nativeEndsWith (utf8 path) ending = endsWith path ending := by
  rw [Bool.eq_iff_iff, nativeEndsWith_iff, endsWith_iff_suffix, ← encoded, segments_encoded,
    segments_encoded, List.suffix_map_iff_of_injective encoded_injective]

end Path
end LineLog
