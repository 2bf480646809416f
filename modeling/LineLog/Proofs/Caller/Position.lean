import LineLog.Caller.Append
import LineLog.Proofs.Record.Members
import LineLog.Proofs.Json.Encoded
/-!
# LineLog.Proofs.Caller.Position

The text of a caller identifies the position that it was written for.

A position is written as `file:line`. Both may be had back although a file may hold colons itself: the
digits of a line hold none, so the last colon is the one between them (`splitLast?`). A short file is what
stands behind the second-to-last separator of the path, and it is reached by two searches from the end and
a cut in the middle of the bytes.

Design points:

* `Path.Shortened` says what a path is shortened to without any search. It leaves no choice
  (`Path.Shortened.unique`), so that the cut by places agrees with `Path.short` and that shortening twice
  changes nothing are both read off it.
* A path is taken apart at its last separator and its front part again at its own
  (`Path.exists_cut`); every separator is one byte wide.
-/

namespace LineLog

open Decimal Text Json

/-! ### Short paths -/

namespace Path

/-- How many separators a path has. -/
def separators (path : List Char) : Nat :=
  path.countP isSeparator

/-- `s` is what stands behind the second-to-last separator of `path`, or the whole of a `path` with fewer
than two. -/
structure Shortened (path s : List Char) : Prop where
  whole : separators path < 2 → s = path
  behind : 2 ≤ separators path →
    ∃ before separator, isSeparator separator ∧ path = before ++ separator :: s ∧ separators s = 1
  /-- The end of the path, so no character is cut. -/
  suffix : s <:+ path
  atMostOne : separators s ≤ 1
  /-- Nothing longer than `s` stands behind a separator and has at most one itself. -/
  longest : ∀ before separator t, isSeparator separator → path = before ++ separator :: t →
    separators t ≤ 1 → t <:+ s

/-- A separator is one byte wide. -/
theorem utf8Size_separator {c : Char} (h : isSeparator c = true) : c.utf8Size = 1 := by
  obtain rfl | rfl : c = '/' ∨ c = '\\' := by simpa [isSeparator] using h
  · rfl
  · rfl

theorem separators_le_of_suffix {s path : List Char} (h : s <:+ path) :
    separators s ≤ separators path :=
  h.sublist.countP_le

theorem separators_eq_zero {path : List Char} (h : ∀ c ∈ path, isSeparator c = false) :
    separators path = 0 :=
  List.countP_eq_zero.2 fun c hc => by simp [h c hc]

namespace Shortened

variable {path s t : List Char}

/-- A path with fewer than two separators is short. -/
theorem of_few (h : separators path < 2) : Shortened path path where
  whole _ := rfl
  behind hmany := by omega
  suffix := List.suffix_refl path
  atMostOne := by omega
  longest before separator t _ hpath _ := hpath ▸ ⟨before ++ [separator], by simp⟩

/-- What stands behind the second-to-last separator is short. Anything that starts further to the front has
that separator and the one behind it. -/
theorem of_behind {before : List Char} {separator : Char} (hseparator : isSeparator separator)
    (hone : separators s = 1) : Shortened (before ++ separator :: s) s := by
  have hmany : separators (separator :: s) = 2 := by
    rw [separators, List.countP_cons_of_pos hseparator, ← separators, hone]
  have hall := separators_le_of_suffix (List.suffix_append before (separator :: s))
  refine
    { whole := fun hfew => by omega
      behind := fun _ => ⟨before, separator, hseparator, rfl, hone⟩
      suffix := ⟨before ++ [separator], by simp⟩
      atMostOne := hone.le
      longest := ?_ }
  intro front other t _ hpath hfew
  have ht : t <:+ before ++ separator :: s := hpath ▸ ⟨front ++ [other], by simp⟩
  by_cases hlength : t.length ≤ s.length
  · exact List.suffix_of_suffix_length_le ht ⟨before ++ [separator], by simp⟩ hlength
  · have hback : separator :: s <:+ t :=
      List.suffix_of_suffix_length_le (List.suffix_append before _) ht
        (by rw [List.length_cons]; omega)
    have := separators_le_of_suffix hback
    omega

/-- There is one text only that a path is shortened to. -/
theorem unique (hs : Shortened path s) (ht : Shortened path t) : s = t := by
  by_cases hfew : separators path < 2
  · rw [hs.whole hfew, ht.whole hfew]
  · obtain ⟨before, a, ha, hpath, -⟩ := hs.behind (by omega)
    obtain ⟨before', b, hb, hpath', -⟩ := ht.behind (by omega)
    have hst : s <:+ t := ht.longest before a s ha hpath hs.atMostOne
    have hts : t <:+ s := hs.longest before' b t hb hpath' ht.atMostOne
    exact hst.eq_of_length (le_antisymm hst.length_le hts.length_le)

end Shortened

/-- A path has fewer than two separators, or it is cut at its last two. -/
theorem exists_cut (path : List Char) :
    (∀ c ∈ path, isSeparator c = false) ∨
    (∃ front last name, path = front ++ last :: name ∧ isSeparator last = true ∧
      (∀ c ∈ front, isSeparator c = false) ∧ ∀ c ∈ name, isSeparator c = false) ∨
    ∃ before separator directory last name,
      path = before ++ separator :: (directory ++ last :: name) ∧ isSeparator separator = true ∧
      isSeparator last = true ∧ (∀ c ∈ directory, isSeparator c = false) ∧
      ∀ c ∈ name, isSeparator c = false := by
  rcases exists_last isSeparator path with hnone | ⟨front, last, name, rfl, hlast, hname⟩
  · exact .inl hnone
  · rcases exists_last isSeparator front with hfront | ⟨before, a, directory, rfl, ha, hdirectory⟩
    · exact .inr (.inl ⟨front, last, name, rfl, hlast, hfront, hname⟩)
    · exact .inr (.inr ⟨before, a, directory, last, name, by simp, ha, hlast, hdirectory, hname⟩)

theorem separators_cut {front name : List Char} {last : Char} (hlast : isSeparator last = true)
    (hfront : ∀ c ∈ front, isSeparator c = false) (hname : ∀ c ∈ name, isSeparator c = false) :
    separators (front ++ last :: name) = 1 := by
  rw [separators, List.countP_append, List.countP_cons_of_pos hlast, ← separators, ← separators,
    separators_eq_zero hfront, separators_eq_zero hname]

theorem takeWhile_cut {a : Char} (ha : isSeparator a = true) {front behind : List Char}
    (h : ∀ c ∈ behind, isSeparator c = false) :
    (front ++ a :: behind).reverse.takeWhile (!isSeparator ·) = behind.reverse ∧
      (front ++ a :: behind).reverse.dropWhile (!isSeparator ·) = a :: front.reverse := by
  have hbehind : ∀ c ∈ behind.reverse, (!isSeparator c) = true := by simpa using h
  rw [List.reverse_append, List.reverse_cons, List.append_assoc, List.singleton_append,
    List.takeWhile_append_of_pos hbehind, List.dropWhile_append_of_pos hbehind]
  simp [ha]

/-- The search by characters, from the end of the path. -/
theorem shortened_short (path : List Char) : Shortened path (short path) := by
  rcases exists_cut path with hnone | ⟨front, last, name, rfl, hlast, hfront, hname⟩ |
    ⟨before, a, directory, last, name, rfl, ha, hlast, hdirectory, hname⟩
  · have hshort : short path = path := by
      have hdrop : path.reverse.dropWhile (!isSeparator ·) = [] :=
        List.dropWhile_eq_nil_iff.2 (by simpa using hnone)
      simp only [short, hdrop]
    rw [hshort]
    exact .of_few (by rw [separators_eq_zero hnone]; omega)
  · have hshort : short (front ++ last :: name) = front ++ last :: name := by
      have hany : front.reverse.any isSeparator = false := by simpa using hfront
      simp only [short, (takeWhile_cut hlast hname).2, hany]
      simp
    rw [hshort]
    exact .of_few (by rw [separators_cut hlast hfront hname]; omega)
  · have hpath : before ++ a :: (directory ++ last :: name) =
        (before ++ a :: directory) ++ last :: name := by simp
    have hshort : short (before ++ a :: (directory ++ last :: name)) = directory ++ last :: name := by
      have hany : (before ++ a :: directory).reverse.any isSeparator = true := by simp [ha]
      simp only [hpath, short, (takeWhile_cut hlast hname).1, (takeWhile_cut hlast hname).2, hany,
        (takeWhile_cut ha hdirectory).1]
      simp
    rw [hshort]
    exact .of_behind ha (separators_cut hlast hdirectory hname)

/-- The search by places, and the cut at the second of them. -/
theorem cutShort?_shortened (path : List Char) : ∃ s, cutShort? path = some s ∧ Shortened path s := by
  rcases exists_cut path with hnone | ⟨front, last, name, rfl, hlast, hfront, hname⟩ |
    ⟨before, a, directory, last, name, rfl, ha, hlast, hdirectory, hname⟩
  · refine ⟨path, ?_, .of_few (by rw [separators_eq_zero hnone]; omega)⟩
    rw [cutShort?, lastPlace?_eq_none hnone]
  · refine ⟨_, ?_, .of_few (by rw [separators_cut hlast hfront hname]; omega)⟩
    simp only [cutShort?, lastPlace?_last hlast front hname, cut?_width, Option.bind_some,
      lastPlace?_eq_none hfront]
  · refine ⟨directory ++ last :: name, ?_, .of_behind ha (separators_cut hlast hdirectory hname)⟩
    have hlastPath : before ++ a :: (directory ++ last :: name) =
        (before ++ a :: directory) ++ last :: name := by simp
    have hfirstPath : before ++ a :: (directory ++ last :: name) =
        (before ++ [a]) ++ (directory ++ last :: name) := by simp
    -- The second place is one of the front part; the cut is made in the whole path, behind the separator.
    have hplace : width before + 1 = width (before ++ [a]) := by
      rw [width_append, width_cons, width_nil, utf8Size_separator ha]
    rw [cutShort?, hlastPath, lastPlace?_last hlast _ hname]
    simp only [cut?_width, Option.bind_some, lastPlace?_last ha before hdirectory, hplace]
    rw [← hlastPath, hfirstPath, cut?_width]
    rfl

/-- Cutting by places never fails, and comes to the last two segments. -/
theorem cutShort?_eq (path : List Char) : cutShort? path = some (short path) := by
  obtain ⟨s, hs, hshortened⟩ := cutShort?_shortened path
  rw [hs, hshortened.unique (shortened_short path)]

/-- Shortening twice comes to shortening once. -/
theorem short_short (path : List Char) : short (short path) = short path :=
  (shortened_short (short path)).unique
    (.of_few (Nat.lt_succ_of_le (shortened_short path).atMostOne))

end Path

/-! ### The text of a caller -/

namespace Caller

/-- What stands before the last separator of a text, and what stands behind it. -/
def splitLast? (separator : Char) : List Char → Option (List Char × List Char)
  | [] => none
  | c :: cs =>
    match splitLast? separator cs with
    | some parts => some (c :: parts.1, parts.2)
    | none => if c = separator then some ([], cs) else none

theorem splitLast?_eq_none {separator : Char} {cs : List Char} (h : separator ∉ cs) :
    splitLast? separator cs = none := by
  induction cs with
  | nil => rfl
  | cons c cs ih =>
      obtain ⟨hc, hcs⟩ : separator ≠ c ∧ separator ∉ cs := by simpa using h
      rw [splitLast?, ih hcs, if_neg (Ne.symm hc)]

/-- The separator before a text without any is the last one, whatever stands before it. -/
theorem splitLast?_append {separator : Char} (front : List Char) {behind : List Char}
    (h : separator ∉ behind) : splitLast? separator (front ++ separator :: behind) = some (front, behind) := by
  induction front with
  | nil => simp [splitLast?, splitLast?_eq_none h]
  | cons c front ih => rw [List.cons_append, splitLast?, ih]

/-- The file that is named for a caller. -/
def fileText (short : Bool) (caller : Option Location) : List Char :=
  caller.elim [] fun l => if short then Path.short l.file.toList else l.file.toList

/-- The line that is named for a caller. -/
def lineNumber (caller : Option Location) : Nat :=
  caller.elim 0 Location.line

theorem text_eq (short : Bool) (caller : Option Location) :
    text short caller = fileText short caller ++ ':' :: natural (lineNumber caller) := by
  cases caller with
  | none => rw [lineNumber, Option.elim_none, natural_zero]; rfl
  | some l => rfl

theorem splitLast?_text (short : Bool) (caller : Option Location) :
    splitLast? ':' (text short caller) =
      some (fileText short caller, natural (lineNumber caller)) := by
  have hcolon : ':' ∉ natural (lineNumber caller) := fun hmem =>
    absurd (digits_natural _ ':' hmem) (by decide)
  rw [text_eq, splitLast?_append _ hcolon]

/-- What is written behind the destination is the text as it stands inside a JSON string. -/
theorem appendTo?_eq (dst : Bytes) (short : Bool) (caller : Option Location) :
    appendTo? dst short caller = some (dst ++ utf8 (escape (text short caller))) := by
  rw [escape_text]
  cases caller with
  | none => rfl
  | some l =>
      cases short with
      | false => simp [appendTo?, render, appendEscaped_eq, escapeBytes_utf8]
      | true => simp [appendTo?, render, appendEscaped_eq, escapeBytes_utf8, Path.cutShort?_eq]

/-- **The text of a caller identifies its position.** Every path is cut to its end behind the second-to-last
separator, or stays whole if it has fewer than two; the cut is always possible, and a short path stays as it
is. What is written for a caller, in either mode and behind any destination, is a JSON string that splits at
its last colon into the file and the line; an unknown caller has the empty file and line 0. It is also what
stands in a record. -/
theorem appendTo_identifies :
    (∀ path : List Char, Path.cutShort? path = some (Path.short path) ∧
      Path.Shortened path (Path.short path) ∧ Path.short (Path.short path) = Path.short path) ∧
    (∀ (dst : Bytes) (short : Bool) (caller : Option Location), ∃ written text,
      appendTo? dst short caller = some (dst ++ written) ∧
      parseBytes (quoteByte :: written ++ [quoteByte]) = .ok (.string text) ∧
      splitLast? ':' text = some (fileText short caller, natural (lineNumber caller))) ∧
    ∀ (c : Config) (r : Record), ∃ written, appendTo? [] c.shortCaller r.caller = some written ∧
      utf8 (r.callerValue c) = quoteByte :: written ++ [quoteByte] := by
  refine ⟨fun path => ⟨Path.cutShort?_eq path, Path.shortened_short path, Path.short_short path⟩, ?_, ?_⟩
  · intro dst short caller
    refine ⟨_, text short caller, appendTo?_eq dst short caller, ?_, splitLast?_text short caller⟩
    rw [← escapeBytes_utf8, ← utf8_quote]
    exact (Compact.quote _).parseBytes
  · intro c r
    refine ⟨_, appendTo?_eq [] c.shortCaller r.caller, ?_⟩
    rw [List.nil_append, ← escapeBytes_utf8, ← utf8_quote, Record.callerValue, ← escape_text, quote]

/-- Doubled separators of both kinds, and characters of two, three and four bytes around them. -/
example : Path.cutShort? "ü\\\\€/𝄞\\".toList = some "𝄞\\".toList := by decide

end Caller

end LineLog
