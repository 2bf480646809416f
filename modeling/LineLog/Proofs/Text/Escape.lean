import LineLog.Proofs.Json.Encoded
import LineLog.Proofs.Json.Quoted
import LineLog.Text.Decode
/-!
# LineLog.Proofs.Text.Escape

The escaping of bytes loses nothing.

The writer goes through its source once and copies bytes in runs. `EscapeState.Reached` is the invariant
of that loop: what is written, followed by the run under way, is the destination followed by the escape
of all bytes so far. So the writer does what escaping byte by byte does (`appendEscaped_eq`), and `Form`
says what that is for each byte.

Design points:

* Bytes need not be text. To compare them with text, each is taken for the character of its number
  (`latin`). Escaping does the same on either side, and since an escaped text can be read back, no two
  byte strings have the same escape (`escapeBytes_injective`).
* On encoded text, escaping bytes comes to the same as escaping characters (`escapeBytes_utf8`), so
  valid text stays valid.
* A scanner finds the end of a string before it decodes anything (`untilQuote`), so what follows the
  string need not be text.
-/

namespace LineLog.Text

open Json

/-! ### One byte -/

/-- The letter behind the backslash of a short escape, by the byte that it stands for. -/
def shortForms : List (UInt8 × UInt8) :=
  [(0x22, 0x22), (0x5C, 0x5C), (0x08, 0x62), (0x0C, 0x66), (0x0A, 0x6E), (0x0D, 0x72), (0x09, 0x74)]

/-- The byte of a hexadecimal digit, in lower case. -/
def hexByte (n : Nat) : UInt8 :=
  (Nat.digitChar n).toNat.toUInt8

/-- What a byte is written as: a backslash with a letter for those that have one, `\u00` with two digits
for the other controls, and else the byte itself. -/
inductive Form : UInt8 → Bytes → Prop
  | short {b letter : UInt8} (h : (b, letter) ∈ shortForms) : Form b [solidusByte, letter]
  | control {b : UInt8} (h : b ≤ 0x1F) (hshort : ∀ p ∈ shortForms, p.1 ≠ b) :
      Form b [solidusByte, 0x75, 0x30, 0x30, hexByte (b.toNat / 16), hexByte (b.toNat % 16)]
  | itself {b : UInt8} (h : 0x1F < b) (hquote : b ≠ 0x22) (hsolidus : b ≠ 0x5C) : Form b [b]

/-- Every byte has a form. -/
theorem exists_form (b : UInt8) : ∃ bytes, Form b bytes := by
  by_cases hshort : ∃ p ∈ shortForms, p.1 = b
  · obtain ⟨⟨b', letter⟩, hmem, rfl⟩ := hshort
    exact ⟨_, .short hmem⟩
  · have hother : ∀ p ∈ shortForms, p.1 ≠ b := fun p hp hb => hshort ⟨p, hp, hb⟩
    by_cases hcontrol : b ≤ 0x1F
    · exact ⟨_, .control hcontrol hother⟩
    · refine ⟨_, .itself (UInt8.not_le.1 hcontrol) ?_ ?_⟩
      · exact (hother (0x22, 0x22) (by decide)).symm
      · exact (hother (0x5C, 0x5C) (by decide)).symm

/-- A number that is none of the short forms is escaped by its digits, or not at all. -/
theorem escapeOf?_of_not_short {b : UInt8} (h : ∀ p ∈ shortForms, p.1 ≠ b) :
    escapeOf? b.toNat = if b.toNat < 0x20 then
      some ['\\', 'u', '0', '0', Nat.digitChar (b.toNat / 16), Nat.digitChar (b.toNat % 16)]
    else none := by
  have hne : ∀ p ∈ shortForms, b.toNat ≠ p.1.toNat :=
    fun p hp hb => h p hp (UInt8.toNat_inj.1 hb.symm)
  simp only [shortForms, List.forall_mem_cons] at hne
  obtain ⟨h₁, h₂, h₃, h₄, h₅, h₆, h₇, -⟩ := hne
  exact (if_neg h₁).trans <| (if_neg h₂).trans <| (if_neg h₃).trans <| (if_neg h₄).trans <|
    (if_neg h₅).trans <| (if_neg h₆).trans <| if_neg h₇

/-- Escaping a byte writes its form. -/
theorem Form.eq_escapeByte {b : UInt8} {bytes : Bytes} (h : Form b bytes) : bytes = escapeByte b := by
  cases h with
  | short h =>
      simp only [shortForms, List.mem_cons, Prod.mk.injEq, List.not_mem_nil, or_false] at h
      rcases h with ⟨rfl, rfl⟩ | ⟨rfl, rfl⟩ | ⟨rfl, rfl⟩ | ⟨rfl, rfl⟩ | ⟨rfl, rfl⟩ | ⟨rfl, rfl⟩ |
        ⟨rfl, rfl⟩ <;> rfl
  | control h hshort =>
      have hlt : b.toNat < 0x20 := Nat.lt_succ_of_le (UInt8.le_iff_toNat_le.1 h)
      rw [escapeByte, escapeOf?_of_not_short hshort, if_pos hlt]
      rfl
  | itself h hquote hsolidus =>
      have hge : ¬ b.toNat < 0x20 := Nat.not_lt.2 (UInt8.lt_iff_toNat_lt.1 h)
      have hshort : ∀ p ∈ shortForms, p.1 ≠ b := by
        have hforms : ∀ p ∈ shortForms, p.1 ≤ 0x1F ∨ p.1 = 0x22 ∨ p.1 = 0x5C := by
          simp [shortForms]
        rintro p hp rfl
        rcases hforms p hp with hle | heq | heq
        · exact absurd hle (UInt8.not_le.2 h)
        · exact hquote heq
        · exact hsolidus heq
      rw [escapeByte, escapeOf?_of_not_short hshort, if_neg hge]

theorem form_iff {b : UInt8} {bytes : Bytes} : Form b bytes ↔ bytes = escapeByte b := by
  refine ⟨Form.eq_escapeByte, ?_⟩
  rintro rfl
  obtain ⟨bytes, h⟩ := exists_form b
  exact h.eq_escapeByte ▸ h

/-! ### Bytes as characters -/

theorem toNat_latin (b : UInt8) : (Char.ofNat b.toNat).toNat = b.toNat := by
  have hvalid : b.toNat.isValidChar := .inl (Nat.lt_trans b.toNat_lt (by decide))
  rw [Char.ofNat, dif_pos hvalid]
  rfl

theorem latin_injective : Function.Injective latin := by
  refine List.map_injective_iff.2 ?_
  intro a b h
  have htoNat := congrArg Char.toNat h
  rw [toNat_latin, toNat_latin] at htoNat
  exact UInt8.toNat_inj.1 htoNat

/-- Escapes are made of characters below 128. -/
theorem escapeOf?_ascii {n : Nat} {cs : List Char} (h : escapeOf? n = some cs) :
    ∀ c ∈ cs, c.toNat < 128 := by
  have hdigit : ∀ m < 16, (Nat.digitChar m).toNat < 128 := by decide
  unfold escapeOf? at h
  split_ifs at h
  iterate 7
    · cases h
      simp
  · cases h
    have hhigh := hdigit (n / 16) (by omega)
    have hlow := hdigit (n % 16) (by omega)
    simp [hhigh, hlow]

theorem toNat_toUInt8 {c : Char} (h : c.toNat < 128) : (c.toNat.toUInt8).toNat = c.toNat := by
  rw [Nat.toUInt8, UInt8.toNat_ofNat', Nat.mod_eq_of_lt (Nat.lt_trans h (by decide))]

theorem latin_toBytes {cs : List Char} (h : ∀ c ∈ cs, c.toNat < 128) :
    latin (cs.map fun c => c.toNat.toUInt8) = cs := by
  rw [latin, List.map_map]
  refine (List.map_congr_left fun c hc => ?_).trans (List.map_id cs)
  show Char.ofNat (c.toNat.toUInt8).toNat = c
  rw [toNat_toUInt8 (h c hc), Char.ofNat_toNat]

theorem latin_escapeByte (b : UInt8) : latin (escapeByte b) = escapeChar (Char.ofNat b.toNat) := by
  rw [escapeByte, escapeChar, toNat_latin]
  cases hescape : escapeOf? b.toNat with
  | none => rfl
  | some cs => exact latin_toBytes (escapeOf?_ascii hescape)

/-- Escaping bytes is escaping the characters that they are taken for. -/
theorem latin_escapeBytes (bytes : Bytes) : latin (escapeBytes bytes) = escape (latin bytes) := by
  induction bytes with
  | nil => rfl
  | cons b bytes ih =>
      rw [escapeBytes_cons, latin, List.map_append]
      show latin (escapeByte b) ++ latin (escapeBytes bytes) = _
      rw [latin_escapeByte, ih]
      exact (escape_cons _ _).symm

/-- Different bytes are escaped differently. -/
theorem escapeBytes_injective {a b : Bytes} (h : escapeBytes a = escapeBytes b) : a = b := by
  have hlatin : escape (latin a) = escape (latin b) := by
    rw [← latin_escapeBytes, ← latin_escapeBytes, h]
  have hread := stringBody_escape (latin a) []
  rw [hlatin, stringBody_escape (latin b) []] at hread
  exact latin_injective (by simpa using hread.symm)

/-! ### Encoded text -/

theorem utf8EncodeChar_ascii {c : Char} (h : c.toNat < 128) :
    String.utf8EncodeChar c = [c.toNat.toUInt8] := by
  have hval : c.val.toNat ≤ 127 := Nat.le_of_lt_succ h
  rw [String.utf8EncodeChar, if_pos hval]
  rfl

theorem utf8_ascii {cs : List Char} (h : ∀ c ∈ cs, c.toNat < 128) :
    utf8 cs = cs.map fun c => c.toNat.toUInt8 := by
  induction cs with
  | nil => rfl
  | cons c cs ih =>
      rw [utf8_cons, utf8EncodeChar_ascii (h c (List.mem_cons_self ..)),
        ih fun d hd => h d (List.mem_cons_of_mem _ hd)]
      rfl

/-- Bytes above 127 stand for themselves. -/
theorem escapeByte_of_le {b : UInt8} (h : 128 ≤ b.toNat) : escapeByte b = [b] := by
  refine (Form.itself ?_ ?_ ?_).eq_escapeByte.symm
  · exact UInt8.lt_iff_toNat_lt.2 (Nat.lt_of_lt_of_le (by decide) h)
  · rintro rfl
    exact absurd h (by decide)
  · rintro rfl
    exact absurd h (by decide)

theorem escapeBytes_utf8EncodeChar (c : Char) :
    escapeBytes (String.utf8EncodeChar c) = utf8 (escapeChar c) := by
  by_cases h : c.toNat < 128
  · have hone := utf8EncodeChar_ascii h
    rw [hone, escapeBytes_cons, escapeBytes_nil, List.append_nil, escapeByte, escapeChar,
      toNat_toUInt8 h]
    cases hescape : escapeOf? c.toNat with
    | none => exact hone.symm.trans (by simp)
    | some cs => exact (utf8_ascii (escapeOf?_ascii hescape)).symm
  · have hbytes := utf8EncodeChar_byte (Nat.le_refl 128) (Nat.le_of_not_lt h)
    have hself : escapeBytes (String.utf8EncodeChar c) = String.utf8EncodeChar c := by
      rw [escapeBytes, List.flatMap_congr fun b hb => escapeByte_of_le (hbytes b hb)]
      simp
    have hchar : escapeChar c = [c] := by
      rcases escapeChar_cases c with ⟨letter, hmem, -⟩ | ⟨hlt, -⟩ | ⟨-, -, -, hc⟩
      · have hforms : ∀ p ∈ shortEscapes, p.1.toNat < 128 := by decide
        exact absurd (hforms _ hmem) h
      · omega
      · exact hc
    rw [hself, hchar]
    simp

/-- On encoded text, escaping bytes comes to the same as escaping characters. -/
theorem escapeBytes_utf8 (cs : List Char) : escapeBytes (utf8 cs) = utf8 (escape cs) := by
  induction cs with
  | nil => rfl
  | cons c cs ih =>
      rw [utf8_cons, escapeBytes_append, escapeBytes_utf8EncodeChar, ih, escape_cons, utf8_append]

/-- The bytes encode some text. -/
def Valid (bytes : Bytes) : Prop :=
  (text? bytes).isSome

theorem valid_iff {bytes : Bytes} : Valid bytes ↔ ∃ cs, bytes = utf8 cs := by
  constructor
  · intro h
    rw [Valid, text?, String.fromUTF8?] at h
    split at h
    · rename_i hvalid
      obtain ⟨cs, hcs⟩ := hvalid
      refine ⟨cs, ?_⟩
      have hdata := congrArg (·.data.toList) hcs
      simpa [List.utf8Encode, utf8] using hdata
    · cases h
  · rintro ⟨cs, rfl⟩
    rw [Valid, text?_utf8]
    rfl

/-! ### Writing in runs -/

theorem copied_iff {b : UInt8} : copied b = true ↔ 0x1F < b ∧ b ≠ 0x22 ∧ b ≠ 0x5C := by
  simp [copied, quoteByte, solidusByte, and_assoc]

theorem escapeByte_of_copied {b : UInt8} (h : copied b = true) : escapeByte b = [b] := by
  obtain ⟨hgt, hquote, hsolidus⟩ := copied_iff.1 h
  exact (Form.itself hgt hquote hsolidus).eq_escapeByte.symm

/-- After the bytes `done` of a source: what is written, with the run under way behind it, is what the
destination `dst` held with the escape of `done` behind it. -/
structure EscapeState.Reached (dst done : Bytes) (st : EscapeState) : Prop where
  start_le : st.start ≤ done.length
  written : st.written ++ done.drop st.start = dst ++ escapeBytes done

namespace EscapeState.Reached

variable {dst done : Bytes} {st : EscapeState}

theorem step (h : Reached dst done st) (b : UInt8) (rest : Bytes) :
    Reached dst (done ++ [b]) (st.step (done ++ b :: rest) (b, done.length)) := by
  rw [EscapeState.step]
  split
  · rename_i hcopied
    constructor
    · rw [List.length_append]
      exact Nat.le_add_right_of_le h.start_le
    · rw [List.drop_append_of_le_length h.start_le, ← List.append_assoc, h.written,
        escapeBytes_append, escapeBytes_cons, escapeByte_of_copied hcopied, escapeBytes_nil,
        List.append_nil, List.append_assoc]
  · constructor
    · simp
    · simp only [List.take_left]
      rw [h.written]
      simp

theorem run (h : Reached dst done st) (rest : Bytes) :
    Reached dst (done ++ rest)
      ((rest.zipIdx done.length).foldl (EscapeState.step (done ++ rest)) st) := by
  induction rest generalizing done st with
  | nil => simpa using h
  | cons b rest ih =>
      have hrest := ih (h.step b rest)
      simpa using hrest

end EscapeState.Reached

/-- **Copying in runs comes to the same as escaping byte by byte.** -/
theorem appendEscaped_eq (dst bytes : Bytes) : appendEscaped dst bytes = dst ++ escapeBytes bytes := by
  have hstart : EscapeState.Reached dst [] ⟨dst, 0⟩ := ⟨Nat.le_refl 0, rfl⟩
  exact (hstart.run bytes).written

theorem utf8_quote (cs : List Char) :
    utf8 (quote cs) = quoteByte :: escapeBytes (utf8 cs) ++ [quoteByte] := by
  rw [quote, List.cons_append, utf8_cons, utf8_append, ← escapeBytes_utf8]
  rfl

theorem utf8_quoted (s : String) :
    utf8 (quoted s) = quoteByte :: escapeBytes (utf8 s.toList) ++ [quoteByte] :=
  utf8_quote s.toList

/-- Quoting a text in a destination comes to the same as encoding the quoted text. -/
theorem appendQuoted_eq (dst : Bytes) (s : String) :
    appendQuoted dst s = dst ++ utf8 (quoted s) := by
  rw [appendQuoted, appendEscaped_eq, utf8_quoted]
  simp

/-! ### Scanning -/

/-- The bytes up to the first quotation mark that stands behind no backslash, and what follows it.
`escaped` says that the next byte does stand behind one. -/
def untilQuote : Bool → Bytes → Option (Bytes × Bytes)
  | _, [] => none
  | true, b :: bytes => (untilQuote false bytes).map fun (raw, rest) => (b :: raw, rest)
  | false, b :: bytes =>
    if b = quoteByte then some ([], bytes)
    else (untilQuote (b == solidusByte) bytes).map fun (raw, rest) => (b :: raw, rest)

/-- Reads a JSON string off the front of bytes: its text, and the bytes behind its closing quotation
mark. -/
def scanString : Bytes → Option (String × Bytes)
  | [] => none
  | b :: bytes =>
    if b = quoteByte then
      match untilQuote false bytes with
      | none => none
      | some (raw, rest) =>
        match (text? raw).map fun text => stringBody (text.toList ++ ['"']) with
        | some (.ok (cs, [])) => some (String.ofList cs, rest)
        | _ => none
    else none

section UntilQuote

variable {b : UInt8} {bytes raw rest : Bytes} (h : untilQuote false bytes = some (raw, rest))
include h

theorem untilQuote_plain (hquote : b ≠ quoteByte) (hsolidus : b ≠ solidusByte) :
    untilQuote false (b :: bytes) = some (b :: raw, rest) := by
  have hplain : (b == solidusByte) = false := by simpa using hsolidus
  rw [untilQuote, if_neg hquote, hplain, h]
  rfl

/-- The byte behind a backslash plays no part. -/
theorem untilQuote_pair :
    untilQuote false (solidusByte :: b :: bytes) = some (solidusByte :: b :: raw, rest) := by
  have hfirst : solidusByte ≠ quoteByte := by decide
  rw [untilQuote, if_neg hfirst, BEq.rfl, untilQuote, h]
  rfl

theorem untilQuote_escapeByte :
    untilQuote false (escapeByte b ++ bytes) = some (escapeByte b ++ raw, rest) := by
  generalize hform : escapeByte b = form
  cases form_iff.2 hform.symm with
  | short hmem => exact untilQuote_pair h
  | control hle hshort =>
      have hdigit : ∀ n < 16, hexByte n ≠ quoteByte ∧ hexByte n ≠ solidusByte := by decide
      have hlt : b.toNat < 256 := b.toNat_lt
      obtain ⟨hhigh, hhigh'⟩ := hdigit (b.toNat / 16) (by omega)
      obtain ⟨hlow, hlow'⟩ := hdigit (b.toNat % 16) (by omega)
      refine untilQuote_pair (untilQuote_plain (untilQuote_plain ?_ (by decide) (by decide))
        (by decide) (by decide))
      exact untilQuote_plain (untilQuote_plain h hlow hlow') hhigh hhigh'
  | itself hgt hquote hsolidus => exact untilQuote_plain h hquote hsolidus

end UntilQuote

/-- Escaped bytes are passed over up to the quotation mark behind them. -/
theorem untilQuote_escapeBytes (bytes rest : Bytes) :
    untilQuote false (escapeBytes bytes ++ quoteByte :: rest) = some (escapeBytes bytes, rest) := by
  induction bytes with
  | nil => rfl
  | cons b bytes ih =>
      rw [escapeBytes_cons, List.append_assoc]
      exact untilQuote_escapeByte ih

/-- A quoted text is read off the front of any bytes. -/
theorem scanString_quoted (s : String) (rest : Bytes) :
    scanString (quoteByte :: escapeBytes (utf8 s.toList) ++ quoteByte :: rest) = some (s, rest) := by
  have hread := stringBody_escape s.toList []
  have hend := untilQuote_escapeBytes (utf8 s.toList) rest
  rw [escapeBytes_utf8] at hend ⊢
  simp [scanString, hend, hread]

/-- No byte of an escape is a control. -/
theorem escapeByte_visible (b : UInt8) : ∀ x ∈ escapeByte b, 0x20 ≤ x := by
  have hdigit : ∀ n < 16, 0x20 ≤ hexByte n := by decide
  have hletter : ∀ p ∈ shortForms, 0x20 ≤ p.2 := by simp [shortForms]
  have hsolidus : 0x20 ≤ solidusByte := by decide
  generalize hform : escapeByte b = form
  cases form_iff.2 hform.symm with
  | short hmem => simpa [hsolidus] using hletter _ hmem
  | control hle hshort =>
      have hlt : b.toNat < 256 := b.toNat_lt
      have hhigh := hdigit (b.toNat / 16) (by omega)
      have hlow := hdigit (b.toNat % 16) (by omega)
      simp only [List.forall_mem_cons]
      exact ⟨hsolidus, by decide, by decide, by decide, hhigh, hlow, by simp⟩
  | itself hgt hquote hsolidus =>
      intro x hx
      rw [List.mem_singleton.1 hx]
      exact UInt8.le_iff_toNat_le.2 (UInt8.lt_iff_toNat_lt.1 hgt)

/-- **Escaping is lossless and delimits itself.** Whatever a destination holds, what is appended is the
forms of the bytes, one after the other. So escaping distributes over concatenation, writes no control,
keeps text valid, and tells different bytes apart. A scanner that is started on a quoted text, whatever
follows it, stops at the quotation mark that was written last, answers the text, and leaves what
follows. -/
theorem appendEscaped_lossless :
    (∀ b bytes, Form b bytes ↔ bytes = escapeByte b) ∧
    (∀ dst bytes, appendEscaped dst bytes = dst ++ bytes.flatMap escapeByte) ∧
    (∀ dst a b, appendEscaped dst (a ++ b) = appendEscaped (appendEscaped dst a) b) ∧
    (∀ bytes, ∀ x ∈ appendEscaped [] bytes, 0x20 ≤ x) ∧
    (∀ dst bytes, Valid dst → Valid bytes → Valid (appendEscaped dst bytes)) ∧
    (∀ dst, Function.Injective (appendEscaped dst)) ∧
    (∀ dst s, appendQuoted dst s = dst ++ utf8 (quoted s)) ∧
    (∀ dst s rest, scanString ((appendQuoted dst s ++ rest).drop dst.length) = some (s, rest)) := by
  refine ⟨fun b bytes => form_iff, appendEscaped_eq, ?_, ?_, ?_, ?_, appendQuoted_eq, ?_⟩
  · intro dst a b
    simp [appendEscaped_eq]
  · intro bytes x hx
    rw [appendEscaped_eq] at hx
    obtain ⟨b, -, hb⟩ := List.mem_flatMap.1 hx
    exact escapeByte_visible b x hb
  · intro dst bytes hdst hbytes
    obtain ⟨cs, rfl⟩ := valid_iff.1 hdst
    obtain ⟨ds, rfl⟩ := valid_iff.1 hbytes
    refine valid_iff.2 ⟨cs ++ escape ds, ?_⟩
    rw [appendEscaped_eq, escapeBytes_utf8, utf8_append]
  · intro dst a b h
    simp only [appendEscaped_eq] at h
    exact escapeBytes_injective (List.append_cancel_left h)
  · intro dst s rest
    have hsplit : (appendQuoted dst s ++ rest).drop dst.length =
        quoteByte :: escapeBytes (utf8 s.toList) ++ quoteByte :: rest := by
      rw [appendQuoted_eq, utf8_quoted]
      simp
    rw [hsplit]
    exact scanString_quoted s rest

/-- The text ends in a quotation mark and a backslash. It is written behind a byte that is no text, and
what follows starts with a quotation mark and is no text either. A letter of two bytes and a line break
stay text. -/
theorem appendEscaped_lossless_trailing :
    appendQuoted [0xFF] "a\"\\" = [0xFF, 0x22, 0x61, 0x5C, 0x22, 0x5C, 0x5C, 0x22] ∧
      scanString ((appendQuoted [0xFF] "a\"\\" ++ [0x22, 0xFF]).drop 1) = some ("a\"\\", [0x22, 0xFF]) ∧
      Valid (appendEscaped [0x61] [0xC3, 0xA9, 0x0A]) := by
  obtain ⟨-, -, -, -, hvalid, -, -, hscan⟩ := appendEscaped_lossless
  have hdst : Valid [0x61] := valid_iff.2 ⟨['a'], by decide⟩
  have hbytes : Valid [0xC3, 0xA9, 0x0A] := valid_iff.2 ⟨['é', '\n'], by decide⟩
  exact ⟨by decide, hscan [0xFF] "a\"\\" [0x22, 0xFF], hvalid _ _ hdst hbytes⟩

end LineLog.Text
