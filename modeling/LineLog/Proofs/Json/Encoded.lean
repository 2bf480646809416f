import LineLog.Proofs.Json.Enclosed
import LineLog.Proofs.Json.Numeral
/-!
# LineLog.Proofs.Json.Encoded

JSON as bytes.

Sinks take bytes, so in the end it is bytes that must be readable. `treeOfBytes` and
`parseBytes` decode the bytes and then read the text; bytes that are not UTF-8 are
malformed. Encoded text is decoded to itself, and a text without control characters has
no byte below 32, since only a character below 128 is encoded by a byte below 128.

`decimal?` and `integer?` read bytes that hold one number and nothing else.
-/

namespace LineLog.Text

/-- Encoded text is decoded to itself. -/
@[simp] theorem text?_utf8 (cs : List Char) : text? (utf8 cs) = some (String.ofList cs) := by
  have hvalid : (utf8 cs).toByteArray.IsValidUTF8 := ⟨cs, rfl⟩
  rw [text?, String.fromUTF8?, dif_pos hvalid]
  rfl

/-- A character is encoded by itself, or by bytes above 127. -/
theorem utf8EncodeChar_byte {c : Char} {n : Nat} (hn : n ≤ 128) (h : n ≤ c.toNat) :
    ∀ b ∈ String.utf8EncodeChar c, n ≤ b.toNat := by
  have hval : n ≤ c.val.toNat := h
  intro b hb
  rw [String.utf8EncodeChar] at hb
  split at hb
  · obtain rfl := List.mem_singleton.1 hb
    simp only [UInt8.toNat_ofNat']
    omega
  · split at hb
    · simp only [List.mem_cons, List.not_mem_nil, or_false] at hb
      rcases hb with rfl | rfl
      · simp only [UInt8.toNat_ofNat']
        omega
      · simp only [UInt8.toNat_ofNat']
        omega
    · split at hb
      · simp only [List.mem_cons, List.not_mem_nil, or_false] at hb
        rcases hb with rfl | rfl | rfl <;>
        · simp only [UInt8.toNat_ofNat']
          omega
      · simp only [List.mem_cons, List.not_mem_nil, or_false] at hb
        rcases hb with rfl | rfl | rfl | rfl <;>
        · simp only [UInt8.toNat_ofNat']
          omega

end LineLog.Text

namespace LineLog.Json

open Text

/-- Reads a value off the front of a byte string. -/
def treeOfBytes (bytes : Bytes) : Except ReadError (Tree × List Char) :=
  match text? bytes with
  | none => .error .malformed
  | some s => tree s.toList

/-- Reads a byte string that holds one value and nothing else. -/
def parseBytes (bytes : Bytes) : Except ReadError Tree :=
  match text? bytes with
  | none => .error .malformed
  | some s => parse s.toList

/-- A text without control characters has no byte below 32. -/
theorem Visible.utf8 {cs : List Char} (h : Visible cs) : ∀ b ∈ utf8 cs, 0x20 ≤ b.toNat := by
  intro b hb
  obtain ⟨c, hc, hbc⟩ := List.mem_flatMap.1 hb
  exact utf8EncodeChar_byte (by decide) (h c hc) b hbc

namespace Compact

variable {text : List Char} {t : Tree}

/-- An encoded compact value is read off the front of bytes, and what closes it is left. -/
theorem treeOfBytes_append (h : Compact text t) {rest : List Char} (hrest : Closes rest) :
    treeOfBytes (utf8 text ++ utf8 rest) = .ok (t, rest) := by
  rw [← utf8_append, treeOfBytes, text?_utf8]
  simpa using h.tree_append hrest

/-- An encoded compact value is read with nothing left over. -/
theorem parseBytes (h : Compact text t) : parseBytes (utf8 text) = .ok t := by
  rw [Json.parseBytes, text?_utf8]
  simpa using h.parse

end Compact

/-! ### Numbers -/

/-- The worth of bytes that hold one number without an exponent. -/
def decimal? (bytes : Bytes) : Option ℚ :=
  match parseBytes bytes with
  | .ok (.number l) => if l.exponent = none then some l.value else none
  | _ => none

/-- The worth of bytes that hold one number without a point and without an exponent. -/
def integer? (bytes : Bytes) : Option Int :=
  match parseBytes bytes with
  | .ok (.number l) =>
    if l.places = [] ∧ l.exponent = none then
      some (if l.negative then -Nat.ofDigitChars 10 l.whole 0 else Nat.ofDigitChars 10 l.whole 0)
    else none
  | _ => none

theorem decimal?_plain {l : Literal} (hl : l.WellFormed) (he : l.exponent = none) :
    decimal? (utf8 l.plain) = some l.value := by
  simp only [decimal?, (Compact.number hl he).parseBytes, if_pos he]

@[simp] theorem decimal?_integer (n : Int) : decimal? (utf8 (Decimal.integer n)) = some (n : ℚ) := by
  rw [← Literal.plain_ofInt, decimal?_plain (Literal.ofInt_wellFormed n) rfl, Literal.value_ofInt]

@[simp] theorem integer?_integer (n : Int) : integer? (utf8 (Decimal.integer n)) = some n := by
  have hworth : (if n < 0 then -(n.natAbs : Int) else n.natAbs) = n := by
    split <;> omega
  simpa [integer?, (Compact.integer n).parseBytes, Literal.ofInt] using hworth

end LineLog.Json
