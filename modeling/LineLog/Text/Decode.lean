import LineLog.Text.Bytes
/-!
# LineLog.Text.Decode

Characters for bytes that need not be text.

`text?` answers for well-formed bytes only. The two readings here answer for all of them: one takes every
byte for a character of its own, so that bytes can be cut and compared as text is, and one is for showing
bytes to a reader.

Design points:

* `latin` loses nothing, and means nothing beyond the byte 127.
* `lossy` reads text as it is (`lossy_utf8`). Elsewhere it puts one replacement character in the place of
  as many bytes as could have begun a character, and of one byte where none could.
* Bytes that belong to the character before them are stepped over one by one, which keeps the recursion
  on the bytes.
-/

namespace LineLog.Text

/-- Every byte taken for the character of its number. -/
def latin (bytes : Bytes) : List Char :=
  bytes.map fun b => Char.ofNat b.toNat

/-! ### Replacing what is malformed -/

/-- The bytes that can stand behind the first byte of a character: a least and a greatest one for each
place. -/
def tailRanges (first : UInt8) : List (UInt8 × UInt8) :=
  let tail := (0x80, 0xBF)
  if first < 0xC2 then []
  else if first < 0xE0 then [tail]
  else if first = 0xE0 then [(0xA0, 0xBF), tail]
  else if first = 0xED then [(0x80, 0x9F), tail]
  else if first < 0xF0 then [tail, tail]
  else if first = 0xF0 then [(0x90, 0xBF), tail, tail]
  else if first < 0xF4 then [tail, tail, tail]
  else if first = 0xF4 then [(0x80, 0x8F), tail, tail]
  else []

/-- How many bytes there are up to the first one that is outside the range of its place. -/
def tailLength : List (UInt8 × UInt8) → Bytes → Nat
  | range :: ranges, byte :: bytes =>
    if range.1 ≤ byte ∧ byte ≤ range.2 then tailLength ranges bytes + 1 else 0
  | _, _ => 0

/-- What is shown in the place of malformed bytes. -/
def replacement : Char := '\uFFFD'

/-- The text of the bytes behind the first `skip`. -/
def lossyFrom : Nat → Bytes → List Char
  | _, [] => []
  | skip + 1, _ :: bytes => lossyFrom skip bytes
  | 0, first :: bytes =>
    match (first :: bytes).toByteArray.utf8DecodeChar? 0 with
    | some c => c :: lossyFrom (c.utf8Size - 1) bytes
    | none => replacement :: lossyFrom (tailLength (tailRanges first) bytes) bytes

/-- The text that bytes show, with a replacement character for each malformed part. -/
def lossy (bytes : Bytes) : List Char :=
  lossyFrom 0 bytes

theorem lossyFrom_append (front behind : Bytes) :
    lossyFrom front.length (front ++ behind) = lossy behind := by
  induction front with
  | nil => rfl
  | cons b front ih => exact ih

theorem lossy_char (c : Char) (behind : Bytes) :
    lossy (String.utf8EncodeChar c ++ behind) = c :: lossy behind := by
  have hlength := String.length_utf8EncodeChar c
  have hdecode : (String.utf8EncodeChar c ++ behind).toByteArray.utf8DecodeChar? 0 = some c := by
    rw [List.toByteArray_append]
    exact ByteArray.utf8DecodeChar?_utf8EncodeChar_append
  cases hbytes : String.utf8EncodeChar c with
  | nil =>
      have hpos := c.utf8Size_pos
      rw [hbytes, List.length_nil] at hlength
      omega
  | cons first tail =>
      rw [hbytes, List.cons_append] at hdecode
      rw [hbytes, List.length_cons] at hlength
      rw [List.cons_append, lossy, lossyFrom, hdecode]
      dsimp only
      rw [← hlength, Nat.add_sub_cancel, lossyFrom_append]

/-- Text is read as it is. -/
theorem lossy_utf8 (cs : List Char) : lossy (utf8 cs) = cs := by
  induction cs with
  | nil => rfl
  | cons c cs ih => rw [utf8_cons, lossy_char, ih]

/-- Three bytes of a character that needs four, a first byte with nothing behind it, and a byte that begins
no character. -/
example : lossy [0xF0, 0x9F, 0x98, 0x62, 0xE4, 0xFC] = ['\uFFFD', 'b', '\uFFFD', '\uFFFD'] := by
  decide

end LineLog.Text
