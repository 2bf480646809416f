/-!
# LineLog.Text.Bytes

Byte strings and their relation to text.

Records are text while they are assembled and bytes once they reach a sink. A
sink may stop in the middle of a character, so what it holds is a list of bytes
that need not be the encoding of any text.

Design points:

* `utf8` is the encoding of text, one character at a time, so it distributes
  over concatenation (`utf8_append`).
* `text?` is the partial inverse: it answers exactly for well-formed bytes.
-/

namespace LineLog

/-- A byte string. -/
abbrev Bytes := List UInt8

namespace Text

/-- The UTF-8 encoding of a text. -/
def utf8 (cs : List Char) : Bytes :=
  cs.flatMap String.utf8EncodeChar

@[simp] theorem utf8_nil : utf8 [] = [] := rfl

@[simp] theorem utf8_cons (c : Char) (cs : List Char) :
    utf8 (c :: cs) = String.utf8EncodeChar c ++ utf8 cs := by
  simp [utf8]

@[simp] theorem utf8_append (a b : List Char) : utf8 (a ++ b) = utf8 a ++ utf8 b := by
  simp [utf8]

/-- The text that a byte string encodes, if it encodes one. -/
def text? (bytes : Bytes) : Option String :=
  String.fromUTF8? bytes.toByteArray

end Text
end LineLog
