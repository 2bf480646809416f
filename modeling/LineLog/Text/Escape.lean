import LineLog.Text.Bytes
/-!
# LineLog.Text.Escape

The escaping of text inside a JSON string.

Only the quotation mark, the reverse solidus and the codes below 32 are
escaped; everything else is copied. Five controls have a short form, the
others are written `\u00xx` with lower-case digits.

Design points:

* `escapeOf?` is the only table. `escape` applies it to characters and
  `escapeBytes` to bytes, and since every byte of a multi-byte sequence is above
  127, the two agree on encoded text.
* Both work item by item, so they distribute over concatenation: text may be
  escaped in the pieces in which it arrives.
* Destinations are written to in runs (`appendEscaped`): bytes that stand for
  themselves are copied together, once a byte that does not ends their run.
-/

namespace LineLog.Text

/-- The escape of the code `n`, for the codes that are not copied. -/
def escapeOf? (n : Nat) : Option (List Char) :=
  if n = 0x22 then some ['\\', '"']
  else if n = 0x5C then some ['\\', '\\']
  else if n = 0x08 then some ['\\', 'b']
  else if n = 0x0C then some ['\\', 'f']
  else if n = 0x0A then some ['\\', 'n']
  else if n = 0x0D then some ['\\', 'r']
  else if n = 0x09 then some ['\\', 't']
  else if n < 0x20 then
    some ['\\', 'u', '0', '0', Nat.digitChar (n / 16), Nat.digitChar (n % 16)]
  else none

/-! ### Characters -/

/-- One character as it stands inside a JSON string. -/
def escapeChar (c : Char) : List Char :=
  (escapeOf? c.toNat).getD [c]

/-- A text as it stands inside a JSON string, without the quotation marks. -/
def escape (cs : List Char) : List Char :=
  cs.flatMap escapeChar

@[simp] theorem escape_nil : escape [] = [] := rfl

@[simp] theorem escape_cons (c : Char) (cs : List Char) :
    escape (c :: cs) = escapeChar c ++ escape cs := by
  simp [escape]

@[simp] theorem escape_append (a b : List Char) : escape (a ++ b) = escape a ++ escape b := by
  simp [escape]

/-- A text as a whole JSON string. -/
def quote (cs : List Char) : List Char :=
  '"' :: escape cs ++ ['"']

/-- A string as a whole JSON string. -/
def quoted (s : String) : List Char :=
  quote s.toList

/-! ### Bytes -/

/-- One byte as it stands inside a JSON string. -/
def escapeByte (b : UInt8) : Bytes :=
  match escapeOf? b.toNat with
  | some cs => cs.map fun c => c.toNat.toUInt8
  | none => [b]

/-- A byte string as it stands inside a JSON string. -/
def escapeBytes (bytes : Bytes) : Bytes :=
  bytes.flatMap escapeByte

@[simp] theorem escapeBytes_nil : escapeBytes [] = [] := rfl

@[simp] theorem escapeBytes_cons (b : UInt8) (bs : Bytes) :
    escapeBytes (b :: bs) = escapeByte b ++ escapeBytes bs := by
  simp [escapeBytes]

@[simp] theorem escapeBytes_append (a b : Bytes) :
    escapeBytes (a ++ b) = escapeBytes a ++ escapeBytes b := by
  simp [escapeBytes]

/-! ### Writing in runs -/

/-- The byte of a quotation mark. -/
def quoteByte : UInt8 := 0x22

/-- The byte of a reverse solidus. -/
def solidusByte : UInt8 := 0x5C

/-- The byte stands for itself. -/
def copied (b : UInt8) : Bool :=
  decide (0x1F < b) && b != quoteByte && b != solidusByte

/-- Where writing has got to: what the destination holds, and the place in the source at which the run
under way starts. -/
structure EscapeState where
  written : Bytes
  start : Nat

/-- Go past the byte at the place `i` of the source `bytes`. One that does not stand for itself is written
behind the run before it, and the next run starts behind it. -/
def EscapeState.step (bytes : Bytes) (st : EscapeState) : UInt8 × Nat → EscapeState
  | (b, i) =>
    if copied b then st
    else ⟨st.written ++ (bytes.take i).drop st.start ++ escapeByte b, i + 1⟩

/-- Escape `bytes` behind what `dst` holds. -/
def appendEscaped (dst bytes : Bytes) : Bytes :=
  let st := bytes.zipIdx.foldl (EscapeState.step bytes) ⟨dst, 0⟩
  st.written ++ bytes.drop st.start

/-- Write a text as a JSON string behind what `dst` holds. -/
def appendQuoted (dst : Bytes) (s : String) : Bytes :=
  appendEscaped (dst ++ [quoteByte]) (utf8 s.toList) ++ [quoteByte]

/-- Write a text between quotation marks behind what `dst` holds, as it stands. -/
def appendVerbatim (dst : Bytes) (cs : List Char) : Bytes :=
  dst ++ [quoteByte] ++ utf8 cs ++ [quoteByte]

end LineLog.Text
