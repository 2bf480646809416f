/-!
# LineLog.Text.Classes

Classes of characters, as tables of code ranges.

Design points:

* `isBlank` is the property White_Space: what may surround a word.
* `upperAscii` is upper-casing as far as it ends in ASCII. Every character whose
  full upper-case form is ASCII has that form; all others stand for themselves.
-/

namespace LineLog.Text

/-- `n` lies in one of the closed ranges, which stand in ascending order. -/
def inRanges : List (Nat × Nat) → Nat → Bool
  | [], _ => false
  | (low, high) :: rest, n => if n < low then false else decide (n ≤ high) || inRanges rest n

/-! ### White space -/

/-- The codes with the property White_Space. -/
def blankRanges : List (Nat × Nat) :=
  [(0x9, 0xD), (0x20, 0x20), (0x85, 0x85), (0xA0, 0xA0), (0x1680, 0x1680), (0x2000, 0x200A),
   (0x2028, 0x2029), (0x202F, 0x202F), (0x205F, 0x205F), (0x3000, 0x3000)]

/-- White space. -/
def isBlank (c : Char) : Bool :=
  inRanges blankRanges c.toNat

/-- A text without the white space around it. -/
def trim (cs : List Char) : List Char :=
  ((cs.dropWhile isBlank).reverse.dropWhile isBlank).reverse

/-! ### Upper case -/

/-- Upper-casing as far as it ends in ASCII. -/
def upperAscii (c : Char) : List Char :=
  match c.toNat with
  | 0xDF => ['S', 'S']
  | 0x131 => ['I']
  | 0x17F => ['S']
  | 0xFB00 => ['F', 'F']
  | 0xFB01 => ['F', 'I']
  | 0xFB02 => ['F', 'L']
  | 0xFB03 => ['F', 'F', 'I']
  | 0xFB04 => ['F', 'F', 'L']
  | 0xFB05 | 0xFB06 => ['S', 'T']
  | _ => [c.toUpper]

/-- A text in upper case, as far as that ends in ASCII. -/
def upper (cs : List Char) : List Char :=
  cs.flatMap upperAscii

end LineLog.Text
