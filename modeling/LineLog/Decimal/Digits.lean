/-!
# LineLog.Decimal.Digits

Decimal numerals as text.

Design points:

* A natural number is written by `Nat.toDigits 10`: no leading zero, and `0` for
  zero. A negative integer has one leading minus.
* `fraction` writes the digits after the point. Trailing zeros are dropped, and
  a zero fraction is written as nothing at all, point included, so a numeral
  never ends in a point.
-/

namespace LineLog.Decimal

/-- A natural number in decimal. -/
def natural (n : Nat) : List Char :=
  Nat.toDigits 10 n

/-- An integer in decimal. -/
def integer : Int → List Char
  | .ofNat n => natural n
  | .negSucc n => '-' :: natural (n + 1)

@[simp] theorem integer_natCast (n : Nat) : integer (n : Int) = natural n := rfl

/-- Fill `cs` on the left with `fill` up to `width` characters. Longer text is left as it is. -/
def padLeft (width : Nat) (fill : Char) (cs : List Char) : List Char :=
  List.replicate (width - cs.length) fill ++ cs

theorem length_padLeft (width : Nat) (fill : Char) (cs : List Char) :
    (padLeft width fill cs).length = max width cs.length := by
  simp [padLeft]
  omega

/-- A natural number with at least `width` digits. -/
def zeroPadded (width n : Nat) : List Char :=
  padLeft width '0' (natural n)

/-- Digits without the zeros at their end. -/
def dropTrailingZeros (cs : List Char) : List Char :=
  (cs.reverse.dropWhile (· == '0')).reverse

/-- The part of a numeral from the point on, for `numerator / 10 ^ places`. -/
def fraction (places numerator : Nat) : List Char :=
  if numerator = 0 then []
  else '.' :: dropTrailingZeros (zeroPadded places numerator)

@[simp] theorem fraction_zero (places : Nat) : fraction places 0 = [] := rfl

end LineLog.Decimal
