/-!
# LineLog.Decimal.Binary

Binary floating-point numbers, taken apart exactly.

A finite number is `± mantissa * 2 ^ exponent` over the naturals and integers, so
that everything said about its decimal forms is exact arithmetic.

Design points:

* `Layout` holds the two field widths of an interchange format; the two formats
  in use are `single` and `double`.
* A decoded or rounded number is **canonical**: its mantissa has full width
  unless the exponent is the least one. Canonical numbers are the ones whose
  neighbours can be told from the mantissa (`Finite.narrowBelow`).
* `round` goes to nearest with ties to even, and to infinity past the largest
  finite number.
-/

namespace LineLog.Decimal

-- Powers of natural numbers are the core ones, whatever else is imported.
attribute [local instance (high)] instPowNat

/-- The field widths of a binary interchange format. -/
structure Layout where
  fractionBits : Nat
  exponentBits : Nat
  deriving Repr, DecidableEq

namespace Layout

def single : Layout := ⟨23, 8⟩

def double : Layout := ⟨52, 11⟩

/-- Half the number of exponent codes, less one. -/
def bias (l : Layout) : Nat :=
  2 ^ (l.exponentBits - 1) - 1

/-- The exponent of the last place of the smallest numbers. -/
def minExponent (l : Layout) : Int :=
  1 - (l.bias : Int) - l.fractionBits

/-- The exponent of the last place of the largest numbers. -/
def maxExponent (l : Layout) : Int :=
  (l.bias : Int) - l.fractionBits

end Layout

/-- A finite number `± mantissa * 2 ^ exponent`. -/
structure Finite where
  negative : Bool
  mantissa : Nat
  exponent : Int
  deriving Repr, DecidableEq

/-- What a floating-point word stands for. -/
inductive Binary
  | nan
  | infinite (negative : Bool)
  | finite (x : Finite)
  deriving Repr, DecidableEq

namespace Binary

/-- Decode a word of the format `l`. -/
def ofWord (l : Layout) (word : Nat) : Binary :=
  let fraction := word % 2 ^ l.fractionBits
  let code := word / 2 ^ l.fractionBits % 2 ^ l.exponentBits
  let negative := word / 2 ^ (l.fractionBits + l.exponentBits) % 2 == 1
  if code = 2 ^ l.exponentBits - 1 then
    if fraction = 0 then .infinite negative else .nan
  else if code = 0 then
    .finite ⟨negative, fraction, l.minExponent⟩
  else
    .finite ⟨negative, 2 ^ l.fractionBits + fraction, (code : Int) - 1 + l.minExponent⟩

/-- What a double-precision number stands for. -/
def ofFloat (x : Float) : Binary :=
  ofWord .double x.toBits.toNat

/-- A number, and not an infinity. -/
def isFinite : Binary → Bool
  | .finite _ => true
  | _ => false

/-- Positive, or a zero of either sign. Not a number is neither. -/
def nonnegative : Binary → Bool
  | .nan => false
  | .infinite negative => !negative
  | .finite x => !x.negative || x.mantissa == 0

end Binary

namespace Finite

/-- The number below `x` is half as far away as the number above it. -/
def narrowBelow (l : Layout) (x : Finite) : Bool :=
  x.mantissa == 2 ^ l.fractionBits && decide (l.minExponent < x.exponent)

/-- The number of binary digits of `n`. -/
def bitLength (n : Nat) : Nat :=
  if n = 0 then 0 else Nat.log2 n + 1

/-- The nearest integer to `n / 2 ^ k`, halves to the even neighbour. -/
def roundShift (n k : Nat) : Nat :=
  let q := n / 2 ^ k
  let r := n % 2 ^ k
  if 2 * r < 2 ^ k then q
  else if 2 * r = 2 ^ k then q + q % 2
  else q + 1

/-- The number of the format `l` that is nearest to `x`. -/
def round (l : Layout) (x : Finite) : Binary :=
  let wanted := x.exponent + bitLength x.mantissa - (l.fractionBits + 1)
  let exponent := if wanted < l.minExponent then l.minExponent else wanted
  let mantissa :=
    if exponent ≤ x.exponent then x.mantissa * 2 ^ (x.exponent - exponent).toNat
    else roundShift x.mantissa (exponent - x.exponent).toNat
  let carried := mantissa = 2 ^ (l.fractionBits + 1)
  let mantissa := if carried then 2 ^ l.fractionBits else mantissa
  let exponent := if carried then exponent + 1 else exponent
  if l.maxExponent < exponent then .infinite x.negative
  else .finite ⟨x.negative, mantissa, exponent⟩

/-- The number of the format `l` that is nearest to the product. -/
def mul (l : Layout) (x y : Finite) : Binary :=
  round l ⟨x.negative != y.negative, x.mantissa * y.mantissa, x.exponent + y.exponent⟩

/-- The number of the format `l` that is nearest to `n`. -/
def ofNat (l : Layout) (n : Nat) : Binary :=
  round l ⟨false, n, 0⟩

end Finite
end LineLog.Decimal
