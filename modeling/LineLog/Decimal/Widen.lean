import LineLog.Decimal.Binary
/-!
# LineLog.Decimal.Widen

Single-precision numbers as double-precision ones.

Every single-precision number is a double-precision number too, so widening loses
nothing. A number that is not a number has one word only in double precision.

Design points:

* A finite number is brought to full width first: its mantissa is shifted up until it
  has as many binary digits as double precision keeps (`Finite.fullWidth`). Also the
  smallest single-precision numbers have room for that.
* The words are put together by the model of floating-point numbers that comes with
  the language (`Binary.unpacked`), so a widened number is one by construction.
-/

namespace LineLog.Decimal

open Float.Model

-- Powers of natural numbers are the core ones, whatever else is imported.
attribute [local instance (high)] instPowNat

/-- The sign of a number in the model of floating-point numbers. -/
def sign (negative : Bool) : UnpackedFloat.Sign :=
  if negative then .negative else .positive

namespace Finite

/-- How far the mantissa is shifted up to have all binary digits of the format `l`. -/
def headroom (l : Layout) (x : Finite) : Nat :=
  l.fractionBits - Nat.log2 x.mantissa

/-- The same number with a mantissa of full width. -/
def fullWidth (l : Layout) (x : Finite) : Finite :=
  ⟨x.negative, x.mantissa * 2 ^ x.headroom l, x.exponent - x.headroom l⟩

theorem fullWidth_mantissa_pos {l : Layout} {x : Finite} (h : x.mantissa ≠ 0) :
    0 < (x.fullWidth l).mantissa :=
  Nat.mul_pos (Nat.pos_of_ne_zero h) (Nat.two_pow_pos _)

end Finite

/-- A number in the model of floating-point numbers, for numbers that fit into double precision. -/
def Binary.unpacked : Binary → UnpackedFloat
  | nan => .notANumber
  | infinite negative => .infinity (sign negative)
  | finite x =>
    if h : x.mantissa = 0 then .zero (sign x.negative)
    else
      .finite (sign x.negative) (x.fullWidth .double).mantissa (x.fullWidth .double).exponent
        (Finite.fullWidth_mantissa_pos h)

/-- A single-precision number in double precision. -/
def widen (x : Float32) : Float :=
  .ofModel (.pack (Binary.ofWord .single x.toBits.toNat).unpacked)

end LineLog.Decimal
