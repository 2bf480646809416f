import LineLog.Decimal.Digits
import LineLog.Decimal.Shortest
/-!
# LineLog.Decimal.Style

How a floating-point number is laid out as text.

The digits are those of `Finite.shortest`; a `Style` decides the rest. Three
styles are in use: `plain` for numbers in records, `precise` for values shown to
a developer, and `compact` for numbers inside marshalled objects.

Design points:

* A number is positional when the power of ten of its leading digit lies in the
  style's window; otherwise it has an exponent, without padding.
* The sign of a zero is kept in every style.
-/

namespace LineLog.Decimal

/-- The decisions that the digits leave open. -/
structure Style where
  /-- Powers of ten of the leading digit that are written positionally; `none` for all. -/
  window : Option (Int × Int)
  /-- A whole number is written with `.0`. -/
  pointZero : Bool
  /-- A positive exponent has a sign. -/
  exponentPlus : Bool
  /-- Which of two equally near shortest decimals is written. -/
  tie : Tie
  deriving Repr, DecidableEq

namespace Style

/-- Always positional, whole numbers without a point. -/
def plain : Style where
  window := none
  pointZero := false
  exponentPlus := false
  tie := .up

/-- Positional from `0.0001` up to sixteen whole digits, always with a point or an exponent. -/
def precise : Style where
  window := some (-4, 15)
  pointZero := true
  exponentPlus := false
  tie := .up

/-- Positional from `0.00001` up to sixteen whole digits, always with a point or an exponent; the
exponent always has a sign. -/
def compact : Style where
  window := some (-5, 15)
  pointZero := true
  exponentPlus := true
  tie := .even

/-- The leading digit's power of ten lies in the window. -/
def positional (s : Style) (power : Int) : Bool :=
  match s.window with
  | none => true
  | some (low, high) => decide (low ≤ power ∧ power ≤ high)

/-- What stands after the digits of a whole number. -/
def wholeSuffix (s : Style) : List Char :=
  if s.pointZero then ['.', '0'] else []

/-- The decimal `ds * 10 ^ exponent` without an exponent. `ds` has no trailing zero. -/
def layPositional (s : Style) (ds : List Char) (exponent : Int) : List Char :=
  if 0 ≤ exponent then
    ds ++ List.replicate exponent.toNat '0' ++ s.wholeSuffix
  else
    let places := (-exponent).toNat
    if places < ds.length then
      ds.take (ds.length - places) ++ '.' :: ds.drop (ds.length - places)
    else
      '0' :: '.' :: List.replicate (places - ds.length) '0' ++ ds

/-- The sign of a positive exponent. -/
def exponentSign (s : Style) (power : Int) : List Char :=
  if s.exponentPlus && decide (0 ≤ power) then ['+'] else []

/-- The digits with a point after the first and the exponent `power`. -/
def layScientific (s : Style) (ds : List Char) (power : Int) : List Char :=
  let point := match ds.drop 1 with
    | [] => []
    | rest => '.' :: rest
  ds.take 1 ++ point ++ 'e' :: s.exponentSign power ++ integer power

/-- A shortest decimal, its trailing zeros moved into the exponent. -/
def layOut (s : Style) (d : Scaled) : List Char :=
  let all := natural d.digits
  let ds := dropTrailingZeros all
  let exponent := d.exponent + (all.length - ds.length : Nat)
  let power := exponent + ds.length - 1
  if s.positional power then s.layPositional ds exponent else s.layScientific ds power

/-- A finite number of the format `l`. -/
def finite (s : Style) (l : Layout) (x : Finite) : List Char :=
  let magnitude := if x.mantissa = 0 then '0' :: s.wholeSuffix else s.layOut (x.shortest l s.tie)
  if x.negative then '-' :: magnitude else magnitude

/-- A double-precision number; not a number and the infinities have names. -/
def float (s : Style) (x : Float) : List Char :=
  match Binary.ofFloat x with
  | .nan => ['N', 'a', 'N']
  | .infinite negative => if negative then ['-', 'i', 'n', 'f'] else ['i', 'n', 'f']
  | .finite x => s.finite .double x

end Style
end LineLog.Decimal
