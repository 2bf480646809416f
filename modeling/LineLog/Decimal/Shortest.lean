import LineLog.Decimal.Binary
/-!
# LineLog.Decimal.Shortest

The fewest decimal digits that read back to a given binary number.

A decimal reads back to `x` when it lies among the reals that round to `x`: from
halfway to the number below up to halfway to the number above, both ends included
exactly when the mantissa is even. Of all decimals that read back, `shortest`
takes one with the fewest digits, and of those the one nearest to `x`.

Design points:

* Everything is a comparison of naturals by cross-multiplication
  (`compareScaled`); nothing is rounded on the way.
* The search tries the grids of 1, 2, … digits from the coarsest on. On each it
  tests the two neighbours of `x`: if any point of the grid reads back, one of
  these does.
* Two neighbours that are equally near are an exact tie, for the caller to decide.
-/

namespace LineLog.Decimal

-- Powers of natural numbers are the core ones, whatever else is imported.
attribute [local instance (high)] instPowNat

/-- The decimal number `digits * 10 ^ exponent`. -/
structure Scaled where
  digits : Nat
  exponent : Int
  deriving Repr, DecidableEq

/-- Which of two equally near decimals is taken. -/
inductive Tie
  | even
  | up
  deriving Repr, DecidableEq

/-- Compare `a * 10 ^ i` with `b * 2 ^ j`. -/
def compareScaled (a : Nat) (i : Int) (b : Nat) (j : Int) : Ordering :=
  compare (a * 10 ^ i.toNat * 2 ^ (-j).toNat) (b * 2 ^ j.toNat * 10 ^ (-i).toNat)

namespace Finite

/-- `d` lies among the reals that round to the magnitude of `x`. -/
def readsBack (l : Layout) (x : Finite) (d : Scaled) : Bool :=
  let low := 4 * x.mantissa - (if x.narrowBelow l then 1 else 2)
  let high := 4 * x.mantissa + 2
  let closed := x.mantissa % 2 == 0
  let below := compareScaled d.digits d.exponent low (x.exponent - 2)
  let above := compareScaled d.digits d.exponent high (x.exponent - 2)
  (below == .gt || closed && below == .eq) && (above == .lt || closed && above == .eq)

/-- The magnitude of `x` as a fraction of naturals. -/
def ratio (x : Finite) : Nat × Nat :=
  (x.mantissa * 2 ^ x.exponent.toNat, 2 ^ (-x.exponent).toNat)

/-- The least `k` with `|x| < 10 ^ k`, for `x` other than zero. -/
def decimalScale (x : Finite) : Int :=
  let (num, den) := x.ratio
  let k : Int := (Nat.toDigits 10 num).length - (Nat.toDigits 10 den).length
  if num * 10 ^ (-k).toNat < den * 10 ^ k.toNat then k else k + 1

/-- The neighbour of `x` on the grid of multiples of `10 ^ exponent` that reads back, if one does. -/
def onGrid? (l : Layout) (tie : Tie) (x : Finite) (exponent : Int) : Option Scaled :=
  let (num, den) := x.ratio
  let num := num * 10 ^ (-exponent).toNat
  let den := den * 10 ^ exponent.toNat
  let floor := num / den
  let lower : Scaled := ⟨floor, exponent⟩
  let upper : Scaled := ⟨floor + 1, exponent⟩
  match x.readsBack l lower, x.readsBack l upper with
  | false, false => none
  | true, false => some lower
  | false, true => some upper
  | true, true =>
    match compare (2 * (num % den)) den with
    | .lt => some lower
    | .gt => some upper
    | .eq =>
      match tie with
      | .even => some (if floor % 2 = 0 then lower else upper)
      | .up => some upper

/-- The exact decimal value of the magnitude of `x`. -/
def exactDecimal (x : Finite) : Scaled :=
  ⟨x.mantissa * 2 ^ x.exponent.toNat * 5 ^ (-x.exponent).toNat, -((-x.exponent).toNat : Int)⟩

/-- The most digits that a shortest decimal can need. -/
def maxDigits : Nat := 17

/-- The shortest decimal of the magnitude of `x`, for `x` other than zero. -/
def shortest (l : Layout) (tie : Tie) (x : Finite) : Scaled :=
  let k := x.decimalScale
  let grids := (List.range maxDigits).map fun n => k - (n + 1 : Nat)
  (grids.findSome? (x.onGrid? l tie)).getD x.exactDecimal

end Finite
end LineLog.Decimal
