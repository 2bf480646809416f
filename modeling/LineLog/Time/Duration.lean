import LineLog.Decimal.Digits
import LineLog.Time.Instant
/-!
# LineLog.Time.Duration

Lengths of time, as text for people and as a count of units.

Design points:

* A duration is a whole number of nanoseconds. Fields keep it in 64 bits; longer
  durations are held at the ends of that range (`clamp`).
* The text form has hours, minutes and seconds from a second on, and a single
  smaller unit below. Only the last component has a fraction.
* Division by a unit drops the remainder and has no result for a zero unit or
  where the quotient leaves the range.
-/

namespace LineLog.Time

open Decimal

namespace Duration

/-- The 64-bit number nearest to `n`. -/
def clamp (n : Int) : Int64 :=
  if n < Int64.minValue.toInt then Int64.minValue
  else if Int64.maxValue.toInt < n then Int64.maxValue
  else Int64.ofInt n

/-- The duration of `secs` seconds and `nanos` nanoseconds. -/
def ofParts (secs : Int) (nanos : Nat) : Int :=
  secs * nanosPerSecond + nanos

/-- A duration below a second: the largest unit that it fills, with a fraction. -/
def belowSecond (total : Nat) : List Char :=
  if total < 1000 then natural total ++ ['n', 's']
  else if total < 1000000 then natural (total / 1000) ++ fraction 3 (total % 1000) ++ ['µ', 's']
  else natural (total / 1000000) ++ fraction 6 (total % 1000000) ++ ['m', 's']

/-- A duration of a second or more: hours and minutes as far as it reaches them, and seconds. -/
def fromSecond (total : Nat) : List Char :=
  let secs := total / nanosPerSecond
  let hours := secs / 3600
  let minutes := secs / 60 % 60
  (if 0 < hours then natural hours ++ ['h'] else []) ++
  (if 0 < hours ∨ 0 < minutes then natural minutes ++ ['m'] else []) ++
  natural (secs % 60) ++ fraction 9 (total % nanosPerSecond) ++ ['s']

/-- The text of a positive duration. -/
def magnitude (total : Nat) : List Char :=
  if total < nanosPerSecond then belowSecond total else fromSecond total

/-- The text of a duration. -/
def text (n : Int) : List Char :=
  if n = 0 then ['0', 's']
  else if n < 0 then '-' :: magnitude n.natAbs
  else magnitude n.natAbs

/-- How many whole units a duration holds. -/
def count? (n unit : Int64) : Option Int :=
  if unit = 0 ∨ (n = Int64.minValue ∧ unit = -1) then none
  else some (n.toInt.tdiv unit.toInt)

end Duration
end LineLog.Time
