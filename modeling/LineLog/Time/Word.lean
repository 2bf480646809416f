import LineLog.Time.Format
/-!
# LineLog.Time.Word

Counts of time on 64-bit words.

The encodings of `LineLog.Time.Format` count in numbers of any size. Here the same counts are taken on
words, one step after the other, and there is no result where a step leaves the range of its words.

Design points:

* A step is the operation on numbers and a look at the range, so a word that comes out is exact.
* Lengths of time are divided on words too, and one that has no word is held at an end of the range
  (`Word.div?`, `Word.saturating`).
* Seconds and their units have a sign. The nanoseconds within a second have none, and what is missing
  from them to a full second must not go below zero.
* Strings show a clock and do not count, so they are left to `Format.render`.
-/

namespace LineLog.Time

open Decimal

namespace Word

/-- The word of a number. -/
def ofInt? (n : Int) : Option Int64 :=
  if Int64.minValue.toInt ≤ n ∧ n ≤ Int64.maxValue.toInt then some (Int64.ofInt n) else none

/-- The sum of two words. -/
def add? (a b : Int64) : Option Int64 :=
  ofInt? (a.toInt + b.toInt)

/-- The product of two words. -/
def mul? (a b : Int64) : Option Int64 :=
  ofInt? (a.toInt * b.toInt)

/-- The difference of two words without a sign. -/
def sub? (a b : UInt64) : Option UInt64 :=
  if b ≤ a then some (a - b) else none

/-- The quotient of two words, with the remainder dropped. Zero divides nothing. -/
def div? (a b : Int64) : Option Int64 :=
  if b = 0 then none else ofInt? (a.toInt.tdiv b.toInt)

/-- The word of a number, or the end of the range on the side of a number that has none. -/
def saturating (n : Int) : Int64 :=
  (ofInt? n).getD (if n < 0 then Int64.minValue else Int64.maxValue)

/-- Nanoseconds as far as they lie within a second. -/
def withinSecond (nanos : UInt32) : UInt64 :=
  let last := UInt64.ofNat (nanosPerSecond - 1)
  if nanos.toUInt64 ≤ last then nanos.toUInt64 else last

end Word

/-- `unixDecimal` on words. -/
def unixDecimal? (secs : Int64) (nanos : UInt32) : Option (List Char) :=
  let nanos := Word.withinSecond nanos
  if secs < 0 ∧ 0 < nanos then do
    let above ← Word.add? secs 1
    let missing ← Word.sub? (UInt64.ofNat nanosPerSecond) nanos
    return '-' :: natural above.toInt.natAbs ++ fraction 9 missing.toNat
  else
    some (integer secs.toInt ++ fraction 9 nanos.toNat)

namespace Instant

/-- Units since the epoch on words: `perSecond` for each second, and `within` in the current one. -/
def units? (t : Instant) (perSecond within : Nat) : Option Int64 := do
  let secs ← Word.ofInt? t.secs
  let whole ← Word.mul? secs (Int64.ofNat perSecond)
  Word.add? whole (Int64.ofNat within)

/-- `millis` on words. -/
def millis? (t : Instant) : Option Int64 :=
  t.units? 1000 (t.nanos / 1000000)

/-- `micros` on words. -/
def micros? (t : Instant) : Option Int64 :=
  t.units? 1000000 (t.nanos / 1000)

end Instant

/-- The JSON value of an instant with all counts on words. -/
def Format.render? (t : Instant) : Format → Option (List Char)
  | unixDecimal => (Word.ofInt? t.secs).bind (unixDecimal? · (UInt32.ofNat t.nanos))
  | unix => (Word.ofInt? t.secs).map (integer ·.toInt)
  | unixMillis => t.millis?.map (integer ·.toInt)
  | unixMicros => t.micros?.map (integer ·.toInt)
  | other => some (other.render t)

end LineLog.Time
