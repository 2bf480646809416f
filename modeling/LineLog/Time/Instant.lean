import LineLog.Time.Calendar
/-!
# LineLog.Time.Instant

Points in time, and how a clock at a fixed offset shows them.

Design points:

* An instant counts seconds and nanoseconds from 1970-01-01T00:00:00 UTC. The
  nanoseconds point forward also before that moment.
* A leap second is the last second of a minute with 10^9 or more nanoseconds; a
  clock shows it as second 60.
* The offset is part of the value: it only decides how the instant is shown.
-/

namespace LineLog.Time

/-- Nanoseconds in a second. -/
def nanosPerSecond : Nat := 1000000000

/-- A point in time, shown `offset` seconds east of UTC. -/
structure Instant where
  secs : Int
  nanos : Nat
  offset : Int := 0
  deriving Repr, DecidableEq

namespace Instant

/-- The first second that can be shown, -262143-01-01T00:00:00. -/
def firstSecond : Int := -8334601228800

/-- The last second that can be shown, +262142-12-31T23:59:59. -/
def lastSecond : Int := 8210266876799

/-- In the range of the calendar; a leap second only at the end of a minute; less than a day of offset. -/
def Valid (t : Instant) : Prop :=
  firstSecond ≤ t.secs ∧ t.secs ≤ lastSecond ∧
  t.nanos < 2 * nanosPerSecond ∧ (t.nanos < nanosPerSecond ∨ t.secs % 60 = 59) ∧
  -86400 < t.offset ∧ t.offset < 86400

instance (t : Instant) : Decidable t.Valid := by
  unfold Valid
  infer_instance

/-- The instant 1970-01-01T00:00:00 UTC. -/
def epoch : Instant := ⟨0, 0, 0⟩

/-- The same instant, shown in UTC. -/
def inUtc (t : Instant) : Instant :=
  { t with offset := 0 }

/-- The seconds that a clock at the instant's offset has counted. -/
def localSeconds (t : Instant) : Int :=
  t.secs + t.offset

/-- The day number on the local calendar. -/
def days (t : Instant) : Int :=
  t.localSeconds / 86400

/-- The local date. -/
def date (t : Instant) : Date :=
  Date.ofDays t.days

/-- Seconds since local midnight. -/
def secondOfDay (t : Instant) : Nat :=
  (t.localSeconds % 86400).toNat

/-- The hour of the local clock. -/
def hour (t : Instant) : Nat :=
  t.secondOfDay / 3600

/-- The minute of the local clock. -/
def minute (t : Instant) : Nat :=
  t.secondOfDay / 60 % 60

/-- The second of the local clock, one more in a leap second. -/
def second (t : Instant) : Nat :=
  t.secondOfDay % 60 + t.nanos / nanosPerSecond

/-- The hour on a dial of twelve. -/
def hour12 (t : Instant) : Nat :=
  if t.hour % 12 = 0 then 12 else t.hour % 12

/-- The nanoseconds within the shown second. -/
def subsecond (t : Instant) : Nat :=
  t.nanos % nanosPerSecond

end Instant
end LineLog.Time
