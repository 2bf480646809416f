import LineLog.Text.Escape
import LineLog.Time.Layout
/-!
# LineLog.Time.Format

The encodings of an instant as a JSON value.

Four encodings count from the epoch and are JSON numbers; the others are JSON
strings that show a local date and clock.

Design points:

* A name in configuration text (`Format.ofKeyword`) selects one of the fixed
  encodings; any other text is a layout of its own.
* A seconds count with a fraction (`unixDecimal`) is the exact decimal value, also
  before the epoch, where the nanoseconds point against the sign.
* A leap second has more than 999999999 nanoseconds. Numbers with a fraction and
  RFC 3339 strings show the last nanosecond of its minute instead.
* An invalid layout gives a fixed message that quotes the layout.
-/

namespace LineLog.Time

open Decimal Text

/-- An encoding of instants. -/
inductive Format
  /-- RFC 3339 with as many fraction digits as needed. -/
  | rfc3339Nano
  /-- RFC 3339 to the second. -/
  | rfc3339
  /-- ISO 8601 in UTC with milliseconds. -/
  | iso8601
  /-- Seconds with a decimal fraction. -/
  | unixDecimal
  | unix
  | unixMillis
  | unixMicros
  /-- A layout of `%` specifiers. -/
  | custom (layout : String)
  deriving Repr, DecidableEq, Inhabited

namespace Format

/-- The encoding that a keyword names; any other text is a layout. -/
def ofKeyword (text : String) : Format :=
  if text = "" ∨ text = "UNIXDECIMAL" then unixDecimal
  else if text = "UNIX" then unix
  else if text = "UNIXMILLI" then unixMillis
  else if text = "UNIXMICRO" then unixMicros
  else if text = "RFC3339NANO" then rfc3339Nano
  else if text = "RFC3339" then rfc3339
  else if text = "ISO8601" then iso8601
  else custom text

/-- A text can stand where an encoding is wanted. -/
instance : Coe String Format := ⟨ofKeyword⟩

/-- The encoding is a JSON number. -/
def isNumeric : Format → Bool
  | unixDecimal | unix | unixMillis | unixMicros => true
  | rfc3339Nano | rfc3339 | iso8601 | custom _ => false

/-- The name of a fixed encoding. -/
def name? : Format → Option String
  | rfc3339Nano => some "Rfc3339Nano"
  | rfc3339 => some "Rfc3339"
  | iso8601 => some "Iso8601"
  | unixDecimal => some "UnixDecimal"
  | unix => some "Unix"
  | unixMillis => some "UnixMillis"
  | unixMicros => some "UnixMicros"
  | custom _ => none

/-- The fixed encodings. -/
def fixed : List Format :=
  [rfc3339Nano, rfc3339, iso8601, unixDecimal, unix, unixMillis, unixMicros]

end Format

/-! ### Numbers -/

/-- `secs + nanos / 10^9` in decimal; `nanos` above 999999999 counts as 999999999. -/
def unixDecimal (secs : Int) (nanos : Nat) : List Char :=
  let nanos := min nanos (nanosPerSecond - 1)
  if secs < 0 ∧ 0 < nanos then
    '-' :: natural (secs + 1).natAbs ++ fraction 9 (nanosPerSecond - nanos)
  else
    integer secs ++ fraction 9 nanos

namespace Instant

/-- Milliseconds since the epoch, rounded down. -/
def millis (t : Instant) : Int :=
  t.secs * 1000 + (t.nanos / 1000000 : Nat)

/-- Microseconds since the epoch, rounded down. -/
def micros (t : Instant) : Int :=
  t.secs * 1000000 + (t.nanos / 1000 : Nat)

/-! ### Strings -/

/-- The local date and clock, `1999-12-31T23:59:59`. -/
def dateClock (t : Instant) : List Char :=
  renderItems t (Layout.dashDate ++ .literal 'T' :: Layout.clock)

/-- The offset of an RFC 3339 time: `Z` for none, else hours and minutes, seconds dropped. -/
def rfc3339Offset (t : Instant) : List Char :=
  if t.offset = 0 then ['Z']
  else
    let minutes := t.offset.natAbs / 60
    offsetSign t.offset :: twoDigits (minutes / 60) ++ ':' :: twoDigits (minutes % 60)

/-- An RFC 3339 time, with its fraction if `nanos` is set. -/
def rfc3339 (t : Instant) (nanos : Bool) : List Char :=
  t.dateClock ++ (if nanos then fraction 9 (min t.nanos (nanosPerSecond - 1)) else []) ++
    t.rfc3339Offset

/-- An ISO 8601 time in UTC with three fraction digits. -/
def iso8601 (t : Instant) : List Char :=
  t.inUtc.dateClock ++ (Item.fixedFraction 3 true).render t.inUtc ++ ['Z']

/-- What is written for an invalid layout. -/
def invalidLayout (layout : List Char) : List Char :=
  "ERROR: INVALID TIME FORMAT: ".toList ++ layout

/-- The text of an instant under a layout, or a message that quotes an invalid layout. -/
def underLayout (t : Instant) (layout : List Char) : List Char :=
  (renderLayout? t layout).getD (invalidLayout layout)

end Instant

/-- The JSON value of an instant. -/
def Format.render (t : Instant) : Format → List Char
  | rfc3339Nano => quote (t.rfc3339 true)
  | rfc3339 => quote (t.rfc3339 false)
  | iso8601 => quote t.iso8601
  | unixDecimal => Time.unixDecimal t.secs t.nanos
  | unix => integer t.secs
  | unixMillis => integer t.millis
  | unixMicros => integer t.micros
  | custom layout => quote (t.underLayout layout.toList)

end LineLog.Time
