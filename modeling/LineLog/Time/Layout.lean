import LineLog.Decimal.Digits
import LineLog.Time.Instant
/-!
# LineLog.Time.Layout

Layouts: text with `%` specifiers that describes how an instant is written.

A layout is read into a list of items (`Layout.items?`), and the items are
written one after the other (`Item.render`).

Design points:

* One specifier that is not known makes the whole layout invalid; nothing is
  rendered in part.
* A padding modifier (`-`, `_` or `0` after the percent sign) belongs to a
  specifier that is a single number. Anywhere else it makes the layout invalid.
* A specifier that stands for several others is a list of their items.
* A year outside 0 to 9999 has a sign, and the sign counts as a place of padding.
-/

namespace LineLog.Time

open Decimal

/-- What fills a number up to its width. -/
inductive Pad
  | none
  | zero
  | space
  deriving Repr, DecidableEq

/-- The specifiers that are one number. -/
inductive Number
  | year | century | yearOfCentury
  | isoYear | isoYearOfCentury
  | quarter | month | day | ordinal
  | weekFromSunday | weekFromMonday | isoWeek
  | weekdayFromSunday | weekdayFromMonday
  | hour | hour12 | minute | second | nanosecond
  | unixSeconds
  deriving Repr, DecidableEq

/-- How much of the offset is written. -/
inductive OffsetForm
  /-- `+0900`, to the nearest minute. -/
  | minutes
  /-- `+09:00`, to the nearest minute. -/
  | colonMinutes
  /-- `+09:00:00` -/
  | colonSeconds
  /-- `+09`, what is left over dropped. -/
  | hours
  /-- `+09:00`, with seconds only if there are any. -/
  | exact
  deriving Repr, DecidableEq

/-- One piece of a layout. -/
inductive Item
  | literal (c : Char)
  | number (n : Number) (pad : Pad)
  | shortMonth | longMonth
  | shortWeekday | longWeekday
  | lowerMeridiem | upperMeridiem
  /-- The fewest of 0, 3, 6 or 9 digits that are exact, after a point. -/
  | fraction
  /-- The first `places` digits of the fraction. -/
  | fixedFraction (places : Nat) (point : Bool)
  | offset (form : OffsetForm)
  deriving Repr, DecidableEq

/-! ### Reading -/

namespace Layout

/-- Numbers with zeros before them, and the characters between them. -/
def joined (separator : Char) : List Number → List Item
  | [] => []
  | [n] => [.number n .zero]
  | n :: rest => .number n .zero :: .literal separator :: joined separator rest

/-- `12/31/99` -/
def slashDate : List Item := joined '/' [.month, .day, .yearOfCentury]

/-- `1999-12-31` -/
def dashDate : List Item := joined '-' [.year, .month, .day]

/-- `23:59` -/
def hourMinute : List Item := joined ':' [.hour, .minute]

/-- `23:59:59` -/
def clock : List Item := joined ':' [.hour, .minute, .second]

/-- The items of a specifier of one letter, if there is such a specifier. -/
def letter? : Char → Option (List Item)
  | 'Y' => some [.number .year .zero]
  | 'C' => some [.number .century .zero]
  | 'y' => some [.number .yearOfCentury .zero]
  | 'G' => some [.number .isoYear .zero]
  | 'g' => some [.number .isoYearOfCentury .zero]
  | 'q' => some [.number .quarter .none]
  | 'm' => some [.number .month .zero]
  | 'd' => some [.number .day .zero]
  | 'e' => some [.number .day .space]
  | 'j' => some [.number .ordinal .zero]
  | 'U' => some [.number .weekFromSunday .zero]
  | 'W' => some [.number .weekFromMonday .zero]
  | 'V' => some [.number .isoWeek .zero]
  | 'w' => some [.number .weekdayFromSunday .none]
  | 'u' => some [.number .weekdayFromMonday .none]
  | 'H' => some [.number .hour .zero]
  | 'k' => some [.number .hour .space]
  | 'I' => some [.number .hour12 .zero]
  | 'l' => some [.number .hour12 .space]
  | 'M' => some [.number .minute .zero]
  | 'S' => some [.number .second .zero]
  | 'f' => some [.number .nanosecond .zero]
  | 's' => some [.number .unixSeconds .none]
  | 'b' | 'h' => some [.shortMonth]
  | 'B' => some [.longMonth]
  | 'a' => some [.shortWeekday]
  | 'A' => some [.longWeekday]
  | 'P' => some [.lowerMeridiem]
  | 'p' => some [.upperMeridiem]
  | 'Z' => some [.offset .exact]
  | 'z' => some [.offset .minutes]
  | 'D' | 'x' => some slashDate
  | 'F' => some dashDate
  | 'R' => some hourMinute
  | 'T' | 'X' => some clock
  | 'r' => some (joined ':' [.hour12, .minute, .second] ++ [.literal ' ', .upperMeridiem])
  | 'v' => some [.number .day .space, .literal '-', .shortMonth, .literal '-', .number .year .zero]
  | 'c' =>
    some ([.shortWeekday, .literal ' ', .shortMonth, .literal ' ', .number .day .space,
      .literal ' '] ++ clock ++ [.literal ' ', .number .year .zero])
  | '+' => some (dashDate ++ .literal 'T' :: clock ++ [.fraction, .offset .colonMinutes])
  | 't' => some [.literal '\t']
  | 'n' => some [.literal '\n']
  | '%' => some [.literal '%']
  | _ => none

/-- The padding that a modifier asks for. -/
def modifier? : Char → Option Pad
  | '-' => some .none
  | '_' => some .space
  | '0' => some .zero
  | _ => none

/-- The digits of a fraction of fixed length. -/
def places? : Char → Option Nat
  | '3' => some 3
  | '6' => some 6
  | '9' => some 9
  | _ => none

/-- The items of the specifier at the head of the text after a percent sign, and its length. -/
def specifier? : List Char → Option (List Item × Nat)
  | ':' :: ':' :: ':' :: 'z' :: _ => some ([.offset .hours], 4)
  | ':' :: ':' :: 'z' :: _ => some ([.offset .colonSeconds], 3)
  | ':' :: 'z' :: _ => some ([.offset .colonMinutes], 2)
  | '.' :: 'f' :: _ => some ([.fraction], 2)
  | '.' :: c :: 'f' :: _ => (places? c).map fun n => ([.fixedFraction n true], 3)
  | c :: cs =>
    match modifier? c, places? c, cs with
    | some pad, _, d :: _ =>
      match letter? d with
      | some [.number n _] => some ([.number n pad], 2)
      | _ => none
    | none, some n, 'f' :: _ => some ([.fixedFraction n false], 2)
    | none, none, _ => (letter? c).map fun items => (items, 1)
    | _, _, _ => none
  | [] => none

/-- The items of a layout of which the next `skip` characters have been read already. -/
def itemsFrom? : Nat → List Char → Option (List Item)
  | _, [] => some []
  | skip + 1, _ :: cs => itemsFrom? skip cs
  | 0, c :: cs =>
    if c = '%' then
      match specifier? cs with
      | some (items, length) => (itemsFrom? length cs).map (items ++ ·)
      | none => none
    else (itemsFrom? 0 cs).map (.literal c :: ·)

/-- The items of a layout, or nothing if it holds an unknown specifier. -/
def items? (layout : List Char) : Option (List Item) :=
  itemsFrom? 0 layout

end Layout

/-! ### Writing -/

/-- A number of at least `width` places; `signed` numbers have a sign even if positive. -/
def padded (width : Nat) (pad : Pad) (signed : Bool) (n : Int) : List Char :=
  let sign := if n < 0 then ['-'] else if signed then ['+'] else []
  let width := if signed then width + 1 else width
  match pad with
  | .none => sign ++ natural n.natAbs
  | .zero => sign ++ padLeft (width - sign.length) '0' (natural n.natAbs)
  | .space => padLeft width ' ' (sign ++ natural n.natAbs)

/-- A year of four places; one outside 0 to 9999 has a sign. -/
def paddedYear (pad : Pad) (year : Int) : List Char :=
  padded 4 pad (decide (year < 0 ∨ 9999 < year)) year

/-- Two places. A value of 100 or more carries into the first, which goes on after `9` through the
characters that follow it. -/
def twoPlaces (pad : Pad) (n : Nat) : List Char :=
  let units := Char.ofNat ('0'.toNat + n % 10)
  match n / 10, pad with
  | 0, .none => [units]
  | 0, .space => [' ', units]
  | tens, _ => [Char.ofNat ('0'.toNat + tens), units]

/-- Two digits. -/
def twoDigits (n : Nat) : List Char :=
  zeroPadded 2 n

namespace Number

/-- The text of a number for the instant `t`. The century is kept modulo 256. -/
def render (t : Instant) (pad : Pad) : Number → List Char
  | year => paddedYear pad t.date.year
  | century => twoPlaces pad (t.date.year / 100 % 256).toNat
  | yearOfCentury => twoPlaces pad (t.date.year % 100).toNat
  | isoYear => paddedYear pad (Time.isoYear t.days)
  | isoYearOfCentury => twoPlaces pad (Time.isoYear t.days % 100).toNat
  | quarter => natural ((t.date.month - 1) / 3 + 1)
  | month => twoPlaces pad t.date.month
  | day => twoPlaces pad t.date.day
  | ordinal => padded 3 pad false (Time.ordinal t.days)
  | weekFromSunday => twoPlaces pad (Time.weekFromSunday t.days)
  | weekFromMonday => twoPlaces pad (Time.weekFromMonday t.days)
  | isoWeek => twoPlaces pad (Time.isoWeek t.days)
  | weekdayFromSunday => natural (weekday t.days)
  | weekdayFromMonday => natural (sinceMonday t.days + 1)
  | hour => twoPlaces pad t.hour
  | hour12 => twoPlaces pad t.hour12
  | minute => twoPlaces pad t.minute
  | second => twoPlaces pad t.second
  | nanosecond => padded 9 pad false t.subsecond
  | unixSeconds => padded 9 pad false t.secs

end Number

/-- The sign of an offset. -/
def offsetSign (offset : Int) : Char :=
  if offset < 0 then '-' else '+'

namespace OffsetForm

/-- The text of an offset. Rounding to minutes is by magnitude, halves up. -/
def render (offset : Int) (form : OffsetForm) : List Char :=
  let total := offset.natAbs
  let rounded := (total + 30) / 60
  offsetSign offset :: match form with
    | minutes => twoDigits (rounded / 60) ++ twoDigits (rounded % 60)
    | colonMinutes => twoDigits (rounded / 60) ++ ':' :: twoDigits (rounded % 60)
    | colonSeconds =>
      twoDigits (total / 3600) ++ ':' :: twoDigits (total / 60 % 60) ++ ':' :: twoDigits (total % 60)
    | hours => twoDigits (total / 3600)
    | exact =>
      twoDigits (total / 3600) ++ ':' :: twoDigits (total / 60 % 60) ++
        if total % 60 = 0 then [] else ':' :: twoDigits (total % 60)

end OffsetForm

namespace Item

/-- The first `places` of nine digits. -/
def leadingPlaces (places nanos : Nat) : List Char :=
  (zeroPadded 9 nanos).take places

/-- The text of an item for the instant `t`. -/
def render (t : Instant) : Item → List Char
  | literal c => [c]
  | number n pad => n.render t pad
  | shortMonth => shortName (monthName t.date.month)
  | longMonth => monthName t.date.month
  | shortWeekday => shortName (weekdayName (weekday t.days))
  | longWeekday => weekdayName (weekday t.days)
  | lowerMeridiem => if t.hour < 12 then ['a', 'm'] else ['p', 'm']
  | upperMeridiem => if t.hour < 12 then ['A', 'M'] else ['P', 'M']
  | fraction =>
    if t.subsecond = 0 then []
    else if t.subsecond % 1000000 = 0 then '.' :: leadingPlaces 3 t.subsecond
    else if t.subsecond % 1000 = 0 then '.' :: leadingPlaces 6 t.subsecond
    else '.' :: leadingPlaces 9 t.subsecond
  | fixedFraction places point =>
    if point then '.' :: leadingPlaces places t.subsecond else leadingPlaces places t.subsecond
  | offset form => form.render t.offset

end Item

/-- The text of a list of items. -/
def renderItems (t : Instant) (items : List Item) : List Char :=
  items.flatMap (Item.render t)

/-- The text of an instant under a layout, or nothing if the layout is invalid. -/
def renderLayout? (t : Instant) (layout : List Char) : Option (List Char) :=
  (Layout.items? layout).map (renderItems t)

end LineLog.Time
