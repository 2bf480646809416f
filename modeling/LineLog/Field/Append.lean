import LineLog.Record.Append
import LineLog.Time.Append
/-!
# LineLog.Field.Append

Writing values behind the bytes that a destination already holds.

`FieldValue.render` has the text of a value as a whole. Here it is written as it comes about: piece by
piece where a value shows itself, and item by item where there are several.

Design points:

* Every piece is escaped on its own, as it arrives (`Shown.appendTo`). Whether the value failed in the end
  is answered too, and dropped by all who ask: the string is closed in any case.
* Numbers, names and lengths of time go between quotation marks as they stand.
-/

namespace LineLog

open Decimal Text

/-! ### Values that show themselves -/

namespace Shown

/-- Escape what a value shows behind what `dst` holds, one piece after the other. Answers whether the
value has shown itself without failing. -/
def appendTo (dst : Bytes) (s : Shown) : Bytes × Bool :=
  (s.chunks.foldl (fun dst chunk => appendEscaped dst (utf8 chunk.toList)) dst, !s.fails)

/-- Write what a value shows as a JSON string behind what `dst` holds. -/
def appendQuotedTo (dst : Bytes) (s : Shown) : Bytes :=
  (s.appendTo (dst ++ [quoteByte])).1 ++ [quoteByte]

end Shown

/-- Write the messages of an error and of its causes as a JSON string behind what `dst` holds. -/
def Fault.appendTraceTo (dst : Bytes) (f : Fault) : Bytes :=
  f.causes.foldl (fun dst cause => ((cause.behind (String.ofList causedBy)).appendTo dst).1)
    (f.message.appendTo (dst ++ [quoteByte])).1 ++ [quoteByte]

/-- Write a trace as a JSON string behind what `dst` holds. -/
def Stacktrace.appendTo (dst : Bytes) : Stacktrace → Bytes
  | verbose shown => shown.appendQuotedTo dst
  | chain fault => fault.appendTraceTo dst

/-! ### Numbers -/

/-- Write a complex number as a JSON string behind what `dst` holds. -/
def FloatWidth.appendComplexTo (w : FloatWidth) (dst : Bytes) (re im : Float) : Bytes :=
  let dst := dst ++ [quoteByte] ++ utf8 (w.text re)
  let dst := if needsPlus im then dst ++ utf8 ['+'] else dst
  dst ++ utf8 (w.text im) ++ utf8 ['i'] ++ [quoteByte]

/-! ### Values that may be missing, and lists of values -/

/-- Write a value behind what `dst` holds, or `null` for a missing one. -/
def appendOrNull {α : Type} (write : Bytes → α → Bytes) (dst : Bytes) : Option α → Bytes
  | none => dst ++ utf8 Object.nullText
  | some a => write dst a

/-- Write items as a JSON array behind what `dst` holds. A comma goes before every item but the first. -/
def appendItems {α : Type} (write : Bytes → α → Bytes) (dst : Bytes) (items : List α) : Bytes :=
  items.zipIdx.foldl
    (fun dst item => write (if 0 < item.2 then dst ++ [commaByte] else dst) item.1)
    (dst ++ utf8 ['[']) ++ utf8 [']']

/-! ### Times -/

/-- Write a time behind what `dst` holds, `null` for one that no clock can show. -/
def appendTime (fallback : Time.Format) (format : Option Time.Format) (dst : Bytes) (t : Time.Instant) :
    Bytes :=
  if t.Valid then (format.getD fallback).appendTo dst t else dst ++ utf8 Object.nullText

/-- Write a duration as a count of units behind what `dst` holds. -/
def appendCount (unit : Int64) (dst : Bytes) (nanos : Int64) : Bytes :=
  appendOrNull (fun dst n => dst ++ utf8 (integer n)) dst (Time.Duration.count? nanos unit)

/-- Write a duration as text behind what `dst` holds. -/
def appendDuration (dst : Bytes) (nanos : Int64) : Bytes :=
  appendVerbatim dst (Time.Duration.text nanos.toInt)

/-! ### Values of fields -/

namespace FieldValue

/-- Write a value behind what `dst` holds, as it comes about. `fallback` is the format of times without
one of their own. -/
def writeTo (fallback : Time.Format) (dst : Bytes) : FieldValue → Bytes
  | none => appendVerbatim dst "ERROR: TYPE NONE".toList
  | undefined code => appendVerbatim dst ("ERROR: UNDEFINED TYPE: ".toList ++ natural code.toNat)
  | bool b => dst ++ utf8 (Object.boolText b)
  | boolOpt b => appendOrNull (fun dst b => dst ++ utf8 (Object.boolText b)) dst b
  | uint n => dst ++ utf8 (natural n.toNat)
  | uintOpt n => appendOrNull (fun dst n => dst ++ utf8 (natural n.toNat)) dst n
  | int n => dst ++ utf8 (integer n.toInt)
  | intOpt n => appendOrNull (fun dst n => dst ++ utf8 (integer n.toInt)) dst n
  | float x width => dst ++ utf8 (width.json x)
  | floatOpt x width => appendOrNull (fun dst x => dst ++ utf8 (width.json x)) dst x
  | complex re im width => width.appendComplexTo dst re im
  | complexOpt z width => appendOrNull (fun dst z => width.appendComplexTo dst z.1 z.2) dst z
  | time t format => appendTime fallback format dst t
  | timeOpt t format => appendOrNull (appendTime fallback format) dst t
  | duration nanos unit => appendCount unit dst nanos
  | durationOpt nanos unit => appendOrNull (appendCount unit) dst nanos
  | durationText nanos => appendDuration dst nanos
  | durationTextOpt nanos => appendOrNull appendDuration dst nanos
  | string s => appendQuoted dst s
  | stringOpt s => appendOrNull appendQuoted dst s
  | strings ss => appendOrNull (appendItems appendQuoted) dst ss
  | stringer s => appendOrNull Shown.appendQuotedTo dst s
  | formatter s => appendOrNull Shown.appendQuotedTo dst s
  | error f => appendOrNull (fun dst f => f.message.appendQuotedTo dst) dst f
  | errors fs => appendOrNull (appendItems fun dst f => f.message.appendQuotedTo dst) dst fs
  | errorStacktrace t => appendOrNull Stacktrace.appendTo dst t
  | interface s => appendOrNull Shown.appendQuotedTo dst s
  | object value _ =>
    match value.marshal with
    | .ok text => dst ++ utf8 text
    | .error _ => dst ++ utf8 Object.nullText

end FieldValue
end LineLog
