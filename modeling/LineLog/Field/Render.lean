import LineLog.Field.Basic
/-!
# LineLog.Field.Render

The JSON text of fields.

Every field is written as one `"key":value` pair. Values that JSON cannot express
are written as a string or as `null`; nothing that a value does while it is shown
can break the record.

Design points:

* The text (`FieldValue.render`) and the complaint about an object that refuses to
  be marshalled (`FieldValue.marshalFailure?`) are two functions of the value, so the
  record does not depend on what is done about the complaint.
* `FieldValue.renderWith` writes objects through an encoder given by the caller,
  whose bytes are taken as they are.
-/

namespace LineLog

open Decimal Text

/-! ### Numbers -/

/-- A finite number in the wanted precision. One that overflows single precision is written as the
infinity that it rounds to. -/
def FloatWidth.finite (w : FloatWidth) (x : Finite) : List Char :=
  match w with
  | .double => Style.plain.finite .double x
  | .single =>
    match x.round .single with
    | .finite y => Style.plain.finite .single y
    | .infinite negative => if negative then ['-', 'i', 'n', 'f'] else ['i', 'n', 'f']
    | .nan => ['N', 'a', 'N']

/-- A floating-point number as bare text. -/
def FloatWidth.text (w : FloatWidth) (x : Float) : List Char :=
  match Binary.ofFloat x with
  | .nan => ['N', 'a', 'N']
  | .infinite false => ['+', 'I', 'n', 'f']
  | .infinite true => ['-', 'I', 'n', 'f']
  | .finite x => w.finite x

/-- A floating-point number as a JSON value. Not a number and the infinities are strings. -/
def FloatWidth.json (w : FloatWidth) (x : Float) : List Char :=
  match Binary.ofFloat x with
  | .finite x => w.finite x
  | _ => quote (w.text x)

/-- A plus sign goes before an imaginary part that is not negative and brings no sign of its own. -/
def needsPlus (im : Float) : Bool :=
  match Binary.ofFloat im with
  | .infinite _ => false
  | b => b.nonnegative

/-- The text of a complex number. -/
def FloatWidth.complexText (w : FloatWidth) (re im : Float) : List Char :=
  w.text re ++ (if needsPlus im then ['+'] else []) ++ w.text im ++ ['i']

/-! ### Values -/

/-- `null` for a missing value. -/
def orNull {α : Type} (render : α → List Char) : Option α → List Char
  | none => Object.nullText
  | some a => render a

/-- A JSON array. -/
def arrayText (items : List (List Char)) : List Char :=
  Object.enclosed '[' ']' items

/-- The JSON value of a time, `null` for one that no clock can show. -/
def timeText (fallback : Time.Format) (format : Option Time.Format) (t : Time.Instant) :
    List Char :=
  if t.Valid then (format.getD fallback).render t else Object.nullText

/-- The JSON value of a duration as a count of units. -/
def durationCount (unit nanos : Int64) : List Char :=
  orNull integer (Time.Duration.count? nanos unit)

/-- The JSON value of a duration as text. -/
def durationQuoted (nanos : Int64) : List Char :=
  quote (Time.Duration.text nanos.toInt)

/-- The JSON value of whatever a value has written. -/
def shownText (s : Shown) : List Char :=
  quote s.text

/-- The JSON value of an error message. -/
def faultText (f : Fault) : List Char :=
  quote f.text

namespace Stacktrace

/-- The text of a trace. -/
def text : Stacktrace → List Char
  | verbose s => s.text
  | chain f => f.traceText

end Stacktrace

/-- An object that could not be marshalled: its refusal, and where its field was built. -/
structure MarshalFailure where
  refusal : Refusal
  site : Location
  deriving Repr, DecidableEq

namespace FieldValue

/-- The JSON text of a value. `fallback` is the format of times without one of their own. -/
def render (fallback : Time.Format) : FieldValue → List Char
  | none => quote "ERROR: TYPE NONE".toList
  | undefined code => quote ("ERROR: UNDEFINED TYPE: ".toList ++ natural code.toNat)
  | bool b => Object.boolText b
  | boolOpt b => orNull Object.boolText b
  | uint n => natural n.toNat
  | uintOpt n => orNull (fun n => natural n.toNat) n
  | int n => integer n.toInt
  | intOpt n => orNull (fun n => integer n.toInt) n
  | float x width => width.json x
  | floatOpt x width => orNull width.json x
  | complex re im width => quote (width.complexText re im)
  | complexOpt z width => orNull (fun z => quote (width.complexText z.1 z.2)) z
  | time t format => timeText fallback format t
  | timeOpt t format => orNull (timeText fallback format) t
  | duration nanos unit => durationCount unit nanos
  | durationOpt nanos unit => orNull (durationCount unit) nanos
  | durationText nanos => durationQuoted nanos
  | durationTextOpt nanos => orNull durationQuoted nanos
  | string s => quoted s
  | stringOpt s => orNull quoted s
  | strings ss => orNull (fun ss => arrayText (ss.map quoted)) ss
  | stringer s => orNull shownText s
  | formatter s => orNull shownText s
  | error f => orNull faultText f
  | errors fs => orNull (fun fs => arrayText (fs.map faultText)) fs
  | errorStacktrace t => orNull (fun t => quote t.text) t
  | interface s => orNull shownText s
  | object value _ =>
    match value.marshal with
    | .ok text => text
    | .error _ => Object.nullText

/-- The complaint about a value that refuses to be marshalled. -/
def marshalFailure? : FieldValue → Option MarshalFailure
  | object value site =>
    match value.marshal with
    | .ok _ => Option.none
    | .error refusal => some ⟨refusal, site⟩
  | _ => Option.none

/-- The JSON bytes of a value with objects encoded by `encode`, and the complaint if that fails. -/
def renderWith (fallback : Time.Format) (encode : Object → Except Refusal Bytes) :
    FieldValue → Bytes × Option MarshalFailure
  | object value site =>
    match encode value with
    | .ok bytes => (bytes, Option.none)
    | .error refusal => (utf8 Object.nullText, some ⟨refusal, site⟩)
  | other => (utf8 (other.render fallback), Option.none)

end FieldValue

/-! ### Fields -/

namespace Field

/-- The pair `"key":value`. -/
def render (fallback : Time.Format) (f : Field) : List Char :=
  quoted f.key ++ ':' :: f.value.render fallback

/-- Pairs with a comma after each. -/
def renderAll (fallback : Time.Format) (fields : List Field) : List Char :=
  fields.flatMap fun f => f.render fallback ++ [',']

@[simp] theorem renderAll_nil (fallback : Time.Format) : renderAll fallback [] = [] := rfl

@[simp] theorem renderAll_append (fallback : Time.Format) (a b : List Field) :
    renderAll fallback (a ++ b) = renderAll fallback a ++ renderAll fallback b := by
  simp [renderAll]

/-- The complaints about the objects among the fields, in order. -/
def marshalFailures (fields : List Field) : List MarshalFailure :=
  fields.filterMap fun f => f.value.marshalFailure?

@[simp] theorem marshalFailures_append (a b : List Field) :
    marshalFailures (a ++ b) = marshalFailures a ++ marshalFailures b := by
  simp [marshalFailures]

end Field
end LineLog
