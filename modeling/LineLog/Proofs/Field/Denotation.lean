import LineLog.Field.Render
import LineLog.Proofs.Decimal.Widen
import LineLog.Proofs.Json.Encoded
import LineLog.Proofs.Json.Floating
import LineLog.Proofs.Time.Format
import LineLog.Proofs.Value.Marshal
import LineLog.Record.Append
import LineLog.Session.Surface
/-!
# LineLog.Proofs.Field.Denotation

A field is written as what its value denotes.

`FieldValue.Denotes` says what a reader must find for a value, kind by kind, without
mentioning how it is written. `FieldValue.reads_render` shows that the text of a value is
one compact JSON value, and that a reader finds just that.

Design points:

* Two kinds of value can be put together in ways that JSON cannot express: a number
  that claims to have single precision and does not, and an object with an encoder that
  answers no JSON. `FieldValue.Sound` excludes these two and nothing else.
* `Field.Typed` lists the ways in which fields are built. A typed constructor never
  leaves `Sound`, because widened numbers have single precision (`ofFloat_widen`). All
  that has to be assumed is that encoders answer JSON.
-/

namespace LineLog

open Decimal Text Json

/-! ### What values denote -/

namespace Json.Tree

/-- The tree is a number without an exponent that has the sign of `x` and reads back to it. -/
def ReadsBackTo (l : Layout) (x : Finite) (t : Tree) : Prop :=
  ∃ n : Literal, t = .number n ∧ n.exponent = none ∧ n.negative = x.negative ∧
    x.ReadsBack l n.magnitude

/-- The tree is null for a missing value, and else what is wanted for the value. -/
def OrNull {α : Type} (denotes : α → Tree → Prop) : Option α → Tree → Prop
  | none, t => t = .null
  | some a, t => denotes a t

/-- The tree is a string of this text. -/
def IsText (cs : List Char) (t : Tree) : Prop :=
  t = .string cs

/-- The tree is an array of strings of these texts, in order. -/
def AreTexts (texts : List (List Char)) (t : Tree) : Prop :=
  t = .array (texts.map .string)

end Json.Tree

/-- What a reader must find for a floating-point number: a number that reads back to it in the
precision in which it is written, or its name. -/
def FloatWidth.Denotes (w : FloatWidth) (x : Float) (t : Tree) : Prop :=
  match Binary.ofFloat x, w with
  | .nan, _ => t.IsText ['N', 'a', 'N']
  | .infinite false, _ => t.IsText ['+', 'I', 'n', 'f']
  | .infinite true, _ => t.IsText ['-', 'I', 'n', 'f']
  | .finite x, .double => t.ReadsBackTo .double x
  | .finite x, .single => ∃ y, x.round .single = .finite y ∧ t.ReadsBackTo .single y

/-- What a reader must find for a time: null for one that no clock can show. -/
def Time.Instant.Denotes (fallback : Time.Format) (format : Option Time.Format) (i : Time.Instant)
    (t : Tree) : Prop :=
  if i.Valid then (format.getD fallback).Denotes i t else t = .null

namespace FieldValue

/-- What a reader must find for a value. `fallback` is the format of times without one of their
own. -/
def Denotes (fallback : Time.Format) : FieldValue → Tree → Prop
  | none, t => t.IsText "ERROR: TYPE NONE".toList
  | undefined code, t => t.IsText ("ERROR: UNDEFINED TYPE: ".toList ++ natural code.toNat)
  | bool b, t => t = .bool b
  | boolOpt b, t => t.OrNull (fun b t => t = .bool b) b
  | uint n, t => t.IsInteger n.toNat
  | uintOpt n, t => t.OrNull (fun n t => t.IsInteger n.toNat) n
  | int n, t => t.IsInteger n.toInt
  | intOpt n, t => t.OrNull (fun n t => t.IsInteger n.toInt) n
  | float x width, t => width.Denotes x t
  | floatOpt x width, t => t.OrNull width.Denotes x
  | complex re im width, t => t.IsText (width.complexText re im)
  | complexOpt z width, t => t.OrNull (fun z t => t.IsText (width.complexText z.1 z.2)) z
  | time i format, t => i.Denotes fallback format t
  | timeOpt i format, t => t.OrNull (fun i t => i.Denotes fallback format t) i
  | duration nanos unit, t => t.OrNull Tree.IsInteger (Time.Duration.count? nanos unit)
  | durationOpt nanos unit, t =>
    t.OrNull (fun nanos t => t.OrNull Tree.IsInteger (Time.Duration.count? nanos unit)) nanos
  | durationText nanos, t => t.IsText (Time.Duration.text nanos.toInt)
  | durationTextOpt nanos, t =>
    t.OrNull (fun nanos t => t.IsText (Time.Duration.text nanos.toInt)) nanos
  | string s, t => t.IsText s.toList
  | stringOpt s, t => t.OrNull (fun s t => t.IsText s.toList) s
  | strings ss, t => t.OrNull (fun ss t => t.AreTexts (ss.map String.toList)) ss
  | stringer s, t => t.OrNull (fun s t => t.IsText s.text) s
  | formatter s, t => t.OrNull (fun s t => t.IsText s.text) s
  | error f, t => t.OrNull (fun f t => t.IsText f.text) f
  | errors fs, t => t.OrNull (fun fs t => t.AreTexts (fs.map Fault.text)) fs
  | errorStacktrace trace, t => t.OrNull (fun trace t => t.IsText trace.text) trace
  | interface s, t => t.OrNull (fun s t => t.IsText s.text) s
  | object value _, t =>
    match value.marshal with
    | .ok json => parse json = .ok t
    | .error _ => t = .null

end FieldValue

/-! ### What is read -/

namespace Json

/-- The text is one compact JSON value, and what a reader finds is as wanted. -/
def Reads (text : List Char) (wanted : Tree → Prop) : Prop :=
  ∃ t, Compact text t ∧ wanted t

namespace Reads

theorem text (cs : List Char) : Reads (quote cs) (Tree.IsText cs) :=
  ⟨.string cs, .quote cs, rfl⟩

theorem integer (n : Int) : Reads (Decimal.integer n) (Tree.IsInteger n) :=
  ⟨.number (.ofInt n), .integer n, Tree.isInteger_ofInt n⟩

theorem bool (b : Bool) : Reads (Object.boolText b) (· = .bool b) :=
  ⟨.bool b, .bool b, rfl⟩

theorem null : Reads Object.nullText (· = .null) :=
  ⟨.null, .null, rfl⟩

/-- A value that may be missing is read if it is read where it is there. -/
theorem orNull {α : Type} {render : α → List Char} {denotes : α → Tree → Prop} {a : Option α}
    (h : ∀ x ∈ a, Reads (render x) (denotes x)) :
    Reads (LineLog.orNull render a) (Tree.OrNull denotes a) := by
  cases a with
  | none => exact null
  | some x => exact h x rfl

/-- An array of quoted texts is read as the texts, in order. -/
theorem texts (texts : List (List Char)) :
    Reads (arrayText (texts.map quote)) (Tree.AreTexts texts) := by
  refine ⟨.array (texts.map .string), .array ?_, rfl⟩
  induction texts with
  | nil => exact .nil
  | cons cs texts ih => exact .cons (.quote cs) ih

end Reads
end Json

/-! ### Floating-point numbers -/

/-- The number has the precision. -/
def FloatWidth.Fits : FloatWidth → Float → Prop
  | single, x => ∃ y : Float32, x = widen y
  | double, _ => True

/-- A finite number of double precision is read back to. -/
theorem reads_finite (l : Layout) (x : Finite) :
    Reads (Style.plain.finite l x) (Tree.ReadsBackTo l x) := by
  obtain ⟨n, hcompact, hnegative, hread, hexponent⟩ := exists_compact_finite .plain l x
  exact ⟨.number n, hcompact, n, rfl, hexponent rfl, hnegative, hread⟩

/-- A widened number that is finite has single precision. -/
theorem exists_round_of_widen {x : Float32} {y : Finite}
    (h : Binary.ofFloat (widen x) = .finite y) : ∃ z, y.round .single = .finite z := by
  have hwiden := ofFloat_widen x
  split at hwiden
  · obtain ⟨y', hy', hround⟩ := hwiden
    rw [h] at hy'
    obtain rfl := Binary.finite.inj hy'
    exact ⟨_, hround⟩
  · rename_i hother
    rw [h] at hwiden
    exact absurd hwiden.symm (hother _)

/-- **A number that has its precision is read**, as a number that reads back to it or by its name. -/
theorem FloatWidth.reads_json (w : FloatWidth) {x : Float} (h : w.Fits x) :
    Reads (w.json x) (w.Denotes x) := by
  unfold FloatWidth.json FloatWidth.Denotes FloatWidth.text
  cases hx : Binary.ofFloat x with
  | nan => exact .text _
  | infinite negative =>
      cases negative with
      | false => exact .text _
      | true => exact .text _
  | finite y =>
      cases w with
      | double => exact reads_finite .double y
      | single =>
          -- The number was widened, so rounding it again does not make it infinite.
          obtain ⟨x, rfl⟩ := h
          obtain ⟨z, hz⟩ := exists_round_of_widen hx
          obtain ⟨t, ht, hread⟩ := reads_finite .single z
          refine ⟨t, ?_, z, hz, hread⟩
          simpa [FloatWidth.finite, hz] using ht

/-! ### All values -/

namespace FieldValue

/-- The two ways in which a value could be put together that JSON cannot express are excluded. -/
def Sound : FieldValue → Prop
  | float x width => width.Fits x
  | floatOpt x width => ∀ y ∈ x, width.Fits y
  | object value _ => ∀ json, value.marshal = .ok json → ∃ t, Compact json t
  | _ => True

theorem reads_time (fallback : Time.Format) (format : Option Time.Format) (i : Time.Instant) :
    Reads (timeText fallback format i) (i.Denotes fallback format) := by
  unfold timeText Time.Instant.Denotes
  split
  · exact Time.exists_compact_render i _
  · exact .null

/-- **Every value is read as what it denotes.** -/
theorem reads_render (fallback : Time.Format) {v : FieldValue} (h : v.Sound) :
    Reads (v.render fallback) (v.Denotes fallback) := by
  cases v with
  | none => exact .text _
  | undefined code => exact .text _
  | bool b => exact .bool b
  | boolOpt b => exact .orNull fun b _ => .bool b
  | uint n => exact .integer n.toNat
  | uintOpt n => exact .orNull fun n _ => .integer n.toNat
  | int n => exact .integer n.toInt
  | intOpt n => exact .orNull fun n _ => .integer n.toInt
  | float x width => exact width.reads_json h
  | floatOpt x width => exact .orNull fun x hx => width.reads_json (h x hx)
  | complex re im width => exact .text _
  | complexOpt z width => exact .orNull fun z _ => .text _
  | time i format => exact reads_time fallback format i
  | timeOpt i format => exact .orNull fun i _ => reads_time fallback format i
  | duration nanos unit => exact .orNull fun n _ => .integer n
  | durationOpt nanos unit => exact .orNull fun nanos _ => .orNull fun n _ => .integer n
  | durationText nanos => exact .text _
  | durationTextOpt nanos => exact .orNull fun nanos _ => .text _
  | string s => exact .text s.toList
  | stringOpt s => exact .orNull fun s _ => .text s.toList
  | strings ss =>
      refine .orNull fun ss _ => ?_
      have h := Reads.texts (ss.map String.toList)
      rwa [List.map_map] at h
  | stringer s => exact .orNull fun s _ => .text s.text
  | formatter s => exact .orNull fun s _ => .text s.text
  | error f => exact .orNull fun f _ => .text f.text
  | errors fs =>
      refine .orNull fun fs _ => ?_
      have h := Reads.texts (fs.map Fault.text)
      rwa [List.map_map] at h
  | errorStacktrace trace => exact .orNull fun trace _ => .text trace.text
  | interface s => exact .orNull fun s _ => .text s.text
  | object value site =>
      cases hm : value.marshal with
      | error refusal =>
          refine ⟨.null, ?_, ?_⟩
          · simpa only [render, hm] using Compact.null
          · simp only [Denotes, hm]
      | ok json =>
          obtain ⟨t, ht⟩ := h json hm
          refine ⟨t, ?_, ?_⟩
          · simpa only [render, hm] using ht
          · simpa only [Denotes, hm] using ht.parse

end FieldValue

/-! ### Typed fields -/

namespace Field

/-- The fields that are built without naming a kind of value: by a typed constructor, by default, or
with a value of unknown kind. What an object is marshalled to is JSON. -/
inductive Typed : Field → Prop
  | default : Typed default
  | undefined (key : String) (code : UInt8) : Typed ⟨key, .undefined code⟩
  | bool (key : String) (b : Bool) : Typed (.bool key b)
  | boolOpt (key : String) (b : Option Bool) : Typed (.boolOpt key b)
  | u8 (key : String) (n : UInt8) : Typed (.u8 key n)
  | u8Opt (key : String) (n : Option UInt8) : Typed (.u8Opt key n)
  | u16 (key : String) (n : UInt16) : Typed (.u16 key n)
  | u16Opt (key : String) (n : Option UInt16) : Typed (.u16Opt key n)
  | u32 (key : String) (n : UInt32) : Typed (.u32 key n)
  | u32Opt (key : String) (n : Option UInt32) : Typed (.u32Opt key n)
  | u64 (key : String) (n : UInt64) : Typed (.u64 key n)
  | u64Opt (key : String) (n : Option UInt64) : Typed (.u64Opt key n)
  | i8 (key : String) (n : Int8) : Typed (.i8 key n)
  | i8Opt (key : String) (n : Option Int8) : Typed (.i8Opt key n)
  | i16 (key : String) (n : Int16) : Typed (.i16 key n)
  | i16Opt (key : String) (n : Option Int16) : Typed (.i16Opt key n)
  | i32 (key : String) (n : Int32) : Typed (.i32 key n)
  | i32Opt (key : String) (n : Option Int32) : Typed (.i32Opt key n)
  | i64 (key : String) (n : Int64) : Typed (.i64 key n)
  | i64Opt (key : String) (n : Option Int64) : Typed (.i64Opt key n)
  | f32 (key : String) (x : Float32) : Typed (.f32 key x)
  | f32Opt (key : String) (x : Option Float32) : Typed (.f32Opt key x)
  | f64 (key : String) (x : Float) : Typed (.f64 key x)
  | f64Opt (key : String) (x : Option Float) : Typed (.f64Opt key x)
  | complex64 (key : String) (re im : Float32) : Typed (.complex64 key re im)
  | complex64Opt (key : String) (z : Option (Float32 × Float32)) : Typed (.complex64Opt key z)
  | complex128 (key : String) (re im : Float) : Typed (.complex128 key re im)
  | complex128Opt (key : String) (z : Option (Float × Float)) : Typed (.complex128Opt key z)
  | time (key : String) (i : Time.Instant) : Typed (.time key i)
  | timeOpt (key : String) (i : Option Time.Instant) : Typed (.timeOpt key i)
  | systemTime (key : String) (i : Time.Instant) : Typed (.systemTime key i)
  | timeFormat (key : String) (format : Time.Format) (i : Time.Instant) :
      Typed (.timeFormat key format i)
  | timeFormatOpt (key : String) (format : Time.Format) (i : Option Time.Instant) :
      Typed (.timeFormatOpt key format i)
  | duration (key : String) (unit value : Int) : Typed (.duration key unit value)
  | durationOpt (key : String) (unit : Int) (value : Option Int) :
      Typed (.durationOpt key unit value)
  | durationText (key : String) (value : Int) : Typed (.durationText key value)
  | durationTextOpt (key : String) (value : Option Int) : Typed (.durationTextOpt key value)
  | string (key s : String) : Typed (.string key s)
  | stringOpt (key : String) (s : Option String) : Typed (.stringOpt key s)
  | strings (key : String) (ss : Option (List String)) : Typed (.strings key ss)
  | sprintf (key : String) (shown : Shown) {f : Field} (h : Field.sprintf key shown = .ok f) :
      Typed f
  | stringer (key : String) (shown : Option Shown) : Typed (.stringer key shown)
  | formatter (key : String) (shown : Option Shown) : Typed (.formatter key shown)
  | interface (key : String) (shown : Option Shown) : Typed (.interface key shown)
  | error (fault : Option Fault) (key : String) : Typed (.error fault key)
  | errors (faults : Option (List Fault)) (key : String) : Typed (.errors faults key)
  | errorStacktrace (fault : Option Fault) (key : String) : Typed (.errorStacktrace fault key)
  | errorStacktraceVerbose (shown : Option Shown) (key : String) :
      Typed (.errorStacktraceVerbose shown key)
  | object (key : String) (value : Object) (site : Location)
      (h : ∀ json, value.marshal = .ok json → ∃ t, Compact json t) : Typed (.object key value site)

/-- A typed constructor builds no value that JSON cannot express. -/
theorem Typed.sound {f : Field} (h : f.Typed) : f.value.Sound := by
  cases h with
  | f32 key x => exact ⟨x, rfl⟩
  | f32Opt key x =>
      intro y hy
      obtain ⟨x, -, rfl⟩ := Option.map_eq_some_iff.1 hy
      exact ⟨x, rfl⟩
  | f64Opt key x => exact fun _ _ => trivial
  | sprintf key shown h =>
      obtain ⟨s, -, rfl⟩ := map_eq_ok h
      trivial
  | object key value site h => exact h
  | _ => trivial

/-- **A field's encoding denotes its value.** Whatever the destination holds, writing the value of a
typed field only adds to it, and what is added is read as what the value denotes, with whatever
closes the value left unread. -/
theorem denotes_appendTo {f : Field} (h : f.Typed) (fallback : Time.Format) (dst : Bytes) :
    ∃ written t, f.value.appendTo fallback dst = dst ++ written ∧ f.value.Denotes fallback t ∧
      ∀ rest, Closes rest → treeOfBytes (written ++ utf8 rest) = .ok (t, rest) := by
  obtain ⟨t, hcompact, hdenotes⟩ := FieldValue.reads_render fallback h.sound
  exact ⟨utf8 (f.value.render fallback), t, rfl, hdenotes,
    fun rest hrest => hcompact.treeOfBytes_append hrest⟩

/-- The least number of 64 bits behind a comma and before a brace. -/
theorem denotes_appendTo_least :
    ∃ written t, (Field.i64 "n" Int64.minValue).value.appendTo .unix [commaByte] =
        [commaByte] ++ written ∧
      t.IsInteger (-9223372036854775808) ∧
      treeOfBytes (written ++ utf8 ['}', '\n']) = .ok (t, ['}', '\n']) := by
  obtain ⟨written, t, happend, hdenotes, hread⟩ :=
    denotes_appendTo (.i64 "n" Int64.minValue) .unix [commaByte]
  exact ⟨written, t, happend, hdenotes, hread _ (closes_brace _)⟩

end Field
end LineLog
