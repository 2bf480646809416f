import LineLog.Caller
import LineLog.Decimal.Widen
import LineLog.Time.Duration
import LineLog.Time.Format
import LineLog.Value.Fault
import LineLog.Value.Object
/-!
# LineLog.Field.Basic

Fields: keys with typed values.

Design points:

* `FieldValue` is closed: every kind of value that a record can carry has a
  constructor. The kinds that may be missing come in pairs, with and without an
  option.
* The typed constructors of `Field` fix the kind; integers of every width are held
  in 64 bits.
* An object knows where its field was built, since that is what a failure to
  marshal it is blamed on.
-/

namespace LineLog

open Decimal

/-- The precision in which a floating-point number is written. -/
inductive FloatWidth
  | single
  | double
  deriving Repr, DecidableEq

/-- An error together with how its trace is obtained. -/
inductive Stacktrace
  /-- The form for developers of an error that carries its own trace. -/
  | verbose (shown : Shown)
  /-- The message and the causes. -/
  | chain (fault : Fault)
  deriving Repr, DecidableEq

/-- The value of a field. -/
inductive FieldValue
  /-- A field that was never given a value. -/
  | none
  /-- A value of unknown kind. -/
  | undefined (code : UInt8)
  | bool (b : Bool)
  | boolOpt (b : Option Bool)
  | uint (n : UInt64)
  | uintOpt (n : Option UInt64)
  | int (n : Int64)
  | intOpt (n : Option Int64)
  | float (x : Float) (width : FloatWidth)
  | floatOpt (x : Option Float) (width : FloatWidth)
  | complex (re im : Float) (width : FloatWidth)
  | complexOpt (z : Option (Float × Float)) (width : FloatWidth)
  /-- A time; without a format of its own it is written in the default format. -/
  | time (t : Time.Instant) (format : Option Time.Format)
  | timeOpt (t : Option Time.Instant) (format : Option Time.Format)
  /-- A duration and the unit that it is counted in, in nanoseconds. -/
  | duration (nanos unit : Int64)
  | durationOpt (nanos : Option Int64) (unit : Int64)
  | durationText (nanos : Int64)
  | durationTextOpt (nanos : Option Int64)
  | string (s : String)
  | stringOpt (s : Option String)
  | strings (ss : Option (List String))
  | stringer (shown : Option Shown)
  | formatter (shown : Option Shown)
  | error (fault : Option Fault)
  | errors (faults : Option (List Fault))
  | errorStacktrace (trace : Option Stacktrace)
  | interface (shown : Option Shown)
  | object (value : Object) (site : Location)

namespace FieldValue

/-- The name of a kind. -/
def kind : FieldValue → String
  | none => "none"
  | undefined _ => "undefined"
  | bool _ => "bool"
  | boolOpt _ => "bool_opt"
  | uint _ => "uint"
  | uintOpt _ => "uint_opt"
  | int _ => "int"
  | intOpt _ => "int_opt"
  | float _ _ => "float"
  | floatOpt _ _ => "float_opt"
  | complex _ _ _ => "complex"
  | complexOpt _ _ => "complex_opt"
  | time _ _ => "time"
  | timeOpt _ _ => "time_opt"
  | duration _ _ => "duration"
  | durationOpt _ _ => "duration_opt"
  | durationText _ => "duration_format"
  | durationTextOpt _ => "duration_format_opt"
  | string _ => "string"
  | stringOpt _ => "string_opt"
  | strings _ => "strings"
  | stringer _ => "stringer"
  | formatter _ => "formatter"
  | error _ => "error"
  | errors _ => "errors"
  | errorStacktrace _ => "error_stacktrace"
  | interface _ => "interface"
  | object _ _ => "object"

end FieldValue

/-- A key with a value. -/
structure Field where
  key : String
  value : FieldValue

instance : Inhabited Field := ⟨⟨"", .none⟩⟩

namespace Field

/-- The field shown to a developer. -/
def inspect (f : Field) : List Char :=
  "Field ".toList ++ '{' :: " key: ".toList ++ Inspect.string f.key ++ ", kind: ".toList ++
    Inspect.string f.value.kind ++ [' ', '}']

/-! ### Typed constructors -/

def bool (key : String) (b : Bool) : Field := ⟨key, .bool b⟩

def boolOpt (key : String) (b : Option Bool) : Field := ⟨key, .boolOpt b⟩

def u8 (key : String) (n : UInt8) : Field := ⟨key, .uint n.toUInt64⟩

def u8Opt (key : String) (n : Option UInt8) : Field := ⟨key, .uintOpt (n.map (·.toUInt64))⟩

def u16 (key : String) (n : UInt16) : Field := ⟨key, .uint n.toUInt64⟩

def u16Opt (key : String) (n : Option UInt16) : Field := ⟨key, .uintOpt (n.map (·.toUInt64))⟩

def u32 (key : String) (n : UInt32) : Field := ⟨key, .uint n.toUInt64⟩

def u32Opt (key : String) (n : Option UInt32) : Field := ⟨key, .uintOpt (n.map (·.toUInt64))⟩

def u64 (key : String) (n : UInt64) : Field := ⟨key, .uint n⟩

def u64Opt (key : String) (n : Option UInt64) : Field := ⟨key, .uintOpt n⟩

def i8 (key : String) (n : Int8) : Field := ⟨key, .int n.toInt64⟩

def i8Opt (key : String) (n : Option Int8) : Field := ⟨key, .intOpt (n.map (·.toInt64))⟩

def i16 (key : String) (n : Int16) : Field := ⟨key, .int n.toInt64⟩

def i16Opt (key : String) (n : Option Int16) : Field := ⟨key, .intOpt (n.map (·.toInt64))⟩

def i32 (key : String) (n : Int32) : Field := ⟨key, .int n.toInt64⟩

def i32Opt (key : String) (n : Option Int32) : Field := ⟨key, .intOpt (n.map (·.toInt64))⟩

def i64 (key : String) (n : Int64) : Field := ⟨key, .int n⟩

def i64Opt (key : String) (n : Option Int64) : Field := ⟨key, .intOpt n⟩

def f32 (key : String) (x : Float32) : Field := ⟨key, .float (widen x) .single⟩

def f32Opt (key : String) (x : Option Float32) : Field :=
  ⟨key, .floatOpt (x.map widen) .single⟩

def f64 (key : String) (x : Float) : Field := ⟨key, .float x .double⟩

def f64Opt (key : String) (x : Option Float) : Field := ⟨key, .floatOpt x .double⟩

/-- A complex number with single-precision parts. -/
def complex64 (key : String) (re im : Float32) : Field :=
  ⟨key, .complex (widen re) (widen im) .single⟩

def complex64Opt (key : String) (z : Option (Float32 × Float32)) : Field :=
  ⟨key, .complexOpt (z.map fun z => (widen z.1, widen z.2)) .single⟩

/-- A complex number with double-precision parts. -/
def complex128 (key : String) (re im : Float) : Field := ⟨key, .complex re im .double⟩

def complex128Opt (key : String) (z : Option (Float × Float)) : Field :=
  ⟨key, .complexOpt z .double⟩

/-- A time in the default format. -/
def time (key : String) (t : Time.Instant) : Field := ⟨key, .time t none⟩

def timeOpt (key : String) (t : Option Time.Instant) : Field := ⟨key, .timeOpt t none⟩

/-- A time in UTC in the default format. -/
def systemTime (key : String) (t : Time.Instant) : Field := ⟨key, .time t.inUtc none⟩

/-- A time in a format of its own. A text is taken for a keyword or a layout. -/
def timeFormat (key : String) (format : Time.Format) (t : Time.Instant) : Field :=
  ⟨key, .time t (some format)⟩

def timeFormatOpt (key : String) (format : Time.Format) (t : Option Time.Instant) : Field :=
  ⟨key, .timeOpt t (some format)⟩

/-- A duration as a whole number of units. Both are in nanoseconds. -/
def duration (key : String) (unit value : Int) : Field :=
  ⟨key, .duration (Time.Duration.clamp value) (Time.Duration.clamp unit)⟩

def durationOpt (key : String) (unit : Int) (value : Option Int) : Field :=
  ⟨key, .durationOpt (value.map Time.Duration.clamp) (Time.Duration.clamp unit)⟩

/-- A duration as text. -/
def durationText (key : String) (value : Int) : Field :=
  ⟨key, .durationText (Time.Duration.clamp value)⟩

def durationTextOpt (key : String) (value : Option Int) : Field :=
  ⟨key, .durationTextOpt (value.map Time.Duration.clamp)⟩

def string (key s : String) : Field := ⟨key, .string s⟩

def stringOpt (key : String) (s : Option String) : Field := ⟨key, .stringOpt s⟩

def strings (key : String) (ss : Option (List String)) : Field := ⟨key, .strings ss⟩

/-- The plain text of a value. -/
def stringer (key : String) (shown : Option Shown) : Field := ⟨key, .stringer shown⟩

/-- The form of a value for developers. -/
def formatter (key : String) (shown : Option Shown) : Field := ⟨key, .formatter shown⟩

/-- Any value, in its form for developers. -/
def interface (key : String) (shown : Option Shown) : Field := ⟨key, .interface shown⟩

/-- The message of an error. -/
def error (fault : Option Fault) (key : String := "error") : Field := ⟨key, .error fault⟩

/-- The messages of errors. -/
def errors (faults : Option (List Fault)) (key : String := "errors") : Field :=
  ⟨key, .errors faults⟩

/-- The message of an error and those of its causes. -/
def errorStacktrace (fault : Option Fault) (key : String := "errorStacktrace") : Field :=
  ⟨key, .errorStacktrace (fault.map .chain)⟩

/-- The form for developers of an error that carries its own trace. -/
def errorStacktraceVerbose (shown : Option Shown) (key : String := "errorStacktrace") : Field :=
  ⟨key, .errorStacktrace (shown.map .verbose)⟩

/-- A structured value, marshalled when the field is written. -/
def object (key : String) (value : Object) (site : Location) : Field := ⟨key, .object value site⟩

end Field
end LineLog
