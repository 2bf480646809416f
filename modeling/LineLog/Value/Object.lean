import LineLog.Text.Escape
import LineLog.Decimal.Style
import LineLog.Value.Refusal
/-!
# LineLog.Value.Object

Structured values and their marshalling to compact JSON.

Design points:

* Members keep their order, and a key may occur twice.
* Not a number and the infinities are marshalled to `null`, but cannot be keys; every
  other floating-point number has a point or an exponent.
* Marshalling is all or nothing: a value that refuses, anywhere inside, makes the
  whole object fail with its refusal.
* The text of a value with an encoder of its own is taken as it is, so it is the only
  part of a marshalled object that need not be JSON.
-/

namespace LineLog

open Decimal Text

/-- A structured value. -/
inductive Object
  | null
  | bool (b : Bool)
  | int (n : Int64)
  | uint (n : UInt64)
  | float (x : Float)
  | text (s : String)
  | array (items : List Object)
  | map (members : List (Object × Object))
  /-- A value that refuses to be marshalled, with this message. -/
  | refusing (message : String)
  /-- A value that brings an encoder of its own, which answers this text. -/
  | verbatim (json : List Char)

namespace Object

/-- The JSON text `null`. -/
def nullText : List Char := ['n', 'u', 'l', 'l']

/-- The JSON text of a truth value. -/
def boolText (b : Bool) : List Char :=
  if b then ['t', 'r', 'u', 'e'] else ['f', 'a', 'l', 's', 'e']

/-- The JSON text of a floating-point number. -/
def floatText (x : Float) : List Char :=
  match Binary.ofFloat x with
  | .finite x => Style.compact.finite .double x
  | _ => nullText

/-- Why a value without a text of its own cannot be the key of a member. -/
def keyRefusal : Refusal := { reason := "key must be a string" }

/-- Why a floating-point number that is not finite cannot be the key of a member. -/
def floatKeyRefusal : Refusal := { reason := "float key must be finite (got NaN or +/-inf)" }

/-- A value as the key of a member. Numbers and truth values are keys by their text. -/
def key : Object → Except Refusal (List Char)
  | text s => .ok (quoted s)
  | int n => .ok (quote (integer n.toInt))
  | uint n => .ok (quote (natural n.toNat))
  | bool b => .ok (quote (boolText b))
  | float x =>
    match Binary.ofFloat x with
    | .finite x => .ok (quote (Style.compact.finite .double x))
    | _ => .error floatKeyRefusal
  | refusing message => .error (.ofMessage message)
  | null | array _ | map _ | verbatim _ => .error keyRefusal

/-- Items between brackets or braces, with commas between them. -/
def enclosed (first last : Char) (items : List (List Char)) : List Char :=
  first :: [','].intercalate items ++ [last]

mutual

/-- The compact JSON text of a value, or the refusal of the first part that refuses. -/
def marshal : Object → Except Refusal (List Char)
  | null => .ok nullText
  | bool b => .ok (boolText b)
  | int n => .ok (integer n.toInt)
  | uint n => .ok (natural n.toNat)
  | float x => .ok (floatText x)
  | text s => .ok (quoted s)
  | array items => (marshalItems items).map (enclosed '[' ']')
  | map members => (marshalMembers members).map (enclosed '{' '}')
  | refusing message => .error (.ofMessage message)
  | verbatim json => .ok json

/-- The texts of the items of an array. -/
def marshalItems : List Object → Except Refusal (List (List Char))
  | [] => .ok []
  | item :: items => do
    let first ← marshal item
    let rest ← marshalItems items
    return first :: rest

/-- The texts of the members of a map. -/
def marshalMembers : List (Object × Object) → Except Refusal (List (List Char))
  | [] => .ok []
  | (k, v) :: members => do
    let name ← key k
    let value ← marshal v
    let rest ← marshalMembers members
    return (name ++ ':' :: value) :: rest

end
end Object
end LineLog
