import LineLog.Json.Reader
import LineLog.Severity.Basic
import LineLog.Time.Format
/-!
# LineLog.Json.Encodings

How severities and time formats stand in configuration text.

Design points:

* A severity is its number, also when it has a name.
* A fixed time format is its name. A layout is an object with the single member
  `Custom`, so a layout that spells a keyword stays a layout.
* Reading a fixed format also takes the object form, with `null` as its value.
-/

namespace LineLog

open Decimal Text Json

/-! ### Severities -/

/-- The JSON value of a severity. -/
def Severity.json (s : Severity) : List Char :=
  s.number

/-- Reads a severity. -/
def Severity.reader : Reader Severity := fun cs => do
  let (n, rest) ← Json.integer Int32.minValue.toInt Int32.maxValue.toInt cs
  return (⟨Int32.ofInt n⟩, rest)

/-! ### Time formats -/

namespace Time.Format

/-- The member name of a layout. -/
def customName : String := "Custom"

/-- The JSON value of a time format. -/
def json : Format → List Char
  | custom layout => '{' :: quoted customName ++ ':' :: quoted layout ++ ['}']
  | fixed => quoted (fixed.name?.getD "")

/-- The fixed format of this name. -/
def ofName? (name : List Char) : Option Format :=
  fixed.find? fun f => f.name?.map String.toList = some name

/-- Take a character off the front of a text, after blanks. -/
def sign (c : Char) (cs : List Char) : Except ReadError (List Char) :=
  match skipBlanks cs with
  | [] => .error .truncated
  | d :: rest => if d = c then .ok rest else .error .malformed

/-- Reads the rest of the object form, after its opening brace. -/
def objectReader : Reader Format := fun cs => do
  let (name, cs) ← Json.memberName cs
  if name = customName.toList then
    let (layout, cs) ← Json.string (← sign ':' cs)
    return (custom (String.ofList layout), ← sign '}' cs)
  else
    match ofName? name with
    | none => .error .mismatch
    | some format =>
      let (_, cs) ← Json.null (← sign ':' cs)
      return (format, ← sign '}' cs)

/-- Reads a time format. -/
def reader : Reader Format :=
  Json.value fun cs =>
    match cs with
    | '{' :: rest => objectReader rest
    | '"' :: _ => do
      let (name, rest) ← Json.string cs
      match ofName? name with
      | none => .error .mismatch
      | some format => return (format, rest)
    | _ => .error .malformed

end Time.Format
end LineLog
