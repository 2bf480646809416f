import LineLog.Decimal.Digits
import LineLog.Text.Classes
/-!
# LineLog.Severity.Basic

Severities: ordered numeric levels, nine of which have fixed names.

Design points:

* The built-in levels are 100 apart, so that other levels fit between them.
* A severity is shown by its built-in name in upper case, or by its number.
* Reading (`Severity.ofText?`) ignores white space around the text and the case of
  a name, and takes any decimal number in range with an optional sign.
-/

namespace LineLog

open Decimal Text

/-- A numeric level. Higher is more urgent. -/
structure Severity where
  level : Int32
  deriving Repr, DecidableEq, Inhabited

/-- The levels with fixed names. -/
inductive Builtin
  | default | debug | info | notice | warning | error | critical | alert | emergency
  deriving Repr, DecidableEq, Inhabited

namespace Builtin

/-- The built-in levels from the least urgent on. -/
def all : List Builtin :=
  [default, debug, info, notice, warning, error, critical, alert, emergency]

/-- The number of a built-in level. -/
def severity : Builtin → Severity
  | default => ⟨0⟩
  | debug => ⟨100⟩
  | info => ⟨200⟩
  | notice => ⟨300⟩
  | warning => ⟨400⟩
  | error => ⟨500⟩
  | critical => ⟨600⟩
  | alert => ⟨700⟩
  | emergency => ⟨800⟩

def lowercase : Builtin → String
  | default => "default"
  | debug => "debug"
  | info => "info"
  | notice => "notice"
  | warning => "warning"
  | error => "error"
  | critical => "critical"
  | alert => "alert"
  | emergency => "emergency"

def uppercase : Builtin → String
  | default => "DEFAULT"
  | debug => "DEBUG"
  | info => "INFO"
  | notice => "NOTICE"
  | warning => "WARNING"
  | error => "ERROR"
  | critical => "CRITICAL"
  | alert => "ALERT"
  | emergency => "EMERGENCY"

/-- The name of a built-in level in the wanted case. -/
def name (b : Builtin) (upper : Bool) : String :=
  if upper then b.uppercase else b.lowercase

end Builtin

namespace Severity

/-- The level is below the other one. -/
def below (a b : Severity) : Bool :=
  decide (a.level < b.level)

/-- The built-in level of this number, if there is one. -/
def builtin? (s : Severity) : Option Builtin :=
  Builtin.all.find? fun b => b.severity = s

/-- The fixed name of the level in the wanted case, if it has one. -/
def builtinName? (s : Severity) (upper : Bool) : Option String :=
  s.builtin?.map (Builtin.name · upper)

/-- The level as a decimal number. -/
def number (s : Severity) : List Char :=
  integer s.level.toInt

/-- The built-in name in upper case, or the number. -/
def display (s : Severity) : String :=
  (s.builtinName? true).getD (String.ofList s.number)

/-- How many built-in levels are below this one. -/
def rank (s : Severity) : Nat :=
  Builtin.all.countP fun b => b.severity.below s

/-! ### Reading -/

/-- The value of a non-empty run of decimal digits. -/
def digits? (cs : List Char) : Option Nat :=
  if cs.isEmpty || !cs.all Char.isDigit then none else some (Nat.ofDigitChars 10 cs 0)

/-- The value of a decimal integer with an optional sign. -/
def integer? : List Char → Option Int
  | '+' :: cs => (digits? cs).map fun n => (n : Int)
  | '-' :: cs => (digits? cs).map fun n => -(n : Int)
  | cs => (digits? cs).map fun n => (n : Int)

/-- The level of this number, if it is in range. -/
def ofInt? (n : Int) : Option Severity :=
  if Int32.minValue.toInt ≤ n ∧ n ≤ Int32.maxValue.toInt then some ⟨Int32.ofInt n⟩ else none

/-- The level that a text names, by a built-in name in any case or by a number. -/
def ofText? (s : String) : Option Severity :=
  let cs := upper (trim s.toList)
  match Builtin.all.find? fun b => b.uppercase.toList = cs with
  | some b => some b.severity
  | none => (integer? cs).bind ofInt?

/-- What is said of a text that names no level. -/
def invalidMessage (s : String) : String :=
  "Invalid severity: '" ++ s ++ "'"

/-- The level that a text names, or a message that quotes the text. -/
def ofText (s : String) : Except String Severity :=
  match ofText? s with
  | some severity => .ok severity
  | none => .error (invalidMessage s)

end Severity
end LineLog
