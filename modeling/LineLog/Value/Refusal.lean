import LineLog.Decimal.Digits
/-!
# LineLog.Value.Refusal

Refusals: what a value says that cannot be marshalled.

A message that ends in ` at line 2 column 7` blames a position of some text. The
position is taken out of the message (`Refusal.ofMessage`) and written again behind
the reason (`Refusal.message`).

Design points:

* Line 0 stands for no position, which is not written.
* Numbers are written without leading zeros, however they were given. A number of
  more than 64 bits is no part of a position.
-/

namespace LineLog

open Decimal

/-- A place in a text. -/
structure Position where
  line : Nat
  column : Nat
  deriving Repr, DecidableEq

/-- Why a value cannot be marshalled, and the position that it blames. -/
structure Refusal where
  reason : String
  position : Option Position := none
  deriving Repr, DecidableEq

namespace Refusal

/-- What stands before a line number. -/
def lineWords : List Char := " at line ".toList

/-- What stands before a column number. -/
def columnWords : List Char := " column ".toList

/-- Take a number and the words before it off the end of a text. -/
def cutNumber? (words cs : List Char) : Option (List Char × Nat) :=
  let digits := (cs.reverse.takeWhile Char.isDigit).reverse
  let n := Nat.ofDigitChars 10 digits 0
  if digits = [] ∨ UInt64.size ≤ n then none
  else (words.isSuffixOf? (cs.reverse.dropWhile Char.isDigit).reverse).map (·, n)

/-- Take a position off the end of a text. -/
def cutPosition? (cs : List Char) : Option (List Char × Position) := do
  let (cs, column) ← cutNumber? columnWords cs
  let (cs, line) ← cutNumber? lineWords cs
  return (cs, ⟨line, column⟩)

/-- The refusal with a given message. -/
def ofMessage (message : String) : Refusal :=
  match cutPosition? message.toList with
  | none => { reason := message }
  | some (reason, position) =>
    { reason := String.ofList reason
      position := if position.line = 0 then none else some position }

/-- The text of a position. -/
def positionText (p : Position) : List Char :=
  lineWords ++ natural p.line ++ columnWords ++ natural p.column

/-- The reason and, behind it, the position. -/
def message (r : Refusal) : String :=
  match r.position with
  | none => r.reason
  | some p => r.reason ++ String.ofList (positionText p)

end Refusal
end LineLog
