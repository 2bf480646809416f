import LineLog.Decimal.Style
import LineLog.Text.Invisible
/-!
# LineLog.Value.Shown

Values that can show themselves, and what showing them writes.

A value writes its text in pieces and may then fail. What it has written by then
stays written, so the outcome of showing a value is the pieces together with a
flag (`Shown`).

Design points:

* `Datum` holds the basic values. Each has two forms: `display`, its plain text,
  and `inspect`, the form for developers, in which text stands in quotation marks.
* Inspected text names what cannot be seen by its code, and never holds a line
  break.
-/

namespace LineLog

open Decimal Text

/-- What showing a value has written, and whether the value then failed. -/
structure Shown where
  chunks : List String
  fails : Bool := false
  deriving Repr, DecidableEq, Inhabited

namespace Shown

/-- Everything that was written. -/
def text (s : Shown) : List Char :=
  s.chunks.flatMap String.toList

/-- A single piece of text, written without failing. -/
def ofChars (cs : List Char) : Shown :=
  ⟨[String.ofList cs], false⟩

/-- A string, written without failing. -/
def ofString (s : String) : Shown :=
  ⟨[s], false⟩

@[simp] theorem text_ofChars (cs : List Char) : (ofChars cs).text = cs := by
  simp [ofChars, text]

@[simp] theorem text_ofString (s : String) : (ofString s).text = s.toList := by
  simp [ofString, text]

/-- The value behind a piece of text. -/
def behind (before : String) (s : Shown) : Shown :=
  ⟨before :: s.chunks, s.fails⟩

@[simp] theorem text_behind (before : String) (s : Shown) :
    (s.behind before).text = before.toList ++ s.text := by
  simp [behind, text]

@[simp] theorem fails_behind (before : String) (s : Shown) : (s.behind before).fails = s.fails := rfl

/-- The value between two pieces of text. Nothing follows a value that fails. -/
def between (before after : String) (s : Shown) : Shown :=
  ⟨before :: s.chunks ++ (if s.fails then [] else [after]), s.fails⟩

end Shown

/-! ### Inspected text -/

namespace Inspect

/-- One character of inspected text. -/
def char (c : Char) : List Char :=
  if c = '"' then ['\\', '"']
  else if c = '\\' then ['\\', '\\']
  else if c = '\n' then ['\\', 'n']
  else if c = '\r' then ['\\', 'r']
  else if c = '\t' then ['\\', 't']
  else if c.toNat = 0 then ['\\', '0']
  else if isInvisible c || isMark c then
    '\\' :: 'u' :: '{' :: Nat.toDigits 16 c.toNat ++ ['}']
  else [c]

/-- Text in quotation marks, with what cannot be seen spelled out. -/
def text (cs : List Char) : List Char :=
  '"' :: cs.flatMap char ++ ['"']

/-- A string in quotation marks, with what cannot be seen spelled out. -/
def string (s : String) : List Char :=
  text s.toList

/-- Inspected values in brackets, with a comma and a space between them. -/
def list (items : List (List Char)) : List Char :=
  '[' :: [',', ' '].intercalate items ++ [']']

/-- A truth value. -/
def bool (b : Bool) : List Char :=
  if b then "true".toList else "false".toList

end Inspect

/-! ### Basic values -/

/-- A basic value that can be shown. -/
inductive Datum
  /-- A value with a text of its own. -/
  | custom (shown : Shown)
  | text (s : String)
  | int (n : Int)
  | bool (b : Bool)
  | float (x : Float)
  | optionalText (s : Option String)
  | texts (ss : List String)
  | ints (ns : List Int)
  | unit

namespace Datum

/-- The form for developers. -/
def inspect : Datum → Shown
  | custom s => s
  | text s => .ofChars (Inspect.string s)
  | int n => .ofChars (integer n)
  | bool b => .ofChars (Inspect.bool b)
  | float x => .ofChars (Style.precise.float x)
  | optionalText none => .ofString "None"
  | optionalText (some s) => .ofChars ("Some(".toList ++ Inspect.string s ++ [')'])
  | texts ss => .ofChars (Inspect.list (ss.map Inspect.string))
  | ints ns => .ofChars (Inspect.list (ns.map integer))
  | unit => .ofString "()"

/-- The plain text. Values without one are inspected. -/
def display : Datum → Shown
  | text s => .ofString s
  | float x => .ofChars (Style.plain.float x)
  | other => other.inspect

end Datum
end LineLog
