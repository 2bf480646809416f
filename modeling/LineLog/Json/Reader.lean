import LineLog.Decimal.Binary
import LineLog.Text.Bytes
/-!
# LineLog.Json.Reader

Typed reading of JSON text.

A reader takes one value of a known type off the front of a text. What it cannot
read it blames in one of three ways (`ReadError`): the text ends early, the text
is not JSON, or it is JSON of another type or out of range.

Design points:

* The grammar is strict: no comments, no leading zeros or plus signs, no raw
  controls inside strings, and surrogate escapes only in pairs.
* A value of another type is blamed for what is wrong with it first: only when its
  own text could be read is it a `mismatch` (`blame`). Arrays and objects are not
  looked into.
* A number with a point or an exponent is never an integer, nor is `-0`. A number
  too large for double precision is malformed. What counts is the product of its
  leading digits, as many as fit into 64 bits, and a power of ten, with both factors
  rounded before (`overflows`).
* `skip` passes over a value of unknown type. It does not pair surrogates and does
  not evaluate numbers, and it blames a number that ends early as malformed.
-/

namespace LineLog.Json

open Decimal

-- Powers of natural numbers are the core ones, whatever else is imported.
attribute [local instance (high)] instPowNat

/-- Why a text could not be read. -/
inductive ReadError
  /-- The text ends early. -/
  | truncated
  /-- The text is not JSON, or goes on after the value. -/
  | malformed
  /-- The value has the wrong type or is out of range. -/
  | mismatch
  deriving Repr, DecidableEq

/-- Takes a value off the front of a text. -/
abbrev Reader (α : Type) := List Char → Except ReadError (α × List Char)

/-- The characters that may stand between tokens. -/
def isBlank (c : Char) : Bool :=
  c == ' ' || c == '\n' || c == '\t' || c == '\r'

/-- A text without the blanks at its front. -/
def skipBlanks (cs : List Char) : List Char :=
  cs.dropWhile isBlank

/-- Take the given characters off the front of a text. -/
def expect : List Char → List Char → Except ReadError (List Char)
  | [], cs => .ok cs
  | _ :: _, [] => .error .truncated
  | w :: ws, c :: cs => if c = w then expect ws cs else .error .malformed

/-! ### Strings -/

/-- The value of a hexadecimal digit. -/
def hexValue? (c : Char) : Option Nat :=
  if c.isDigit then some (c.toNat - '0'.toNat)
  else if 'a' ≤ c ∧ c ≤ 'f' then some (c.toNat - 'a'.toNat + 10)
  else if 'A' ≤ c ∧ c ≤ 'F' then some (c.toNat - 'A'.toNat + 10)
  else none

/-- The value of the four hexadecimal digits at the front of a text. Less than four bytes of text
end early, whatever they are. -/
def fourHex (cs : List Char) : Except ReadError Nat :=
  if (Text.utf8 (cs.take 4)).length < 4 then .error .truncated
  else
    match cs with
    | a :: b :: c :: d :: _ =>
      match hexValue? a, hexValue? b, hexValue? c, hexValue? d with
      | some a, some b, some c, some d => .ok (((a * 16 + b) * 16 + c) * 16 + d)
      | _, _, _, _ => .error .malformed
    | _ => .error .malformed

/-- The code is the first half of a surrogate pair. -/
def isHighSurrogate (n : Nat) : Bool :=
  decide (0xD800 ≤ n ∧ n ≤ 0xDBFF)

/-- The code is the second half of a surrogate pair. -/
def isLowSurrogate (n : Nat) : Bool :=
  decide (0xDC00 ≤ n ∧ n ≤ 0xDFFF)

/-- The character of a `\u` escape and the length of what follows the `u`. -/
def unicodeEscape (cs : List Char) : Except ReadError (Char × Nat) := do
  let high ← fourHex cs
  if isLowSurrogate high then .error .malformed
  else if !isHighSurrogate high then .ok (Char.ofNat high, 4)
  else
    match cs.drop 4 with
    | [] => .error .truncated
    | '\\' :: [] => .error .truncated
    | '\\' :: 'u' :: rest =>
      let low ← fourHex rest
      if isLowSurrogate low then
        .ok (Char.ofNat (0x10000 + (high - 0xD800) * 0x400 + (low - 0xDC00)), 10)
      else .error .malformed
    | _ => .error .malformed

/-- The character of an escape and the length of what follows the backslash. -/
def escapedChar : List Char → Except ReadError (Char × Nat)
  | [] => .error .truncated
  | '"' :: _ => .ok ('"', 1)
  | '\\' :: _ => .ok ('\\', 1)
  | '/' :: _ => .ok ('/', 1)
  | 'b' :: _ => .ok ('\x08', 1)
  | 'f' :: _ => .ok ('\x0c', 1)
  | 'n' :: _ => .ok ('\n', 1)
  | 'r' :: _ => .ok ('\r', 1)
  | 't' :: _ => .ok ('\t', 1)
  | 'u' :: cs => (unicodeEscape cs).map fun (c, n) => (c, n + 1)
  | _ => .error .malformed

/-- The rest of a string, of which the next `pending` characters have been read already. -/
def stringFrom : Nat → Reader (List Char)
  | _, [] => .error .truncated
  | pending + 1, _ :: cs => stringFrom pending cs
  | 0, c :: cs =>
    if c = '"' then .ok ([], cs)
    else if c = '\\' then do
      let (decoded, length) ← escapedChar cs
      let (rest, left) ← stringFrom length cs
      return (decoded :: rest, left)
    else if c.toNat < 0x20 then .error .malformed
    else do
      let (rest, left) ← stringFrom 0 cs
      return (c :: rest, left)

/-- The rest of a string, after its opening quotation mark. -/
def stringBody : Reader (List Char) :=
  stringFrom 0

/-! ### Numbers -/

/-- What a number literal stands for. -/
inductive Numeral
  | natural (n : Nat)
  /-- A negative integer by its magnitude, which is not zero. -/
  | negative (magnitude : Nat)
  /-- A number with a point or an exponent, or a negative zero. -/
  | real
  deriving Repr, DecidableEq

/-- The digits at the front of a text and what follows them. -/
def digitRun (cs : List Char) : List Char × List Char :=
  (cs.takeWhile Char.isDigit, cs.dropWhile Char.isDigit)

/-- The digits at the front of a text, at least one. -/
def someDigits : Reader (List Char)
  | [] => .error .truncated
  | cs =>
    match digitRun cs with
    | ([], _) => .error .malformed
    | run => .ok run

/-- The integer part of a number: digits without a leading zero. -/
def integerPart (cs : List Char) : Except ReadError (List Char × List Char) := do
  let (ds, rest) ← someDigits cs
  match ds with
  | '0' :: _ :: _ => .error .malformed
  | _ => return (ds, rest)

/-- The digits after the point of a number; none if there is no point. -/
def fractionPart : Reader (List Char)
  | '.' :: cs => someDigits cs
  | cs => .ok ([], cs)

/-- The exponent of a number, if it has one. -/
def exponentPart (cs : List Char) : Except ReadError (Option Int × List Char) :=
  let magnitude (negative : Bool) (cs : List Char) : Except ReadError (Option Int × List Char) := do
    let (ds, rest) ← someDigits cs
    let n : Int := Nat.ofDigitChars 10 ds 0
    return (some (if negative then -n else n), rest)
  match cs with
  | c :: rest =>
    if c = 'e' ∨ c = 'E' then
      match rest with
      | '+' :: rest => magnitude false rest
      | '-' :: rest => magnitude true rest
      | rest => magnitude false rest
    else .ok (none, cs)
  | [] => .ok (none, [])

/-- Append digits to a number as long as it fits into 64 bits: the number, and the digits from the
first that does not fit on. -/
def gather (n : Nat) : List Char → Nat × List Char
  | [] => (n, [])
  | d :: ds =>
    let more := Nat.ofDigitChars 10 [d] n
    if more < 2 ^ 64 then gather more ds else (n, d :: ds)

/-- The leading digits of a number as far as they fit into 64 bits, and the power of ten of the last
of them. Digits of the whole part that do not fit count as places, those after the point do not. -/
def leadingDigits (whole places : List Char) : Nat × Int :=
  let (n, beyond) := gather 0 whole
  let (n, dropped) := gather n places
  (n, (beyond.length : Int) - (places.length - dropped.length : Nat))

/-- The greatest power of ten in double precision. -/
def greatestPower : Nat := 308

/-- `digits * 10 ^ exponent` is infinite in double precision, where both factors are rounded before
they are multiplied. -/
def overflows (digits : Nat) (exponent : Int) : Bool :=
  if digits = 0 ∨ exponent < 0 then false
  else if (greatestPower : Int) < exponent then true
  else
    match Finite.ofNat .double digits, Finite.ofNat .double (10 ^ exponent.toNat) with
    | .finite x, .finite y => !(x.mul .double y).isFinite
    | _, _ => true

/-- A number without its sign. -/
def unsigned : Reader Numeral := fun cs => do
  let (whole, cs) ← integerPart cs
  let (places, cs) ← fractionPart cs
  let (exponent, cs) ← exponentPart cs
  let (digits, power) := leadingDigits whole places
  if overflows digits (power + exponent.getD 0) then .error .malformed
  else if places.isEmpty && exponent.isNone then .ok (.natural (Nat.ofDigitChars 10 whole 0), cs)
  else .ok (.real, cs)

/-- The number with the opposite sign. -/
def Numeral.negate : Numeral → Numeral
  | natural 0 => real
  | natural n => negative n
  | other => other

/-- A number. -/
def number : Reader Numeral
  | '-' :: cs => (unsigned cs).map fun (n, rest) => (n.negate, rest)
  | cs => unsigned cs

/-! ### Values of a known type -/

/-- What is wrong with a value that has another type than the wanted one. -/
def blame (cs : List Char) : ReadError :=
  let checked {α : Type} : Except ReadError α → ReadError
    | .ok _ => .mismatch
    | .error e => e
  match cs with
  | [] => .malformed
  | c :: rest =>
    if c = 'n' then checked (expect ['u', 'l', 'l'] rest)
    else if c = 't' then checked (expect ['r', 'u', 'e'] rest)
    else if c = 'f' then checked (expect ['a', 'l', 's', 'e'] rest)
    else if c = '-' ∨ c.isDigit then checked (number cs)
    else if c = '"' then checked (stringBody rest)
    else if c = '[' ∨ c = '{' then .mismatch
    else .malformed

/-- Leave out the blanks in front of a value; there must be a value. -/
def value {α : Type} (read : Reader α) : Reader α := fun cs =>
  match skipBlanks cs with
  | [] => .error .truncated
  | cs => read cs

/-- A truth value. -/
def bool : Reader Bool :=
  value fun cs =>
    match cs with
    | 't' :: rest => (expect ['r', 'u', 'e'] rest).map (true, ·)
    | 'f' :: rest => (expect ['a', 'l', 's', 'e'] rest).map (false, ·)
    | _ => .error (blame cs)

/-- The value `null`. -/
def null : Reader Unit :=
  value fun cs =>
    match cs with
    | 'n' :: rest => (expect ['u', 'l', 'l'] rest).map ((), ·)
    | _ => .error (blame cs)

/-- A string. -/
def string : Reader (List Char) :=
  value fun cs =>
    match cs with
    | '"' :: rest => stringBody rest
    | _ => .error (blame cs)

/-- The name of a member. Anything but a string is malformed. -/
def memberName : Reader (List Char) :=
  value fun cs =>
    match cs with
    | '"' :: rest => stringBody rest
    | _ => .error .malformed

/-- An integer between two bounds. -/
def integer (low high : Int) : Reader Int :=
  value fun cs =>
    let inRange (n : Int) (rest : List Char) : Except ReadError (Int × List Char) :=
      if low ≤ n ∧ n ≤ high then .ok (n, rest) else .error .mismatch
    match cs with
    | c :: _ =>
      if c = '-' ∨ c.isDigit then do
        match ← number cs with
        | (.natural n, rest) => inRange n rest
        | (.negative n, rest) => inRange (-(n : Int)) rest
        | (.real, _) => .error .mismatch
      else .error (blame cs)
    | [] => .error .truncated

/-! ### Values of an unknown type -/

/-- Pass over the rest of a string, of which the next `pending` characters have been read already. -/
def skipStringFrom : Nat → List Char → Except ReadError (List Char)
  | _, [] => .error .truncated
  | pending + 1, _ :: cs => skipStringFrom pending cs
  | 0, c :: cs =>
    if c = '"' then .ok cs
    else if c = '\\' then
      match cs with
      | [] => .error .truncated
      | 'u' :: rest =>
        match fourHex rest with
        | .ok _ => skipStringFrom 5 cs
        | .error e => .error e
      | e :: _ =>
        if ['"', '\\', '/', 'b', 'f', 'n', 'r', 't'].contains e then skipStringFrom 1 cs
        else .error .malformed
    else if c.toNat < 0x20 then .error .malformed
    else skipStringFrom 0 cs

/-- Pass over a number. One that ends early is malformed. -/
def skipNumber (cs : List Char) : Except ReadError (List Char) :=
  let unsigned := match cs with
    | '-' :: rest => rest
    | _ => cs
  let parts : Except ReadError (List Char) := do
    let (_, cs) ← integerPart unsigned
    let (_, cs) ← fractionPart cs
    let (_, cs) ← exponentPart cs
    return cs
  match parts with
  | .ok rest => .ok rest
  | .error _ => .error .malformed

mutual

/-- Pass over a value. `fuel` bounds the number of values and separators on the way. -/
def skipWith : Nat → List Char → Except ReadError (List Char)
  | 0, _ => .error .truncated
  | fuel + 1, cs =>
    match skipBlanks cs with
    | [] => .error .truncated
    | c :: rest =>
      if c = 'n' then expect ['u', 'l', 'l'] rest
      else if c = 't' then expect ['r', 'u', 'e'] rest
      else if c = 'f' then expect ['a', 'l', 's', 'e'] rest
      else if c = '-' ∨ c.isDigit then skipNumber (c :: rest)
      else if c = '"' then skipStringFrom 0 rest
      else if c = '[' then
        match skipBlanks rest with
        | ']' :: rest => .ok rest
        | rest => skipItems fuel rest
      else if c = '{' then
        match skipBlanks rest with
        | '}' :: rest => .ok rest
        | rest => skipMembers fuel rest
      else .error .malformed

/-- Pass over the items of an array up to its end. -/
def skipItems : Nat → List Char → Except ReadError (List Char)
  | 0, _ => .error .truncated
  | fuel + 1, cs => do
    match skipBlanks (← skipWith fuel cs) with
    | [] => .error .truncated
    | ']' :: rest => .ok rest
    | ',' :: rest => skipItems fuel rest
    | _ => .error .malformed

/-- Pass over the members of an object up to its end. -/
def skipMembers : Nat → List Char → Except ReadError (List Char)
  | 0, _ => .error .truncated
  | fuel + 1, cs =>
    match skipBlanks cs with
    | [] => .error .truncated
    | '"' :: rest => do
      match skipBlanks (← skipStringFrom 0 rest) with
      | [] => .error .truncated
      | ':' :: rest =>
        match skipBlanks (← skipWith fuel rest) with
        | [] => .error .truncated
        | '}' :: rest => .ok rest
        | ',' :: rest => skipMembers fuel rest
        | _ => .error .malformed
      | _ => .error .malformed
    | _ => .error .malformed

end

/-- Pass over a value. -/
def skip (cs : List Char) : Except ReadError (List Char) :=
  skipWith (2 * cs.length + 1) cs

/-! ### Whole texts -/

/-- Read a text that holds one value and nothing else. -/
def whole {α : Type} (read : Reader α) (text : List Char) : Except ReadError α := do
  let (a, rest) ← read text
  match skipBlanks rest with
  | [] => .ok a
  | _ => .error .malformed

end LineLog.Json
