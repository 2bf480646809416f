import LineLog.Text.Escape
import LineLog.Text.Split
import LineLog.Decimal.Digits
/-!
# LineLog.Caller

Source positions: finding the one that a record is blamed on, and writing it.

A record is blamed on its call site or, with a skip of `n`, on the `n`-th frame
above it. Frames are found by walking the symbols of the stack, innermost first.

Design points:

* A frame may hold several symbols (inlined calls), and a symbol may lack a file or
  a line. Only symbols with both count.
* The call site is the first symbol at its line whose path ends in its file, in
  whole segments (`Path.endsWith`).
* Paths are written short on demand: the last two segments, for separators of
  either kind.
-/

namespace LineLog

open Decimal Text

/-- A line of a source file. -/
structure Location where
  file : String
  line : Nat
  deriving Repr, DecidableEq, Inhabited

/-! ### Paths -/

namespace Path

/-- A piece between separators that names something. -/
def isNamed (piece : List Char) : Bool :=
  piece != [] && piece != ['.']

/-- The segments of a path; the root is the segment `/`. Empty segments and dots are left out, but
a dot at the front stays. -/
def segments (path : List Char) : List (List Char) :=
  match pieces '/' path with
  | ([], []) => []
  | ([], others) => ['/'] :: others.filter isNamed
  | (first, others) => first :: others.filter isNamed

/-- The last segments of `path` are those of `ending`. -/
def endsWith (path ending : List Char) : Bool :=
  (segments ending).isSuffixOf (segments path)

/-- A character that separates segments, in either convention. -/
def isSeparator (c : Char) : Bool :=
  c == '/' || c == '\\'

/-- The last two segments of a path; the whole path if it has fewer than two separators. -/
def short (path : List Char) : List Char :=
  let name := path.reverse.takeWhile (!isSeparator ·)
  match path.reverse.dropWhile (!isSeparator ·) with
  | [] => path
  | separator :: rest =>
    if rest.any isSeparator then
      (name ++ separator :: rest.takeWhile (!isSeparator ·)).reverse
    else path

end Path

/-! ### The stack -/

/-- A symbol of the stack, as far as its position is known. -/
structure StackSymbol where
  file : Option String
  line : Option Nat
  deriving Repr, DecidableEq

namespace StackSymbol

/-- The position of a symbol, if it is fully known. -/
def location? (s : StackSymbol) : Option Location :=
  match s.file, s.line with
  | some file, some line => some ⟨file, line⟩
  | _, _ => none

/-- The symbol of a fully known position. -/
def ofLocation (l : Location) : StackSymbol :=
  ⟨some l.file, some l.line⟩

end StackSymbol

namespace Caller

/-- A symbol at this position is the call site. -/
def isSite (site symbol : Location) : Bool :=
  symbol.line == site.line && Path.endsWith symbol.file.toList site.file.toList

/-- The walk above the call site, with `remaining` more symbols to pass. -/
def walkAbove : List StackSymbol → Nat → Option Location
  | [], _ => none
  | s :: rest, remaining =>
    match s.location? with
    | none => walkAbove rest remaining
    | some l =>
      match remaining with
      | 0 => some l
      | n + 1 => walkAbove rest n

/-- The walk up to the call site and, from there, `remaining` more symbols. -/
def walk (site : Location) : List StackSymbol → Nat → Option Location
  | [], _ => none
  | s :: rest, remaining =>
    match s.location? with
    | none => walk site rest remaining
    | some l =>
      if isSite site l then walkAbove rest remaining else walk site rest remaining

/-- The position that `skip` frames above the call site have; the call site itself for no skip. -/
def resolve (stack : List StackSymbol) (site : Location) (skip : Nat) : Option Location :=
  match skip with
  | 0 => some site
  | n + 1 => walk site stack n

/-- The text of a position, `file:line`, as it stands inside a JSON string. An unknown position has
an empty file and line 0. -/
def render (short : Bool) : Option Location → List Char
  | none => [':', '0']
  | some l =>
    let file := l.file.toList
    escape (if short then Path.short file else file) ++ ':' :: natural l.line

end Caller
end LineLog
