import LineLog.Caller
import LineLog.Config.Basic
import LineLog.Text.Decode
import LineLog.Time.Word
/-!
# LineLog.Caller.Walk

The walk up the stack, symbol by symbol.

`Caller.resolve` looks through one list of symbols and is done when it has found its position. Here a stack
is what it is while a program runs: frames, each with a symbol for every call that was inlined into it. The
walk is told of each symbol and keeps a note of how far it has got.

Design points:

* A walk can be stopped between two frames only. The symbols of a frame are visited to the last, so those
  behind the one that was looked for must be let pass.
* What remains to be skipped is a word without a sign. A visit that would take it below zero has no result;
  that there is none such is for the proofs to say.
* The frames that were not looked at are part of the answer.
* Files are named in bytes, as the debug information has them. They are compared as bytes and shown as text.
-/

namespace LineLog

open Text

/-- What is known about a symbol of the stack. The name of its file need not be text. -/
structure NativeSymbol where
  file : Option Bytes
  line : Option Nat
  deriving Repr, DecidableEq

/-- A frame of the stack: its symbols, the innermost call first. -/
abbrev StackFrame := List NativeSymbol

/-- The symbol as it is known where its file is named in text. -/
def StackSymbol.native (s : StackSymbol) : NativeSymbol :=
  ⟨s.file.map fun file => utf8 file.toList, s.line⟩

/-- What a record is blamed on. -/
inductive Caller
  /-- The call site itself. -/
  | site (l : Location)
  /-- A symbol that was found on the stack. -/
  | symbol (file : String) (line : Nat)
  deriving Repr, DecidableEq

/-- The position that is shown for a caller. -/
def Caller.location : Caller → Location
  | site l => l
  | symbol file line => ⟨file, line⟩

/-- `endsWith` for a path in bytes. Segments are cut and compared without a look at what a character
means, so bytes can take the place of characters. -/
def Path.nativeEndsWith (path : Bytes) (ending : List Char) : Bool :=
  endsWith (latin path) (latin (utf8 ending))

/-! ### Visiting symbols -/

/-- How far a walk has got. -/
structure Walk where
  /-- The call site has been passed. -/
  found : Bool
  /-- The symbols to go, with the one that is looked for. -/
  remaining : SkipCount
  resolved : Option Caller
  deriving Repr, DecidableEq

namespace Walk

/-- A walk that has not seen anything. -/
def start (skip : SkipCount) : Walk where
  found := false
  remaining := skip
  resolved := none

/-- Visit a symbol; none if there would be less than nothing to go. -/
def visit (site : Location) (w : Walk) (s : NativeSymbol) : Option Walk :=
  match w.resolved, s.file, s.line with
  | none, some file, some line =>
    if w.found then
      (Time.Word.sub? w.remaining 1).map fun remaining =>
        { w with
          remaining := remaining
          resolved := if remaining = 0 then some (.symbol (String.ofList (lossy file)) line) else none }
    else some { w with found := line == site.line && Path.nativeEndsWith file site.file.toList }
  | _, _, _ => some w

/-- Visit symbols, one after the other. -/
def visitAll (site : Location) (w : Walk) (symbols : List NativeSymbol) : Option Walk :=
  symbols.foldlM (visit site) w

/-- Go up the stack to the end of the frame that settles the walk. Beside the end of the walk, the frames
that are left. -/
def climb (site : Location) (w : Walk) : List StackFrame → Option (Walk × List StackFrame)
  | [] => some (w, [])
  | frame :: frames =>
    (w.visitAll site frame).bind fun w =>
      if w.resolved.isSome then some (w, frames) else climb site w frames

end Walk

/-- What a record is blamed on, and the frames that were not looked at. -/
def Caller.resolve? (stack : List StackFrame) (site : Location) (skip : SkipCount) :
    Option (Option Caller × List StackFrame) :=
  if skip = 0 then some (some (.site site), stack)
  else ((Walk.start skip).climb site stack).map fun done => (done.1.resolved, done.2)

end LineLog
