import LineLog.Sink.Files
/-!
# LineLog.Sink.Basic

Destinations of records.

A sink is offered one record at a time and either takes it or fails. A failed offer
may leave part of the record behind.

Design points:

* Memory takes text as it is. All other sinks take bytes, since they can stop in
  the middle of a character.
* A `Writer` follows a script of answers to its calls, and takes everything once the
  script is over. Writing a record calls it until all bytes are accepted
  (`Writer.writeAll`).
* An `Unreliable` sink keeps every record that it is offered and fails at chosen
  attempts.
* A standard stream belongs to the process, so what it answers to a record is not part
  of a sink but told to `Sink.offer`.
-/

namespace LineLog

open Text

/-- A standard stream of the process. -/
inductive Stream
  | stderr
  | stdout
  deriving Repr, DecidableEq

/-- The name of a standard stream. -/
def Stream.name : Stream → String
  | stderr => "stderr"
  | stdout => "stdout"

/-! ### Writers -/

/-- What a writer answers to a call. -/
inductive Answer
  /-- Accept up to this many bytes. -/
  | accept (count : Nat)
  | acceptAll
  /-- Nothing happened; the call is made again. -/
  | interrupted
  | fail (e : IoError)
  deriving Repr, DecidableEq

/-- A destination that may accept a record in pieces. -/
structure Writer where
  name : String := "writer"
  script : List Answer := []
  flushError : Option IoError := none
  written : Bytes := []
  deriving Repr, DecidableEq, Inhabited

namespace Writer

/-- The failure of a writer that accepts nothing. -/
def stuck : IoError := ⟨"failed to write whole buffer"⟩

/-- Offer bytes until all are accepted: what was accepted, what is left of the script, and the
failure if there was one. -/
def offerAll : List Answer → Bytes → Bytes × List Answer × Option IoError
  | script, [] => ([], script, none)
  | [], bytes => (bytes, [], none)
  | .acceptAll :: script, bytes => (bytes, script, none)
  | .interrupted :: script, bytes => offerAll script bytes
  | .fail e :: script, _ => ([], script, some e)
  | .accept 0 :: script, _ => ([], script, some stuck)
  | .accept count :: script, bytes =>
    let (accepted, script, failure) := offerAll script (bytes.drop count)
    (bytes.take count ++ accepted, script, failure)

/-- Write all bytes. -/
def writeAll (w : Writer) (bytes : Bytes) : Writer × Option IoError :=
  let (accepted, script, failure) := offerAll w.script bytes
  ({ w with script := script, written := w.written ++ accepted }, failure)

end Writer

/-! ### Unreliable sinks -/

/-- A destination that keeps everything and fails at chosen attempts. -/
structure Unreliable where
  name : String
  message : String
  /-- The attempts that fail, counted from 0. -/
  fails : Nat → Bool
  attempts : Nat := 0
  written : Bytes := []

namespace Unreliable

/-- Keep the bytes, and fail if it is the turn of a failure. -/
def offer (u : Unreliable) (bytes : Bytes) : Unreliable × Option IoError :=
  ({ u with attempts := u.attempts + 1, written := u.written ++ bytes },
    if u.fails u.attempts then some ⟨u.message⟩ else none)

end Unreliable

/-! ### Sinks -/

/-- A destination of records. -/
inductive Sink
  | memory (contents : List Char)
  /-- A file of the directory; what it held when it was opened is not counted. -/
  | file (path : String) (place : Place) (start : Nat)
  | console (stream : Stream)
  | writer (w : Writer)
  | unreliable (u : Unreliable)

instance : Inhabited Sink := ⟨.memory []⟩

namespace Sink

/-- The name by which failures blame a sink. -/
def name : Sink → String
  | memory _ => "memory"
  | file path _ _ => "file(" ++ path ++ ")"
  | console stream => stream.name
  | writer w => w.name
  | unreliable u => u.name

/-- Offer a record to a sink. Files are shared between sinks, and a standard stream fails with what it
answers; unless told otherwise it takes the record. -/
def offer (files : Files) (record : List Char) (sink : Sink)
    (answer : Stream → Option IoError := fun _ => none) : Files × Sink × Option IoError :=
  match sink with
  | memory contents => (files, memory (contents ++ record), none)
  | file path place start => (files.append place (utf8 record), file path place start, none)
  | console stream => (files, console stream, answer stream)
  | writer w =>
    let (w, failure) := w.writeAll (utf8 record)
    (files, writer w, failure)
  | unreliable u =>
    let (u, failure) := u.offer (utf8 record)
    (files, unreliable u, failure)

/-- Push out what a sink holds back. -/
def flush : Sink → Except IoError Unit
  | writer w =>
    match w.flushError with
    | some e => .error e
    | none => .ok ()
  | _ => .ok ()

/-- Forget what memory holds. -/
def clear : Sink → Sink
  | memory _ => memory []
  | other => other

/-- What a sink has taken, as bytes. A standard stream does not tell. -/
def written (files : Files) : Sink → Bytes
  | memory contents => utf8 contents
  | file _ place start => (files.get place).drop start
  | console _ => []
  | writer w => w.written
  | unreliable u => u.written

/-- A line without the carriage return at its end. -/
def dropReturn (line : List Char) : List Char :=
  if line.getLast? = some '\r' then line.dropLast else line

/-- The lines of a text, without their ends. Text after the last line feed is a line of its own if
there is any; a carriage return belongs to a line's end only before a line feed. -/
def linesOf (current : List Char) : List Char → List (List Char)
  | [] => if current.isEmpty then [] else [current.reverse]
  | c :: cs => if c = '\n' then dropReturn current.reverse :: linesOf [] cs else linesOf (c :: current) cs

/-- The lines that memory holds. -/
def lines : Sink → List (List Char)
  | memory contents => linesOf [] contents
  | _ => []

end Sink
end LineLog
