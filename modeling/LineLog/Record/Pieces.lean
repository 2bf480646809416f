import LineLog.Pool
import LineLog.Record.Append
/-!
# LineLog.Record.Pieces

Assembling a record in a buffer, piece by piece.

`Record.appendTo` writes a record in one go. Here it is taken apart at the places between which something else
may happen: an object that refuses to be marshalled is reported behind the key of its field, before anything
stands in its place.

Design points:

* A piece works on the bytes that are there (`Piece.write`), since the last of them decides how an object is
  closed.
* A buffer grows as its bytes do (`Buffer.rewrite`), and what it reserves plays no part in what it holds.
-/

namespace LineLog

open Text

/-- Put other bytes in the place of those that the buffer holds. -/
def Buffer.rewrite (b : Buffer) (f : Bytes → Bytes) : Buffer :=
  let bytes := f b.bytes
  ⟨bytes, grow b.capacity bytes.length⟩

/-- A part of a record: what has to be reported before it is written, and how it is written. -/
structure Piece where
  failure : Option MarshalFailure := none
  write : Bytes → Bytes

/-- The key of a field, its value, and the comma. -/
def Field.pieces (fallback : Time.Format) (f : Field) : List Piece :=
  [{ write := fun dst => dst ++ utf8 (quoted f.key ++ [':']) },
   { failure := f.value.marshalFailure?, write := fun dst => f.value.appendTo fallback dst },
   { write := fun dst => dst ++ [commaByte] }]

/-- A record: its blocks, the context, the fields, the end of the object, and the line separator. -/
def Record.pieces (c : Config) (fallback : Time.Format) (r : Record) (context : Bytes)
    (leading fields : List Field) : List Piece :=
  { write := fun dst => dst ++ utf8 ('{' :: r.blocks c) } ::
  { write := fun dst => dst ++ context } ::
  (leading ++ fields).flatMap (Field.pieces fallback) ++
  [{ write := closeBytes }, { write := fun dst => dst ++ utf8 c.lineSeparator.toList }]

end LineLog
