import LineLog.Record
/-!
# LineLog.Record.Append

Writing fields and records behind the bytes that a destination already holds.

The text of a record does not depend on the destination, but a record is closed by
looking at the last byte of the whole destination and replacing it.

Design points:

* Everything goes to the end of the destination, which need not hold text
  (`FieldValue.appendTo`, `Field.appendTo`, `Field.appendAllTo`).
* `Record.appendTo` differs from that at one place: the last comma gives way to the
  brace (`Record.closeBytes`). The opening brace stands before it, so no byte that was
  there before is touched.
-/

namespace LineLog

open Text

/-- The byte of a comma. -/
def commaByte : UInt8 := 0x2C

/-- The byte of a closing brace. -/
def braceByte : UInt8 := 0x7D

/-- Write a value behind what `dst` holds. -/
def FieldValue.appendTo (fallback : Time.Format) (dst : Bytes) (v : FieldValue) : Bytes :=
  dst ++ utf8 (v.render fallback)

namespace Field

/-- Write a pair behind what `dst` holds. -/
def appendTo (fallback : Time.Format) (dst : Bytes) (f : Field) : Bytes :=
  f.value.appendTo fallback (dst ++ utf8 (quoted f.key ++ [':']))

/-- Write pairs with a comma after each behind what `dst` holds. -/
def appendAllTo (fallback : Time.Format) (dst : Bytes) (fields : List Field) : Bytes :=
  fields.foldl (fun dst f => f.appendTo fallback dst ++ [commaByte]) dst

end Field

namespace Record

/-- Close an object: if the last byte is a comma, it gives way to the brace. -/
def closeBytes (unclosed : Bytes) : Bytes :=
  if unclosed.getLast? = some commaByte then unclosed.dropLast ++ [braceByte]
  else unclosed ++ [braceByte]

/-- Write a record with its line separator behind what `dst` holds. `context` is taken as it is. -/
def appendTo (dst : Bytes) (c : Config) (fallback : Time.Format) (r : Record) (context : Bytes)
    (leading fields : List Field) : Bytes :=
  let opened := dst ++ utf8 ('{' :: r.blocks c) ++ context
  closeBytes (Field.appendAllTo fallback opened (leading ++ fields)) ++ utf8 c.lineSeparator.toList

end Record
end LineLog
