import LineLog.Caller
import LineLog.Text.Place
/-!
# LineLog.Caller.Append

Writing source positions behind the bytes that a destination already holds.

`Path.short` takes the last two segments off a list of characters. Here a path is searched and cut by
places in its bytes, which is possible only at the places of characters.

Design points:

* The second search is over what stands before the last separator, so the place that it finds is one of
  the whole path as well.
* The cut goes one byte behind the separator: separators are one byte wide.
* Nothing is answered where a path would have to be cut inside a character. That this never happens is
  for the proofs to say (`Path.cutShort?_eq`).
-/

namespace LineLog

open Decimal Text

namespace Path

/-- The last two segments of a path, cut off by place. -/
def cutShort? (path : List Char) : Option (List Char) :=
  match lastPlace? isSeparator path with
  | none => some path
  | some last =>
    (cut? path last).bind fun parts =>
      match lastPlace? isSeparator parts.1 with
      | none => some path
      | some place => (cut? path (place + 1)).map Prod.snd

end Path

namespace Caller

/-- Write a position as `file:line` behind what `dst` holds, for a place inside a JSON string. An unknown
position has an empty file and line 0. -/
def appendTo? (dst : Bytes) (short : Bool) : Option Location → Option Bytes
  | none => some (dst ++ utf8 [':', '0'])
  | some l =>
    (if short then Path.cutShort? l.file.toList else some l.file.toList).map fun file =>
      appendEscaped dst (utf8 file) ++ utf8 [':'] ++ utf8 (natural l.line)

end Caller
end LineLog
