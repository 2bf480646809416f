import LineLog.Time.Format
import LineLog.Value.Shown
/-!
# LineLog.Time.Append

Writing instants behind the bytes that a destination already holds.

`Format.render` has the text of an instant as a whole. Here it is written as it comes about.

Design points:

* Dates and clocks go between quotation marks as they stand. Only text that comes from a layout is
  escaped.
* A layout is worked off from its front, one specifier after the other, up to the first that is not
  known, and there it fails (`Instant.shownFrom`). What was shown up to there is dropped with it, and the
  message about the layout is written in its place (`Instant.appendUnder`).
-/

namespace LineLog.Time

open Text

namespace Instant

/-- Show an instant under a layout of which the next `skip` characters have been worked off already. -/
def shownFrom (t : Instant) : Nat → List Char → Shown
  | _, [] => ⟨[], false⟩
  | skip + 1, _ :: cs => shownFrom t skip cs
  | 0, c :: cs =>
    if c = '%' then
      match Layout.specifier? cs with
      | some (items, length) =>
        items.foldr (fun item shown => shown.behind (String.ofList (item.render t))) (shownFrom t length cs)
      | none => ⟨[], true⟩
    else (shownFrom t 0 cs).behind (String.singleton c)

/-- Show an instant under a layout. -/
def shownUnder (t : Instant) (layout : List Char) : Shown :=
  t.shownFrom 0 layout

/-- Write an instant under a layout behind what `dst` holds. -/
def appendUnder (dst : Bytes) (t : Instant) (layout : String) : Bytes :=
  let shown := t.shownUnder layout.toList
  if shown.fails then
    appendEscaped (dst ++ [quoteByte] ++ utf8 "ERROR: INVALID TIME FORMAT: ".toList) (utf8 layout.toList) ++
      [quoteByte]
  else appendQuoted dst (String.ofList shown.text)

end Instant

/-- Write an instant behind what `dst` holds. -/
def Format.appendTo (dst : Bytes) (t : Instant) : Format → Bytes
  | rfc3339Nano => appendVerbatim dst (t.rfc3339 true)
  | rfc3339 => appendVerbatim dst (t.rfc3339 false)
  | iso8601 => appendVerbatim dst t.iso8601
  | custom layout => t.appendUnder dst layout
  | numeric => dst ++ utf8 (numeric.render t)

end LineLog.Time
