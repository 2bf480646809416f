import LineLog.Config.Basic
import LineLog.Field.Render
/-!
# LineLog.Record

Assembling a record: one JSON object and the line separator.

A record holds the enabled blocks in a fixed order, then the fields of the logger's
context, then those of the call.

Design points:

* Everything is a pair with a comma after it. At the end the last comma gives way to
  the closing brace; a record without any pair is closed as it is (`close`).
* The context is text that was written when the logger was derived, so its values are
  those of that moment.
-/

namespace LineLog

open Text

/-- What one call adds to a record, apart from its fields. -/
structure Record where
  time : Time.Instant
  /-- The name of the level, in the configured case. -/
  severityName : String
  caller : Option Location
  message : String
  deriving Repr, DecidableEq

namespace Record

/-- A pair with a comma after it. -/
def pair (key : String) (value : List Char) : List Char :=
  quoted key ++ ':' :: value ++ [',']

/-- A block as a pair, or nothing if it is switched off. -/
def block (b : Block) (value : List Char) : List Char :=
  if b.enabled then pair b.key value else []

/-- The position of the caller as a JSON string. -/
def callerValue (c : Config) (r : Record) : List Char :=
  '"' :: Caller.render c.shortCaller r.caller ++ ['"']

/-- The enabled blocks as pairs. -/
def blocks (c : Config) (r : Record) : List Char :=
  block c.timestamp (c.timestampFormat.render r.time) ++
  block c.severity (quoted r.severityName) ++
  block c.hostname (quoted c.hostnameValue) ++
  block c.caller (r.callerValue c) ++
  block c.message (quoted r.message)

/-- Close an object: the last comma gives way to the brace. -/
def close (unclosed : List Char) : List Char :=
  if unclosed.getLast? = some ',' then unclosed.dropLast ++ ['}'] else unclosed ++ ['}']

/-- The JSON object of a record. `context` holds pairs with commas, `fields` all fields of the call. -/
def body (c : Config) (fallback : Time.Format) (r : Record) (context : List Char)
    (fields : List Field) : List Char :=
  close ('{' :: r.blocks c ++ context ++ Field.renderAll fallback fields)

/-- A record with its line separator. -/
def assemble (c : Config) (fallback : Time.Format) (r : Record) (context : List Char)
    (leading fields : List Field) : List Char :=
  r.body c fallback context (leading ++ fields) ++ c.lineSeparator.toList

end Record
end LineLog
