import LineLog.Error
import LineLog.Severity.Basic
import LineLog.Time.Format
/-!
# LineLog.Config.Basic

What a logger writes: which blocks a record has, under which keys, and how.

A record has up to five blocks, each of which can be switched off and renamed.

Design points:

* A `Block` is a switch and a key. The other members say how the blocks are
  filled in.
* A configuration is **valid** when no enabled block has an empty key
  (`Config.validate`). An invalid one is blamed on its first offending block.
-/

namespace LineLog

/-- A part of a record that can be switched off. -/
structure Block where
  enabled : Bool
  key : String
  deriving Repr, DecidableEq, Inhabited

/-- The block is enabled and has no key. -/
def Block.keyless (b : Block) : Bool :=
  b.enabled && b.key == ""

/-- The number of caller frames to skip, a machine word. -/
abbrev SkipCount := UInt64

/-- A configuration. -/
structure Config where
  timestamp : Block := ⟨true, "timestamp"⟩
  timestampFormat : Time.Format := .rfc3339Nano
  severity : Block := ⟨true, "severity"⟩
  /-- Records below this level are dropped. -/
  threshold : Severity := ⟨0⟩
  uppercaseSeverity : Bool := true
  hostname : Block := ⟨false, "hostname"⟩
  hostnameValue : String := "localhost"
  caller : Block := ⟨true, "caller"⟩
  /-- Keep only the last two segments of the caller's path. -/
  shortCaller : Bool := true
  /-- Stack frames above the call site to skip. -/
  callerSkip : SkipCount := 0
  message : Block := ⟨true, "message"⟩
  /-- What follows every record. -/
  lineSeparator : String := "\n"
  deriving Repr, DecidableEq, Inhabited

/-- The sum of two skips, held at the largest word. -/
def addSkip (a b : SkipCount) : SkipCount :=
  UInt64.ofNat (min (a.toNat + b.toNat) (UInt64.size - 1))

namespace Config

/-- The configuration with the system's host name, if the system knows it. -/
def withSystemHostname (hostname : Except IoError String) : Config :=
  match hostname with
  | .ok name => { hostnameValue := name }
  | .error _ => {}

/-- The blocks in the order of a record, with the names of the members that hold their keys. -/
def blocks (c : Config) : List (Block × String) :=
  [(c.timestamp, "timestamp_field_key"), (c.severity, "severity_field_key"),
   (c.hostname, "hostname_field_key"), (c.caller, "caller_field_key"),
   (c.message, "message_field_key")]

/-- Refuse a configuration with an enabled block that has an empty key. -/
def validate (c : Config) : Except LogError Unit :=
  match c.blocks.find? fun b => b.1.keyless with
  | some (_, member) => .error (.emptyKey member)
  | none => .ok ()

end Config
end LineLog
