import LineLog.Error
import LineLog.Severity.Basic
/-!
# LineLog.Severity.Registry

The names of levels, built-in and registered.

A registry maps levels to a lower-case and an upper-case name. It starts with the
built-in levels and only ever grows: a level or a name that is taken cannot be
registered again.

Design points:

* The map is a list of entries in the order of registration. No answer depends on
  the order: at most one entry has a given level, and equality of registries
  (`Registry.same`) compares them as sets.
* Looking up a name never fails: a level that is neither built in nor registered
  is named by its number.
-/

namespace LineLog

/-- A level with its two names. -/
structure SeverityEntry where
  severity : Severity
  lowercase : String
  uppercase : String
  deriving Repr, DecidableEq

namespace SeverityEntry

/-- The name in the wanted case. -/
def name (e : SeverityEntry) (upper : Bool) : String :=
  if upper then e.uppercase else e.lowercase

end SeverityEntry

/-- The entry of a built-in level. -/
def Builtin.entry (b : Builtin) : SeverityEntry :=
  ⟨b.severity, b.lowercase, b.uppercase⟩

/-- The names of levels. -/
structure Registry where
  entries : List SeverityEntry
  deriving Repr, DecidableEq

namespace Registry

/-- The registry of the built-in levels. -/
def builtin : Registry :=
  ⟨Builtin.all.map Builtin.entry⟩

/-- What a new entry has in common with an existing one. -/
inductive Clash
  | level (severity : Severity)
  | lowercase (name : String)
  | uppercase (name : String)
  deriving Repr, DecidableEq

/-- The clashing level or name. -/
def Clash.what : Clash → String
  | level severity => "severity=" ++ String.ofList severity.number
  | lowercase name => "lowercase=" ++ name
  | uppercase name => "uppercase=" ++ name

/-- What the new entry has in common with an existing one, the level first. -/
def clash? (new old : SeverityEntry) : Option Clash :=
  if old.severity = new.severity then some (.level new.severity)
  else if old.lowercase = new.lowercase then some (.lowercase new.lowercase)
  else if old.uppercase = new.uppercase then some (.uppercase new.uppercase)
  else none

/-- The registry with one more level. -/
def register (r : Registry) (new : SeverityEntry) : Except LogError Registry :=
  if new.lowercase = "" then .error .lowercaseEmpty
  else if new.uppercase = "" then .error .uppercaseEmpty
  else
    match r.entries.findSome? (clash? new) with
    | some clash => .error (.severityExists clash.what)
    | none => .ok ⟨r.entries ++ [new]⟩

/-- The entry of a level. -/
def find? (r : Registry) (s : Severity) : Option SeverityEntry :=
  r.entries.find? fun e => e.severity = s

/-- The level has an entry. -/
def contains (r : Registry) (s : Severity) : Bool :=
  (r.find? s).isSome

/-- The number of levels with an entry. -/
def size (r : Registry) : Nat :=
  r.entries.length

/-- The name of a level: the built-in one, else the registered one, else its number. -/
def name (r : Registry) (s : Severity) (upper : Bool) : String :=
  match s.builtinName? upper with
  | some name => name
  | none =>
    match r.find? s with
    | some e => e.name upper
    | none => String.ofList s.number

/-- The registries have the same entries. -/
def same (a b : Registry) : Bool :=
  a.entries.all (b.entries.contains ·) && b.entries.all (a.entries.contains ·)

end Registry
end LineLog
