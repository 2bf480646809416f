import LineLog.Config.Basic
import LineLog.Json.Encodings
import LineLog.Value.Shown
/-!
# LineLog.Config.Member

The members of a configuration, and configuration text.

Design points:

* One table, `Config.members`, names the members in order and says how each is
  written, shown to a developer, and read. Writing (`Config.json`), showing
  (`Config.inspect`) and reading (`Config.reader`) all go through it.
* Reading starts from the default configuration. An object may hold any of the
  members in any order, each at most once; members of other names are passed over.
  An array holds the members' values in order and may stop early.
-/

namespace LineLog

open Decimal Text Json

/-- How a member of a configuration is written, shown and read. -/
structure Member where
  name : String
  json : Config → List Char
  inspect : Config → List Char
  read : Reader (Config → Config)

namespace Member

/-- A switch. -/
def switch (name : String) (get : Config → Bool) (set : Bool → Config → Config) : Member where
  name := name
  json c := Inspect.bool (get c)
  inspect c := Inspect.bool (get c)
  read cs := (Json.bool cs).map fun (b, rest) => (set b, rest)

/-- A text. -/
def text (name : String) (get : Config → String) (set : String → Config → Config) : Member where
  name := name
  json c := quoted (get c)
  inspect c := Inspect.string (get c)
  read cs := (Json.string cs).map fun (t, rest) => (set (String.ofList t), rest)

/-- The time format shown to a developer. -/
def inspectFormat : Time.Format → List Char
  | .custom layout => Time.Format.customName.toList ++ '(' :: Inspect.string layout ++ [')']
  | format => (format.name?.getD "").toList

/-- A time format. -/
def format (name : String) (get : Config → Time.Format) (set : Time.Format → Config → Config) :
    Member where
  name := name
  json c := (get c).json
  inspect c := inspectFormat (get c)
  read cs := (Time.Format.reader cs).map fun (f, rest) => (set f, rest)

/-- A severity shown to a developer. -/
def inspectSeverity (s : Severity) : List Char :=
  "Severity(".toList ++ s.number ++ [')']

/-- A severity. -/
def severity (name : String) (get : Config → Severity) (set : Severity → Config → Config) :
    Member where
  name := name
  json c := (get c).json
  inspect c := inspectSeverity (get c)
  read cs := (Severity.reader cs).map fun (s, rest) => (set s, rest)

/-- A skip. -/
def skip (name : String) (get : Config → SkipCount) (set : SkipCount → Config → Config) :
    Member where
  name := name
  json c := natural (get c).toNat
  inspect c := natural (get c).toNat
  read cs := (Json.integer 0 (UInt64.size - 1) cs).map fun (n, rest) => (set (UInt64.ofInt n), rest)

end Member

namespace Config

/-- The members in order. -/
def members : List Member :=
  [.switch "use_timestamp_field" (·.timestamp.enabled)
      fun b c => { c with timestamp.enabled := b },
   .text "timestamp_field_key" (·.timestamp.key) fun t c => { c with timestamp.key := t },
   .format "timestamp_field_format" (·.timestampFormat) fun f c => { c with timestampFormat := f },
   .switch "use_severity_field" (·.severity.enabled) fun b c => { c with severity.enabled := b },
   .text "severity_field_key" (·.severity.key) fun t c => { c with severity.key := t },
   .severity "severity_threshold" (·.threshold) fun s c => { c with threshold := s },
   .switch "use_uppercase_severity" (·.uppercaseSeverity)
      fun b c => { c with uppercaseSeverity := b },
   .switch "use_hostname_field" (·.hostname.enabled) fun b c => { c with hostname.enabled := b },
   .text "hostname_field_key" (·.hostname.key) fun t c => { c with hostname.key := t },
   .text "hostname_field_value" (·.hostnameValue) fun t c => { c with hostnameValue := t },
   .switch "use_caller_field" (·.caller.enabled) fun b c => { c with caller.enabled := b },
   .text "caller_field_key" (·.caller.key) fun t c => { c with caller.key := t },
   .switch "use_short_caller" (·.shortCaller) fun b c => { c with shortCaller := b },
   .skip "caller_skip" (·.callerSkip) fun n c => { c with callerSkip := n },
   .switch "use_message_field" (·.message.enabled) fun b c => { c with message.enabled := b },
   .text "message_field_key" (·.message.key) fun t c => { c with message.key := t },
   .text "line_separator" (·.lineSeparator) fun t c => { c with lineSeparator := t }]

/-! ### Writing -/

/-- The JSON object of the given members of a configuration. -/
def jsonOf (ms : List Member) (c : Config) : List Char :=
  '{' :: [','].intercalate (ms.map fun m => quoted m.name ++ ':' :: m.json c) ++ ['}']

/-- The configuration as a JSON object. -/
def json (c : Config) : List Char :=
  jsonOf members c

/-- The configuration shown to a developer. -/
def inspect (c : Config) : List Char :=
  "Config ".toList ++ '{' :: ' ' ::
    [',', ' '].intercalate (members.map fun m => m.name.toList ++ ':' :: ' ' :: m.inspect c) ++
    [' ', '}']

/-! ### Reading -/

/-- Read what follows the items of an array. -/
def readArrayEnd (cs : List Char) : Except ReadError (List Char) :=
  match skipBlanks cs with
  | [] => .error .truncated
  | ']' :: rest => .ok rest
  | _ => .error .malformed

/-- Read the values of the members `ms` from an array up to its end. The first value has no comma
before it. -/
def readItems : List Member → Bool → Config → Reader Config
  | [], _, c, cs => (readArrayEnd cs).map (c, ·)
  | m :: ms, first, c, cs => do
    match skipBlanks cs, first with
    | [], _ => .error .truncated
    | ']' :: rest, _ => return (c, rest)
    | cs, true =>
      let (set, cs) ← m.read cs
      readItems ms false (set c) cs
    | ',' :: cs, false =>
      match skipBlanks cs with
      | [] => .error .truncated
      | ']' :: _ => .error .malformed
      | cs =>
        let (set, cs) ← m.read cs
        readItems ms false (set c) cs
    | _, false => .error .malformed

/-- Read the value of the member `name`, or pass over the value if there is no such member. `seen`
holds the members that have been read. -/
def readMember (seen : List String) (name : String) (c : Config) (cs : List Char) :
    Except ReadError (List String × Config × List Char) := do
  match members.find? fun m => m.name = name with
  | some m =>
    if seen.contains name then .error .mismatch
    else
      let (set, cs) ← m.read (← Time.Format.sign ':' cs)
      return (name :: seen, set c, cs)
  | none => return (seen, c, ← Json.skip (← Time.Format.sign ':' cs))

/-- Read the members of an object up to its end, from a quotation mark on. `fuel` bounds their
number. -/
def readMembers : Nat → List String → Config → Reader Config
  | 0, _, _, _ => .error .truncated
  | fuel + 1, seen, c, cs => do
    match cs with
    | '"' :: cs =>
      let (name, cs) ← stringBody cs
      let (seen, c, cs) ← readMember seen (String.ofList name) c cs
      match skipBlanks cs with
      | [] => .error .truncated
      | '}' :: rest => return (c, rest)
      | ',' :: rest => readMembers fuel seen c (skipBlanks rest)
      | _ => .error .malformed
    | [] => .error .truncated
    | _ => .error .malformed

/-- Reads a configuration. -/
def reader : Reader Config :=
  Json.value fun cs =>
    match cs with
    | '[' :: rest => readItems members true {} rest
    | '{' :: rest =>
      match skipBlanks rest with
      | '}' :: rest => .ok ({}, rest)
      | cs => readMembers cs.length [] {} cs
    | _ => .error (blame cs)

/-- Read a configuration text. -/
def ofJson (text : String) : Except ReadError Config :=
  whole reader text.toList

end Config
end LineLog
