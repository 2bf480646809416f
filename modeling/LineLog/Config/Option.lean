import LineLog.Config.Basic
/-!
# LineLog.Config.Option

Single changes to a configuration, applied in order.

Design points:

* Each option sets one member, except that `callerSkip` adds to the skip and that
  `useHostname` also looks up the system's host name.
* Only the look-up can fail. Application stops there, with the changes before it in
  place (`applyAll` answers the configuration reached in either case).
-/

namespace LineLog

/-- A change to a configuration. -/
inductive ConfigOption
  | useTimestamp (on : Bool)
  | timestampKey (key : String)
  | timestampFormat (format : Time.Format)
  | useSeverity (on : Bool)
  | severityKey (key : String)
  | threshold (severity : Severity)
  | uppercaseSeverity (on : Bool)
  /-- Also fills in the system's host name, whether the block is switched on or off. -/
  | useHostname (on : Bool)
  | hostnameKey (key : String)
  | hostnameValue (name : String)
  | useCaller (on : Bool)
  | callerKey (key : String)
  | shortCaller (on : Bool)
  /-- Adds to the skip. -/
  | callerSkip (n : SkipCount)
  | useMessage (on : Bool)
  | messageKey (key : String)
  | lineSeparator (separator : String)
  deriving Repr, DecidableEq

namespace ConfigOption

/-- The name of an option, as errors show it. -/
def name : ConfigOption → String
  | useTimestamp _ => "UseTimestampField"
  | timestampKey _ => "TimestampFieldKey"
  | timestampFormat _ => "TimestampFieldFormat"
  | useSeverity _ => "UseSeverityField"
  | severityKey _ => "SeverityFieldKey"
  | threshold _ => "SeverityThreshold"
  | uppercaseSeverity _ => "UseUppercaseSeverity"
  | useHostname _ => "UseHostnameField"
  | hostnameKey _ => "HostnameFieldKey"
  | hostnameValue _ => "HostnameFieldValue"
  | useCaller _ => "UseCallerField"
  | callerKey _ => "CallerFieldKey"
  | shortCaller _ => "UseShortCaller"
  | callerSkip _ => "CallerSkip"
  | useMessage _ => "UseMessageField"
  | messageKey _ => "MessageFieldKey"
  | lineSeparator _ => "LineSeparator"

/-- Apply an option. `hostname` is the system's answer to the look-up. -/
def apply (hostname : Except IoError String) (o : ConfigOption) (c : Config) :
    Except LogError Config :=
  match o with
  | useTimestamp on => .ok { c with timestamp.enabled := on }
  | timestampKey key => .ok { c with timestamp.key := key }
  | timestampFormat format => .ok { c with timestampFormat := format }
  | useSeverity on => .ok { c with severity.enabled := on }
  | severityKey key => .ok { c with severity.key := key }
  | threshold severity => .ok { c with threshold := severity }
  | uppercaseSeverity on => .ok { c with uppercaseSeverity := on }
  | useHostname on =>
    match hostname with
    | .ok name => .ok { c with hostname.enabled := on, hostnameValue := name }
    | .error e => .error (.optionFailed o.name (.hostnameLookup e))
  | hostnameKey key => .ok { c with hostname.key := key }
  | hostnameValue name => .ok { c with hostnameValue := name }
  | useCaller on => .ok { c with caller.enabled := on }
  | callerKey key => .ok { c with caller.key := key }
  | shortCaller on => .ok { c with shortCaller := on }
  | callerSkip n => .ok { c with callerSkip := addSkip c.callerSkip n }
  | useMessage on => .ok { c with message.enabled := on }
  | messageKey key => .ok { c with message.key := key }
  | lineSeparator separator => .ok { c with lineSeparator := separator }

end ConfigOption

namespace Config

/-- Apply options in order up to the first that fails: the configuration reached, and the failure. -/
def applyAll (hostname : Except IoError String) :
    List ConfigOption → Config → Config × Except LogError Unit
  | [], c => (c, .ok ())
  | o :: os, c =>
    match o.apply hostname c with
    | .ok c => applyAll hostname os c
    | .error e => (c, .error e)

/-- The configuration after all options, if it can be used. -/
def configured (hostname : Except IoError String) (options : List ConfigOption) (c : Config) :
    Except LogError Config :=
  match applyAll hostname options c with
  | (_, .error e) => .error e
  | (c, .ok ()) => c.validate.map fun () => c

end Config
end LineLog
