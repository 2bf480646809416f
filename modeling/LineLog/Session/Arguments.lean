import LineLog.Session.Surface
/-!
# LineLog.Session.Arguments

Format arguments, and logging what they come to.

Arguments are a format together with the values for its places. Where no place is left to fill, the
text is known before anything is formatted, and is taken as it is. Everywhere else it is formatted,
which may fail.

Design points:

* `Arguments` carries the proof that a text that is known is what formatting would have given. So
  logging arguments comes to logging a value that shows itself (`Session.logFormatted`), whichever
  way the text is obtained.
* The three ways to end look at the arguments at different moments: a panic before the emission, since
  it needs the text for itself, the others only once the level has reached the threshold.
* A `Shorthand` takes a format in the place of arguments. There is one for print and one for each
  named level, and none that ends in another way.
-/

namespace LineLog

/-- A format and the values for its places. -/
structure Arguments where
  /-- What formatting writes. -/
  shown : Shown
  /-- The text, where it is known beforehand. -/
  known : Option String
  known_eq : ∀ text ∈ known, formatted shown = .ok text

namespace Arguments

/-- A format without places. -/
def ofLiteral (text : String) : Arguments where
  shown := .ofString text
  known := some text
  known_eq := by
    rintro _ ⟨⟩
    simp [formatted, Shown.ofString, Shown.text]

/-- A format with places to fill. -/
def ofShown (shown : Shown) : Arguments where
  shown := shown
  known := none
  known_eq := nofun

/-- The text of arguments. -/
def render (args : Arguments) : Outcome String :=
  match args.known with
  | some text => .ok text
  | none => formatted args.shown

/-- A text that is known is not another one. -/
@[simp] theorem render_eq (args : Arguments) : args.render = formatted args.shown := by
  rw [render]
  cases hknown : args.known with
  | none => rfl
  | some text => exact (args.known_eq text hknown).symm

end Arguments

namespace Session

/-- Emit the text of arguments. Below the threshold they are not looked at. -/
def emitArguments (s : Session) (id : LoggerId) (site : CallSite) (severity : Severity)
    (args : Arguments) : Session × Outcome Unit :=
  if s.accepts id severity then
    match args.render with
    | .error p => (s, .error p)
    | .ok message => (s.log id { site, severity, message }, .ok ())
  else (s, .ok ())

/-- Log the text of arguments. -/
def logArguments (s : Session) (id : LoggerId) (site : CallSite) (verb : Verb) (args : Arguments) :
    Session × Outcome Unit :=
  match verb.ending with
  | .returns => s.emitArguments id site verb.severity args
  | .exits =>
    match s.emitArguments id site verb.severity args with
    | (s, .error p) => (s, .error p)
    | (s, .ok ()) => (s.exit 1, .ok ())
  | .panics =>
    match args.render with
    | .error p => (s, .error p)
    | .ok message =>
      (s.log id { site, severity := verb.severity, message }, .error (.raised message.toList))

end Session

/-! ### Shorthands -/

/-- A shorthand for logging arguments. -/
inductive Shorthand
  /-- At any level. -/
  | print (severity : Severity)
  | named (level : Builtin)
  deriving Repr, DecidableEq

/-- The method that a shorthand stands for. -/
def Shorthand.verb : Shorthand → Verb
  | print severity => .print severity
  | named level => .named level

/-- Log arguments by a shorthand. -/
def Session.logShorthand (s : Session) (id : LoggerId) (site : CallSite) (m : Shorthand)
    (args : Arguments) : Session × Outcome Unit :=
  s.logArguments id site m.verb args

end LineLog
