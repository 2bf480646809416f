import LineLog.Proofs.Session.Run
/-!
# LineLog.Proofs.Session.Frames

The frames between a call site and the walk for it.

What a logger finds on the stack starts with frames of its own, and which ones these are depends on the
method that was called. They are passed over as long as none of them can be taken for a position that
is looked for (`Caller.Foreign`). A call looks for its own site and, where objects cannot be marshalled,
for the sites of their fields. So a call from further below is the same call
(`Session.perform_beneath`), down to the reports of what went wrong on the way.
-/

namespace LineLog

/-! ### The walk -/

namespace Caller

/-- None of these symbols can be taken for the position that is looked for. -/
def Foreign (inner : List StackSymbol) (site : Location) : Prop :=
  ∀ symbol ∈ inner, ∀ l ∈ symbol.location?, isSite site l = false

instance (inner : List StackSymbol) (site : Location) : Decidable (Foreign inner site) :=
  inferInstanceAs (Decidable (∀ symbol ∈ inner, ∀ l ∈ symbol.location?, isSite site l = false))

variable {inner : List StackSymbol} {site : Location}

theorem walk_append (h : Foreign inner site) (stack : List StackSymbol) (remaining : Nat) :
    walk site (inner ++ stack) remaining = walk site stack remaining := by
  induction inner with
  | nil => rfl
  | cons symbol inner ih =>
      have hrest : Foreign inner site := fun other hother => h other (List.mem_cons_of_mem _ hother)
      rw [List.cons_append, walk]
      cases hl : symbol.location? with
      | none => exact ih hrest
      | some l =>
          have hl' : isSite site l = false := h symbol List.mem_cons_self l hl
          show (if isSite site l then _ else walk site (inner ++ stack) remaining) = _
          rw [if_neg (by simp [hl'])]
          exact ih hrest

theorem resolve_append (h : Foreign inner site) (stack : List StackSymbol) (skip : Nat) :
    resolve (inner ++ stack) site skip = resolve stack site skip := by
  cases skip with
  | zero => rfl
  | succ n => exact walk_append h stack n

end Caller

theorem Logger.callerOf_append {inner : List StackSymbol} {site : Location}
    (h : Caller.Foreign inner site) (l : Logger) (stack : List StackSymbol) :
    l.callerOf (inner ++ stack) site = l.callerOf stack site := by
  rw [callerOf, callerOf, Caller.resolve_append h]

/-! ### Emissions -/

/-- The call site as it is found from further below. -/
def CallSite.beneath (inner : List StackSymbol) (site : CallSite) : CallSite :=
  { site with stack := inner ++ site.stack }

/-- The emission from further below. -/
def Emission.beneath (inner : List StackSymbol) (e : Emission) : Emission :=
  { e with site := e.site.beneath inner }

/-- The call from further below. -/
def Call.beneath (inner : List StackSymbol) (c : Call) : Call :=
  { c with site := c.site.beneath inner }

/-- The positions that a call may look for. -/
def Call.sites (c : Call) : List Location :=
  c.site.location :: (Field.marshalFailures c.request.fields).map (·.site)

namespace Session

variable {inner : List StackSymbol}

theorem record_beneath {e : Emission} (h : Caller.Foreign inner e.site.location) (s : Session)
    (l : Logger) : s.record l (e.beneath inner) = s.record l e := by
  have hcaller := l.callerOf_append h e.site.stack
  simp only [record, Emission.beneath, CallSite.beneath, hcaller]

theorem emitReport_beneath {report : Emission} (h : Caller.Foreign inner report.site.location)
    (s : Session) : s.emitReport (report.beneath inner) = s.emitReport report := by
  rw [emitReport, emitReport]
  cases s.logger? s.defaultLogger with
  | none => rfl
  | some d =>
      dsimp only
      rw [record_beneath h]
      rfl

theorem reportWriteFailure_beneath {site : CallSite} (h : Caller.Foreign inner site.location)
    (s : Session) (writer : String) (e : IoError) :
    s.reportWriteFailure (site.beneath inner) writer e = s.reportWriteFailure site writer e := by
  have hreport : Session.emitReport { s with reporting := true }
      ((Emission.writeFailure site writer e).beneath inner) = _ := emitReport_beneath h _
  rw [reportWriteFailure, reportWriteFailure, ← hreport]
  rfl

theorem write_beneath {e : Emission} (h : Caller.Foreign inner e.site.location) (s : Session)
    (l : Logger) : s.write l (e.beneath inner) = s.write l e := by
  rw [write, write, record_beneath h]
  split
  · rfl
  · exact reportWriteFailure_beneath h _ _ _

theorem emitPlain_beneath {e : Emission} (h : Caller.Foreign inner e.site.location) (s : Session) :
    s.emitPlain (e.beneath inner) = s.emitPlain e := by
  rw [emitPlain, emitPlain]
  cases s.logger? s.defaultLogger with
  | none => rfl
  | some d =>
      dsimp only
      rw [write_beneath h]
      rfl

/-- The reports of objects are blamed on the sites of their fields. -/
theorem reportMarshalFailures_beneath {fs : List MarshalFailure}
    (h : ∀ f ∈ fs, Caller.Foreign inner f.site) (s : Session) (stack : List StackSymbol) :
    s.reportMarshalFailures (inner ++ stack) fs = s.reportMarshalFailures stack fs := by
  induction fs generalizing s with
  | nil => rfl
  | cons f fs ih =>
      have hfirst : s.emitPlain (.marshalFailure (inner ++ stack) f) =
          s.emitPlain (.marshalFailure stack f) :=
        emitPlain_beneath (e := .marshalFailure stack f) (h f List.mem_cons_self) s
      rw [reportMarshalFailures, List.foldl_cons, hfirst]
      exact ih (fun other hother => h other (List.mem_cons_of_mem _ hother)) _

theorem log_beneath {e : Emission} (hsite : Caller.Foreign inner e.site.location)
    (hobjects : ∀ f ∈ Field.marshalFailures (e.leading ++ e.fields), Caller.Foreign inner f.site)
    (s : Session) (id : LoggerId) : s.log id (e.beneath inner) = s.log id e := by
  rw [log, log]
  cases s.logger? id with
  | none => rfl
  | some l =>
      have hreports := reportMarshalFailures_beneath hobjects s e.site.stack
      show s.emit l (e.beneath inner) = s.emit l e
      rw [emit, emit, write_beneath hsite]
      exact ite_congr rfl (fun _ => congrArg (Session.write · l e) hreports) fun _ => rfl

/-- **Frames below the call site make no difference**, unless one of them can be taken for a position
that the call looks for. -/
theorem perform_beneath (s : Session) {c : Call} (hshows : c.request.Shows)
    (h : ∀ site ∈ c.sites, Caller.Foreign inner site) : s.perform (c.beneath inner) = s.perform c := by
  have hobjects : ∀ f ∈ Field.marshalFailures (c.emission.leading ++ c.emission.fields),
      Caller.Foreign inner f.site := by
    intro f hf
    rw [c.marshalFailures_emission] at hf
    exact h f.site (List.mem_cons_of_mem _ (List.mem_map_of_mem hf))
  have hlog : (s.atTime c.now).log c.id (c.beneath inner).emission =
      (s.atTime c.now).log c.id c.emission :=
    log_beneath (e := c.emission) (h _ List.mem_cons_self) hobjects _ c.id
  have hbeneath : (c.beneath inner).request.Shows := hshows
  rw [perform_of_shows s hbeneath, perform_of_shows s hshows, ← hlog]
  rfl

end Session
end LineLog
