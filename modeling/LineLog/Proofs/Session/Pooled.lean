import LineLog.Session.Pooled
import LineLog.Proofs.Pool.Uses
import LineLog.Proofs.Record.Pieces
import LineLog.Proofs.Session.Run
/-!
# LineLog.Proofs.Session.Pooled

Whether records are assembled in fresh buffers or in pooled ones cannot be seen.

A record that is assembled in a checked-out buffer is the record that is assembled in an empty one, whatever
has been in the buffer before and whatever is done with other buffers meanwhile. So emitting through a pool
comes to the same as emitting without one (`Pooled.session_emit`), for every state of the pool and also where
the record of a diagnostic is assembled while the buffer is out.

Design points:

* What is left of a buffer plays no part: pieces work on bytes alone (`bytes_changed`).
* Reports are made between the pieces here and before the record in `Session.emit`. The record is the same,
  since reports change neither the logger nor anything else that it is told from (`Session.Alike`).
* Every step keeps the bounds of the pool (`Pooled.Keeps`), reports included.
-/

namespace LineLog

open Text Record

/-- What a piece does to a buffer. -/
def Piece.change (p : Piece) (b : Buffer) : Buffer :=
  b.rewrite p.write

/-- What pieces make of a buffer holds what they make of its bytes. -/
theorem bytes_changed (b : Buffer) (pieces : List Piece) :
    (b.changed (pieces.map Piece.change)).bytes = written b.bytes pieces := by
  induction pieces generalizing b with
  | nil => rfl
  | cons p pieces ih => exact ih (p.change b)

namespace Pooled

variable {report : Pooled → MarshalFailure → Pooled}

theorem fill_eq (w : Pooled) (b : Buffer) (pieces : List Piece) :
    fill report w b pieces =
      (b.changed (pieces.map Piece.change), (pieces.filterMap Piece.failure).foldl report w) := by
  induction pieces generalizing w b with
  | nil => rfl
  | cons p pieces ih =>
      rw [fill, List.foldl_cons, ← fill, ih]
      cases h : p.failure with
      | none => simp [h, Buffer.changed, Piece.change]
      | some f => simp [h, Buffer.changed, Piece.change]

/-! ### What is written -/

/-- The state that reports leave behind, made while a buffer is out. -/
def reported (report : Pooled → MarshalFailure → Pooled) (w : Pooled) (e : Emission) : Pooled :=
  (Field.marshalFailures (e.leading ++ e.fields)).foldl report w.checkOut.2

/-- The buffer from the pool, filled with the pieces of the record of an emission. -/
def filled (w : Pooled) (l : Logger) (e : Emission) : Buffer :=
  w.checkOut.1.changed (((header w.session l e).pieces l.config w.session.fallbackFormat
    (utf8 l.context) e.leading e.fields).map Piece.change)

/-- It holds the record, whatever it held before. -/
theorem text?_filled (w : Pooled) (l : Logger) (e : Emission) :
    text? (w.filled l e).bytes = some (String.ofList (w.session.record l e)) := by
  have hempty : w.checkOut.1.bytes = [] := w.pool.bytes_get
  rw [filled, bytes_changed, hempty, written_pieces, appendTo_text, List.nil_append, text?_utf8]
  rfl

/-- An attempt offers the sink the record as it was when the buffer was checked out, once the reports are
made. Then it returns the buffer. -/
theorem attempt_eq (w : Pooled) (l : Logger) (e : Emission) :
    attempt report w l e =
      (giveBack ⟨((reported report w e).session.offer l.sink (w.session.record l e)).1,
          (reported report w e).pool⟩ (w.filled l e),
        ((reported report w e).session.offer l.sink (w.session.record l e)).2) := by
  rw [attempt]
  simp only [fill_eq, failures_pieces]
  rw [← filled, ← reported, offer, text?_filled]
  simp only [Option.getD_some, String.toList_ofList]

/-- Where nothing is reported, nothing happens between the check-out and the offer. -/
theorem reported_unreported (w : Pooled) (e : Emission) : reported unreported w e = w.checkOut.2 := by
  rw [reported]
  induction Field.marshalFailures (e.leading ++ e.fields) with
  | nil => rfl
  | cons f fs ih => exact ih

theorem attempt_unreported (w : Pooled) (l : Logger) (e : Emission) :
    ((w.attempt unreported l e).1.session, (w.attempt unreported l e).2) =
      w.session.offer l.sink (w.session.record l e) := by
  rw [attempt_eq, reported_unreported]
  rfl

/-! ### Emitting -/

theorem session_emitReport (w : Pooled) (e : Emission) :
    (w.emitReport e).session = w.session.emitReport e := by
  rw [emitReport, Session.emitReport]
  cases w.session.logger? w.session.defaultLogger with
  | none => rfl
  | some l =>
      have hoffer := w.attempt_unreported l e
      cases hattempt : w.attempt unreported l e with
      | mk w' failure =>
          rw [hattempt] at hoffer
          dsimp only at hoffer ⊢
          rw [hattempt, ← hoffer]
          cases failure with
          | none => split <;> rfl
          | some failure => split <;> rfl

theorem session_reportWriteFailure (w : Pooled) (site : CallSite) (writer : String) (e : IoError) :
    (w.reportWriteFailure site writer e).session = w.session.reportWriteFailure site writer e := by
  rw [reportWriteFailure, Session.reportWriteFailure]
  split
  · rfl
  · dsimp only
    rw [session_emitReport]

/-- Where reports leave the record as it is, writing through the pool comes to writing after the reports. -/
theorem session_write (w : Pooled) (l : Logger) (e : Emission)
    (hrecord : (reported report w e).session.record l e = w.session.record l e) :
    (w.write report l e).session = (reported report w e).session.write l e := by
  rw [write, Session.write, attempt_eq, hrecord]
  cases (reported report w e).session.offer l.sink (w.session.record l e) with
  | mk s failure =>
      cases failure with
      | none => rfl
      | some failure => exact session_reportWriteFailure _ e.site _ failure

theorem session_emitPlain (w : Pooled) (e : Emission) :
    (w.emitPlain e).session = w.session.emitPlain e := by
  rw [emitPlain, Session.emitPlain]
  cases w.session.logger? w.session.defaultLogger with
  | none => rfl
  | some l =>
      dsimp only
      split
      · rw [session_write w l e (by rw [reported_unreported]; rfl), reported_unreported]
        rfl
      · rfl

/-- How an emission reports the objects that refuse. -/
def diagnose (stack : List StackSymbol) (w : Pooled) (f : MarshalFailure) : Pooled :=
  w.emitPlain (.marshalFailure stack f)

theorem session_diagnosed (stack : List StackSymbol) (fs : List MarshalFailure) (w : Pooled) :
    (fs.foldl (diagnose stack) w).session = w.session.reportMarshalFailures stack fs := by
  induction fs generalizing w with
  | nil => rfl
  | cons f fs ih =>
      rw [List.foldl_cons, ih, diagnose, session_emitPlain]
      rfl

/-- **The pool cannot be seen**: emitting through it does what emitting without it does. -/
theorem session_emit (w : Pooled) (l : Logger) (e : Emission) :
    (w.emit l e).session = w.session.emit l e := by
  rw [emit, Session.emit]
  split
  · have hreported : (reported (diagnose e.site.stack) w e).session =
        w.session.reportMarshalFailures e.site.stack (Field.marshalFailures (e.leading ++ e.fields)) :=
      session_diagnosed _ _ _
    have halike := w.session.alike_reportMarshalFailures e.site.stack
      (Field.marshalFailures (e.leading ++ e.fields))
    have hrecord : (reported (diagnose e.site.stack) w e).session.record l e = w.session.record l e := by
      rw [hreported, halike.record]
    have hwrite := session_write w l e hrecord
    rw [hreported] at hwrite
    exact hwrite
  · rfl

/-! ### The bounds of the pool -/

/-- The pool has the size that it had, and is within its bounds if it was. -/
structure Keeps (w w' : Pooled) : Prop where
  size : w'.pool.size = w.pool.size
  bounded : w.pool.Bounded → w'.pool.Bounded

theorem Keeps.refl (w : Pooled) : Keeps w w :=
  ⟨rfl, id⟩

theorem Keeps.trans {w₁ w₂ w₃ : Pooled} (h : Keeps w₁ w₂) (h' : Keeps w₂ w₃) : Keeps w₁ w₃ :=
  ⟨h'.size.trans h.size, h'.bounded ∘ h.bounded⟩

/-- The pool alone decides whether it is within its bounds. -/
theorem Keeps.of_pool_eq {w w' : Pooled} (h : w'.pool = w.pool) : Keeps w w' :=
  ⟨by rw [h], fun hb => by rwa [h]⟩

theorem keeps_checkOut (w : Pooled) : Keeps w w.checkOut.2 :=
  ⟨by rw [checkOut, Pool.get_snd], fun h => h.get⟩

theorem keeps_giveBack (w : Pooled) (b : Buffer) : Keeps w (w.giveBack b) :=
  ⟨w.pool.size_put b, fun h => h.put b⟩

theorem keeps_foldl (hreport : ∀ w f, Keeps w (report w f)) (fs : List MarshalFailure) (w : Pooled) :
    Keeps w (fs.foldl report w) := by
  induction fs generalizing w with
  | nil => exact .refl w
  | cons f fs ih => exact (hreport w f).trans (ih _)

theorem keeps_attempt (hreport : ∀ w f, Keeps w (report w f)) (w : Pooled) (l : Logger) (e : Emission) :
    Keeps w (w.attempt report l e).1 := by
  rw [attempt_eq]
  have hreported : Keeps w (reported report w e) := w.keeps_checkOut.trans (keeps_foldl hreport _ _)
  have hoffered : Keeps (reported report w e)
      ⟨((reported report w e).session.offer l.sink (w.session.record l e)).1,
        (reported report w e).pool⟩ := .of_pool_eq rfl
  exact (hreported.trans hoffered).trans (keeps_giveBack _ _)

theorem keeps_unreported (w : Pooled) (f : MarshalFailure) : Keeps w (unreported w f) :=
  .refl w

theorem keeps_emitReport (w : Pooled) (e : Emission) : Keeps w (w.emitReport e) := by
  rw [emitReport]
  cases w.session.logger? w.session.defaultLogger with
  | none => exact .refl w
  | some l =>
      have hattempt := keeps_attempt keeps_unreported w l e
      dsimp only
      split
      · split
        · rename_i heq
          rwa [heq] at hattempt
        · rename_i heq
          rw [heq] at hattempt
          exact hattempt.trans (.of_pool_eq rfl)
      · exact .refl w

theorem keeps_reportWriteFailure (w : Pooled) (site : CallSite) (writer : String) (e : IoError) :
    Keeps w (w.reportWriteFailure site writer e) := by
  rw [reportWriteFailure]
  split
  · exact .of_pool_eq rfl
  · have hreport := keeps_emitReport { w with session.reporting := true } (.writeFailure site writer e)
    exact ⟨hreport.size, hreport.bounded⟩

theorem keeps_write (hreport : ∀ w f, Keeps w (report w f)) (w : Pooled) (l : Logger) (e : Emission) :
    Keeps w (w.write report l e) := by
  have hattempt := keeps_attempt hreport w l e
  rw [write]
  split
  · rename_i heq
    rwa [heq] at hattempt
  · rename_i heq
    rw [heq] at hattempt
    exact hattempt.trans (keeps_reportWriteFailure _ _ _ _)

theorem keeps_emitPlain (w : Pooled) (e : Emission) : Keeps w (w.emitPlain e) := by
  rw [emitPlain]
  cases w.session.logger? w.session.defaultLogger with
  | none => exact .refl w
  | some l =>
      dsimp only
      split
      · exact keeps_write keeps_unreported w l e
      · exact .refl w

theorem keeps_emit (w : Pooled) (l : Logger) (e : Emission) : Keeps w (w.emit l e) := by
  rw [emit]
  split
  · exact keeps_write (fun w f => keeps_emitPlain w _) w l e
  · exact .refl w

end Pooled

/-! ### Reset and bounded -/

namespace Pool

/-- **Pooled buffers are reset, and the pool is bounded.** Whatever has been done with a pool of any size, it
keeps no more buffers than its size. A check-out gives an empty buffer and takes the one that has been idle
longest, if there is one; a return adds the buffer if there is room and it has not grown too large; nothing
else changes the pool. Whatever is done with other buffers meanwhile, a buffer holds what its own changes made
of an empty one, so a record that is assembled in it is the record that is assembled in an empty one. And
emitting through the pool, diagnostics included, does what emitting without one does. -/
theorem reset_and_bounded :
    (∀ (size : Nat) (uses : List Use), let d := (Desk.opened size).run uses
      d.pool.size = size ∧ d.pool.idle.length ≤ size ∧
      (∃ capacity, (d.step .checkOut).buffer? d.held.length = some ⟨[], capacity⟩) ∧
      (d.step .checkOut).pool = { d.pool with idle := d.pool.idle.tail } ∧
      (∀ ticket b, d.buffer? ticket = some b → (d.step (.giveBack ticket)).pool =
        if b.capacity ≤ Buffer.retainedCapacity ∧ d.pool.idle.length < size then
          { d.pool with idle := d.pool.idle ++ [b] }
        else d.pool) ∧
      ∀ ticket f, (d.step (.change ticket f)).pool = d.pool) ∧
    (∀ (d : Desk) (uses : List Use), .giveBack d.held.length ∉ uses →
      ∃ capacity, ((d.step .checkOut).run uses).buffer? d.held.length =
        some (Buffer.changed ⟨[], capacity⟩ (Use.changes d.held.length uses))) ∧
    (∀ (d : Desk) (uses : List Use) (c : Config) (fallback : Time.Format) (r : Record) (context : Bytes)
      (leading fields : List Field), .giveBack d.held.length ∉ uses →
      Use.changes d.held.length uses = (r.pieces c fallback context leading fields).map Piece.change →
      ∃ b, ((d.step .checkOut).run uses).buffer? d.held.length = some b ∧
        b.bytes = r.appendTo [] c fallback context leading fields) ∧
    ∀ (w : Pooled) (l : Logger) (e : Emission), (w.emit l e).session = w.session.emit l e ∧
      (w.emit l e).pool.size = w.pool.size ∧ (w.pool.Bounded → (w.emit l e).pool.Bounded) := by
  have hempty : ∀ d : Desk, ∃ capacity,
      (d.step .checkOut).buffer? d.held.length = some ⟨[], capacity⟩ := by
    intro d
    exact ⟨d.pool.get.1.capacity, by rw [d.buffer?_checkOut, ← d.pool.bytes_get]⟩
  have hchanged : ∀ (d : Desk) (uses : List Use), .giveBack d.held.length ∉ uses →
      ∃ capacity, ((d.step .checkOut).run uses).buffer? d.held.length =
        some (Buffer.changed ⟨[], capacity⟩ (Use.changes d.held.length uses)) := by
    intro d uses hkept
    obtain ⟨capacity, hfresh⟩ := hempty d
    exact ⟨capacity, Desk.buffer?_run hfresh hkept⟩
  refine ⟨?_, hchanged, ?_, ?_⟩
  · intro size uses
    have hopened : (Desk.opened size).pool.Bounded := ⟨Nat.zero_le size, by simp [Desk.opened]⟩
    obtain ⟨hsize, hbounded⟩ := Desk.run_bounded hopened uses
    have hsize : ((Desk.opened size).run uses).pool.size = size := hsize
    refine ⟨hsize, hbounded.length_le.trans hsize.le, hempty _, Pool.get_snd _, ?_, fun _ _ => rfl⟩
    intro ticket b hb
    rw [Desk.step_giveBack hb]
    dsimp only
    rw [put, hsize]
  · intro d uses c fallback r context leading fields hkept hpieces
    obtain ⟨capacity, hbuffer⟩ := hchanged d uses hkept
    refine ⟨_, hbuffer, ?_⟩
    rw [hpieces, bytes_changed, Record.written_pieces]
  · intro w l e
    have hkeeps := w.keeps_emit l e
    exact ⟨w.session_emit l e, hkeeps.size, hkeeps.bounded⟩

/-- A desk whose only idle buffer still holds what was written to it. -/
def used : Desk :=
  (Desk.opened 1).run [.checkOut, .change 0 (·.append [0x21, 0x2C]), .giveBack 0]

/-- A record with a message and an object that refuses. -/
def nestedPieces : List Piece :=
  Record.pieces { timestamp := ⟨false, ""⟩, severity := ⟨false, ""⟩, caller := ⟨false, ""⟩ } .unix
    ⟨.epoch, "", none, "hi"⟩ [] [] [.object "o" (.refusing "no") ⟨"main.rs", 3⟩]

/-- Writing the pieces under the ticket 1. Behind the key of the object another buffer is checked out, written
to and returned. -/
def nestedUses : List Use :=
  (nestedPieces.take 3).map (Use.change 1 ·.change) ++
    [.checkOut, .change 2 (·.append [0x21]), .giveBack 2] ++
    (nestedPieces.drop 3).map (Use.change 1 ·.change)

/-- The record is assembled in the buffer that was used before. -/
theorem reset_and_bounded_nested :
    ∃ b, ((used.step .checkOut).run nestedUses).buffer? 1 = some b ∧
      b.bytes = utf8 "\x7b\"message\":\"hi\",\"o\":null\x7d\n".toList := by
  have hkept : Use.giveBack 1 ∉ nestedUses := by
    simp [nestedUses, nestedPieces, Record.pieces, Field.pieces]
  have hpieces : Use.changes 1 nestedUses = nestedPieces.map Piece.change := rfl
  obtain ⟨-, -, hrecord, -⟩ := reset_and_bounded
  obtain ⟨b, hbuffer, hbytes⟩ := hrecord used nestedUses _ _ _ _ _ _ hkept hpieces
  exact ⟨b, hbuffer, hbytes.trans (by decide +kernel)⟩

end Pool
end LineLog
