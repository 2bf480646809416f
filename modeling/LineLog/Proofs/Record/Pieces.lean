import LineLog.Record.Pieces
import LineLog.Proofs.Record.Members
/-!
# LineLog.Proofs.Record.Pieces

A record that is assembled piece by piece is the record that is assembled in one go.

Design points:

* Closing an object looks at the last byte, and a comma is the only character with such a byte: every byte of a
  longer one is above 127 (`comma_notMem`). So bytes are closed as the text that they encode is, whatever
  the context of a logger is made of (`closeBytes_utf8`).
* The pieces of a record report what its fields report, in their order (`failures_pieces`).
-/

namespace LineLog

open Text

namespace Record

/-! ### Closing -/

theorem comma_notMem {c : Char} (hc : c ≠ ',') : commaByte ∉ String.utf8EncodeChar c := by
  intro hmem
  by_cases hascii : c.toNat < 128
  · rw [utf8EncodeChar_ascii hascii, List.mem_singleton] at hmem
    have hcode : c.toNat = 0x2C := by
      rw [← toNat_toUInt8 hascii, ← hmem]
      rfl
    exact hc (Char.toNat_inj.1 hcode)
  · exact absurd (utf8EncodeChar_byte (Nat.le_refl 128) (Nat.not_lt.1 hascii) _ hmem) (by decide)

/-- Bytes are closed as the text that they encode is, and what stands before them is left as it is. -/
theorem closeBytes_utf8 (dst : Bytes) {cs : List Char} (hne : cs ≠ []) :
    closeBytes (dst ++ utf8 cs) = dst ++ utf8 (close cs) := by
  have hbrace : utf8 ['}'] = [braceByte] := by decide
  obtain ⟨front, c, rfl⟩ : ∃ front c, cs = front ++ [c] := by
    simpa using (List.eq_nil_or_concat cs).resolve_left hne
  by_cases hc : c = ','
  · subst hc
    have hcomma : utf8 [','] = [commaByte] := by decide
    rw [close, if_pos List.getLast?_concat, List.dropLast_concat, utf8_append, utf8_append, hcomma,
      hbrace, ← List.append_assoc, closeBytes, if_pos List.getLast?_concat, List.dropLast_concat,
      List.append_assoc]
  · have hlast : (dst ++ utf8 (front ++ [c])).getLast? ≠ some commaByte := by
      intro hlast
      have hencoded : utf8 [c] = String.utf8EncodeChar c := by simp
      have hne : String.utf8EncodeChar c ≠ [] := String.utf8EncodeChar_ne_nil
      rw [utf8_append, ← List.append_assoc, hencoded, List.getLast?_append_of_ne_nil _ hne] at hlast
      exact comma_notMem hc (List.mem_of_getLast? hlast)
    rw [closeBytes, if_neg hlast, close, if_neg (by simpa using hc), utf8_append (front ++ [c]), hbrace,
      List.append_assoc]

/-- Writing a record behind other bytes adds its text. -/
theorem appendTo_text (dst : Bytes) (c : Config) (fallback : Time.Format) (r : Record)
    (context : List Char) (leading fields : List Field) :
    r.appendTo dst c fallback (utf8 context) leading fields =
      dst ++ utf8 (r.assemble c fallback context leading fields) := by
  have hunclosed : dst ++ utf8 ('{' :: r.blocks c) ++ utf8 context ++
      utf8 (Field.renderAll fallback (leading ++ fields)) =
        dst ++ utf8 ('{' :: r.blocks c ++ context ++ Field.renderAll fallback (leading ++ fields)) := by
    simp
  rw [appendTo, appendAllTo_eq, hunclosed, closeBytes_utf8 dst (by simp), assemble, body, utf8_append,
    List.append_assoc]

/-! ### Pieces -/

/-- What pieces make of the destination, one after the other. -/
def written (dst : Bytes) (pieces : List Piece) : Bytes :=
  pieces.foldl (fun dst p => p.write dst) dst

theorem written_append (dst : Bytes) (a b : List Piece) :
    written dst (a ++ b) = written (written dst a) b :=
  List.foldl_append

theorem written_fields (fallback : Time.Format) (fields : List Field) (dst : Bytes) :
    written dst (fields.flatMap (Field.pieces fallback)) = Field.appendAllTo fallback dst fields := by
  induction fields generalizing dst with
  | nil => rfl
  | cons f fields ih =>
      rw [List.flatMap_cons, written_append, ih]
      rfl

/-- The pieces of a record write the record. -/
theorem written_pieces (dst : Bytes) (c : Config) (fallback : Time.Format) (r : Record) (context : Bytes)
    (leading fields : List Field) :
    written dst (r.pieces c fallback context leading fields) =
      r.appendTo dst c fallback context leading fields := by
  rw [pieces, List.cons_append, List.cons_append]
  show written (dst ++ utf8 ('{' :: r.blocks c) ++ context) (_ ++ _) = _
  rw [written_append, written_fields]
  rfl

theorem failures_fields (fallback : Time.Format) (fields : List Field) :
    (fields.flatMap (Field.pieces fallback)).filterMap Piece.failure = Field.marshalFailures fields := by
  induction fields with
  | nil => rfl
  | cons f fields ih =>
      rw [List.flatMap_cons, List.filterMap_append, ih]
      cases h : f.value.marshalFailure? <;> simp [Field.pieces, Field.marshalFailures, h]

/-- The pieces of a record report the objects among its fields that refuse, in order. -/
theorem failures_pieces (c : Config) (fallback : Time.Format) (r : Record) (context : Bytes)
    (leading fields : List Field) :
    (r.pieces c fallback context leading fields).filterMap Piece.failure =
      Field.marshalFailures (leading ++ fields) := by
  simp [pieces, failures_fields]

end Record
end LineLog
