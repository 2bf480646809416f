import LineLog.Proofs.Field.Append
/-!
# LineLog.Proofs.Field.Pieces

Values and errors that show themselves, in pieces and with failures.

A value that shows itself is written as a JSON string of all that it has shown. The pieces leave no trace,
and neither does a failure: the string is closed behind the last piece. The same holds for the links of an
error, each of which may fail for itself.

Design points:

* `FieldValue.Writes` is about the bytes that are written behind any destination, and about any bytes that
  may follow. It asks for the text from both readers, that of strings and that of values.
* The flag of `Shown` is bound in every statement and occurs in no text, so what is said holds with any
  failures.
-/

namespace LineLog

open Text Json

namespace FieldValue

/-- The value is written as what `s` shows. -/
inductive Shows : FieldValue → Shown → Prop
  | stringer (s : Shown) : Shows (.stringer (some s)) s
  | formatter (s : Shown) : Shows (.formatter (some s)) s
  | interface (s : Shown) : Shows (.interface (some s)) s
  | error (f : Fault) : Shows (.error (some f)) f.message
  | trace (s : Shown) : Shows (.errorStacktrace (some (.verbose s))) s

/-- Behind whatever a destination holds, the value is written as one closed JSON string of this text. -/
def Writes (v : FieldValue) (text : String) : Prop :=
  ∀ fallback dst, ∃ written, v.writeTo fallback dst = dst ++ written ∧
    (∀ rest, scanString (written ++ rest) = some (text, rest)) ∧
    ∀ rest, Closes rest → treeOfBytes (written ++ utf8 rest) = .ok (.string text.toList, rest)

/-- A value whose text is a quoted string is written as this string. -/
theorem writes_of_render {v : FieldValue} {text : String}
    (h : ∀ fallback, v.render fallback = quoted text) : v.Writes text := by
  intro fallback dst
  refine ⟨utf8 (quoted text), ?_, ?_, ?_⟩
  · rw [writeTo_eq, appendTo, h]
  · intro rest
    rw [utf8_quoted]
    simpa using scanString_quoted text rest
  · exact fun rest hrest => (Compact.quote text.toList).treeOfBytes_append hrest

theorem Shows.render {v : FieldValue} {s : Shown} (h : v.Shows s) (fallback : Time.Format) :
    v.render fallback = quote s.text := by
  cases h <;> rfl

end FieldValue

namespace Shown

theorem toList_join (s : Shown) : (String.join s.chunks).toList = s.text :=
  String.toList_join

end Shown

namespace Fault

/-- Everything that an error and its causes show, one piece after the other. -/
def chunks (f : Fault) : List String :=
  f.message.chunks ++ f.causes.flatMap fun cause => "\ncaused by: " :: cause.chunks

theorem toList_join_chunks (f : Fault) : (String.join f.chunks).toList = f.traceText := by
  rw [String.toList_join, chunks, List.flatMap_append, List.flatMap_assoc]
  rfl

end Fault

namespace FieldValue

/-- **Text is escaped independently of how it is written, and survives failure.** A value that shows
itself is written as one closed JSON string of its pieces, whether it fails or not, and values whose
pieces come to the same text are written the same. The trace of an error is the string of its message and,
on a line each, of the messages of its causes, and errors are the array of their messages, whichever of
them fail. -/
theorem pieces_writeTo :
    (∀ v s, Shows v s → v.Writes (String.join s.chunks)) ∧
    (∀ v w s u, Shows v s → Shows w u → String.join s.chunks = String.join u.chunks →
      ∀ fallback dst, v.writeTo fallback dst = w.writeTo fallback dst) ∧
    (∀ f : Fault, (errorStacktrace (some (.chain f))).Writes (String.join f.chunks)) ∧
    ∀ faults fallback dst, ∃ written, (errors (some faults)).writeTo fallback dst = dst ++ written ∧
      ∀ rest, Closes rest → treeOfBytes (written ++ utf8 rest) =
        .ok (.array (faults.map fun f => .string (String.join f.message.chunks).toList), rest) := by
  refine ⟨?_, ?_, ?_, ?_⟩
  · intro v s h
    refine writes_of_render fun fallback => ?_
    rw [h.render, quoted, s.toList_join]
  · intro v w s u hv hw hjoin fallback dst
    have htext : s.text = u.text := by rw [← s.toList_join, ← u.toList_join, hjoin]
    rw [writeTo_eq, writeTo_eq, appendTo, appendTo, hv.render, hw.render, htext]
  · intro f
    refine writes_of_render fun fallback => ?_
    rw [quoted, f.toList_join_chunks]
    rfl
  · intro faults fallback dst
    refine ⟨utf8 ((errors (some faults)).render fallback), writeTo_eq fallback dst _, ?_⟩
    intro rest hrest
    have hitems : List.Forall₂ Compact (faults.map faultText)
        (faults.map fun f => .string (String.join f.message.chunks).toList) := by
      rw [List.forall₂_map_left_iff, List.forall₂_map_right_iff, List.forall₂_same]
      intro f _
      rw [f.message.toList_join]
      exact .quote f.message.text
    exact (Compact.array hitems).treeOfBytes_append hrest

/-- A value that fails behind an empty piece and a torn word, and one that shows the word at once. The
error has two causes, of which the first one fails within its message. -/
theorem pieces_writeTo_failing :
    let torn : Shown := ⟨["", "dis", "k \"full", "\""], true⟩
    let whole : Shown := ⟨["disk \"full\""], false⟩
    let fault : Fault := ⟨⟨["write"], false⟩, [⟨["flu", "sh"], true⟩, torn]⟩
    (∀ dst, (stringer (some torn)).writeTo .unix dst = (error (some ⟨whole, []⟩)).writeTo .unix dst) ∧
      (formatter (some torn)).Writes "disk \"full\"" ∧
      (errorStacktrace (some (.chain fault))).Writes
        "write\ncaused by: flush\ncaused by: disk \"full\"" ∧
      ∃ written, (errors (some [fault, ⟨torn, []⟩])).writeTo .unix [0x3A] = [0x3A] ++ written ∧
        treeOfBytes (written ++ utf8 ['}']) =
          .ok (.array [.string "write".toList, .string "disk \"full\"".toList], ['}']) := by
  intro torn whole fault
  obtain ⟨hone, hsame, hchain, hmany⟩ := pieces_writeTo
  refine ⟨?_, ?_, ?_, ?_⟩
  · exact hsame _ _ torn whole (.stringer torn) (.error ⟨whole, []⟩) (by decide) .unix
  · exact hone _ torn (.formatter torn)
  · exact hchain fault
  · obtain ⟨written, happend, hread⟩ := hmany [fault, ⟨torn, []⟩] .unix [0x3A]
    exact ⟨written, happend, hread _ (closes_brace [])⟩

end FieldValue
end LineLog
