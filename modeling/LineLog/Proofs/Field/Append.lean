import LineLog.Field.Append
import LineLog.Proofs.Json.Floating
import LineLog.Proofs.Time.Append
/-!
# LineLog.Proofs.Field.Append

Writing a value as it comes about comes to the same as writing its text.

`FieldValue.writeTo` writes piece by piece and item by item, and `FieldValue.appendTo` the text as a
whole. They are equal (`FieldValue.writeTo_eq`), so what has been said about the texts of values holds of
what is written.

Design points:

* Escaping distributes over concatenation, so it does not matter in how many pieces a text arrives
  (`Shown.appendTo_fst`), nor that the causes of an error are further pieces of the same string.
* A way of writing is carried over to values that may be missing and to lists of values
  (`appendOrNull_eq`, `appendItems_eq`).
* What is written between quotation marks as it stands is bare.
-/

namespace LineLog

open Decimal Text Json

/-! ### Values that show themselves -/

/-- Pieces that are escaped one after the other are escaped like one text. -/
theorem foldl_appendEscaped (chunks : List String) (dst : Bytes) :
    chunks.foldl (fun dst chunk => appendEscaped dst (utf8 chunk.toList)) dst =
      dst ++ escapeBytes (utf8 (chunks.flatMap String.toList)) := by
  induction chunks generalizing dst with
  | nil => simp
  | cons chunk chunks ih =>
      rw [List.foldl_cons, ih, appendEscaped_eq, List.flatMap_cons, utf8_append, escapeBytes_append,
        List.append_assoc]

namespace Shown

theorem appendTo_fst (s : Shown) (dst : Bytes) :
    (s.appendTo dst).1 = dst ++ escapeBytes (utf8 s.text) :=
  foldl_appendEscaped s.chunks dst

/-- A value is written as the text that it shows, in however many pieces, and whether it fails or not. -/
theorem appendQuotedTo_eq (s : Shown) (dst : Bytes) :
    s.appendQuotedTo dst = dst ++ utf8 (quote s.text) := by
  rw [appendQuotedTo, appendTo_fst, utf8_quote]
  simp

end Shown

/-- Causes are written behind what is there already. -/
theorem foldl_appendCause (causes : List Shown) (dst : Bytes) :
    causes.foldl (fun dst cause => ((cause.behind (String.ofList Fault.causedBy)).appendTo dst).1) dst =
      dst ++ escapeBytes (utf8 (causes.flatMap fun cause => Fault.causedBy ++ cause.text)) := by
  induction causes generalizing dst with
  | nil => simp
  | cons cause causes ih =>
      rw [List.foldl_cons, ih, Shown.appendTo_fst, Shown.text_behind, String.toList_ofList,
        List.flatMap_cons, utf8_append _ (causes.flatMap _), escapeBytes_append, List.append_assoc]

/-- An error is written as its message and those of its causes, whichever of them fail. -/
theorem Fault.appendTraceTo_eq (f : Fault) (dst : Bytes) :
    f.appendTraceTo dst = dst ++ utf8 (quote f.traceText) := by
  rw [appendTraceTo, foldl_appendCause, Shown.appendTo_fst, utf8_quote, traceText, utf8_append,
    escapeBytes_append]
  simp [text]

theorem Stacktrace.appendTo_eq (trace : Stacktrace) (dst : Bytes) :
    trace.appendTo dst = dst ++ utf8 (quote trace.text) := by
  cases trace with
  | verbose shown => exact shown.appendQuotedTo_eq dst
  | chain fault => exact fault.appendTraceTo_eq dst

/-! ### Numbers -/

namespace FloatWidth

theorem bare_finite (w : FloatWidth) (x : Finite) : Bare (w.finite x) := by
  have hfinite : ∀ l y, Bare (Style.plain.finite l y) := by
    intro l y
    obtain ⟨n, hwell, -, hplain, -⟩ := exists_plain_finite (s := .plain) rfl l y
    rw [hplain]
    exact bare_plain hwell
  cases w with
  | double => exact hfinite .double x
  | single =>
      rw [finite]
      cases x.round .single with
      | finite y => exact hfinite .single y
      | infinite negative => exact bare_ite (by decide) (by decide)
      | nan => decide

theorem bare_text (w : FloatWidth) (x : Float) : Bare (w.text x) := by
  rw [text]
  cases Binary.ofFloat x with
  | nan => exact show Bare ['N', 'a', 'N'] by decide
  | infinite negative =>
      cases negative with
      | false => exact show Bare ['+', 'I', 'n', 'f'] by decide
      | true => exact show Bare ['-', 'I', 'n', 'f'] by decide
  | finite y => exact w.bare_finite y

theorem bare_complexText (w : FloatWidth) (re im : Float) : Bare (w.complexText re im) := by
  have hsign : Bare (if needsPlus im then ['+'] else []) := bare_ite (by decide) bare_nil
  rw [complexText]
  simp only [bare_append]
  exact ⟨⟨⟨w.bare_text re, hsign⟩, w.bare_text im⟩, by decide⟩

theorem appendComplexTo_eq (w : FloatWidth) (dst : Bytes) (re im : Float) :
    w.appendComplexTo dst re im = dst ++ utf8 (quote (w.complexText re im)) := by
  rw [← appendVerbatim_eq (w.bare_complexText re im), appendVerbatim, complexText, appendComplexTo]
  cases needsPlus im <;> simp

end FloatWidth

/-! ### Values that may be missing, and lists of values -/

section Lifting

variable {α : Type} {write : Bytes → α → Bytes} {render : α → List Char}
  (h : ∀ dst a, write dst a = dst ++ utf8 (render a))

include h

theorem appendOrNull_eq (dst : Bytes) (a : Option α) :
    appendOrNull write dst a = dst ++ utf8 (orNull render a) := by
  cases a with
  | none => rfl
  | some a => exact h dst a

/-- Behind the first item, every item comes behind a comma. -/
theorem foldl_items (items : List α) (place : Nat) (dst : Bytes) :
    (items.zipIdx (place + 1)).foldl
        (fun dst item => write (if 0 < item.2 then dst ++ [commaByte] else dst) item.1) dst =
      dst ++ utf8 (items.flatMap fun a => ',' :: render a) := by
  induction items generalizing place dst with
  | nil => simp
  | cons item items ih =>
      have hcomma : String.utf8EncodeChar ',' = [commaByte] := by decide
      rw [List.zipIdx_cons, List.foldl_cons, ih, h, if_pos (Nat.succ_pos place), List.flatMap_cons,
        utf8_append, utf8_cons, hcomma]
      simp

omit h in
theorem intercalate_eq_flatMap (first : List Char) (rest : List (List Char)) :
    [','].intercalate (first :: rest) = first ++ rest.flatMap (',' :: ·) := by
  induction rest generalizing first with
  | nil => simp
  | cons next rest ih => rw [List.intercalate_cons_cons, ih, List.flatMap_cons]; simp

theorem appendItems_eq (dst : Bytes) (items : List α) :
    appendItems write dst items = dst ++ utf8 (arrayText (items.map render)) := by
  rw [appendItems, arrayText, Object.enclosed]
  cases items with
  | nil => simp
  | cons item items =>
      rw [List.zipIdx_cons, List.foldl_cons, foldl_items h, h, List.map_cons, intercalate_eq_flatMap]
      simp [List.flatMap_map]

end Lifting

/-! ### Times -/

theorem appendTime_eq (fallback : Time.Format) (format : Option Time.Format) (dst : Bytes)
    (t : Time.Instant) : appendTime fallback format dst t = dst ++ utf8 (timeText fallback format t) := by
  by_cases hvalid : t.Valid
  · rw [appendTime, timeText, if_pos hvalid, if_pos hvalid]
    exact Time.Format.appendTo_eq hvalid.2.2.1 _ dst
  · rw [appendTime, timeText, if_neg hvalid, if_neg hvalid]

theorem appendCount_eq (unit : Int64) (dst : Bytes) (nanos : Int64) :
    appendCount unit dst nanos = dst ++ utf8 (durationCount unit nanos) :=
  appendOrNull_eq (fun _ _ => rfl) dst _

namespace Time.Duration

theorem bare_magnitude (total : Nat) : Bare (magnitude total) := by
  have hletter : ∀ {n : Nat} {c : Char}, BareChar c → Bare (natural n ++ [c]) := fun hc =>
    bare_append.2 ⟨bare_natural _, bare_cons.2 ⟨hc, bare_nil⟩⟩
  refine bare_ite (bare_ite ?_ (bare_ite ?_ ?_)) ?_
  · exact bare_append.2 ⟨bare_natural _, by decide⟩
  · exact bare_append.2 ⟨bare_append.2 ⟨bare_natural _, bare_fraction _ _⟩, by decide⟩
  · exact bare_append.2 ⟨bare_append.2 ⟨bare_natural _, bare_fraction _ _⟩, by decide⟩
  · have hhours : BareChar 'h' := by decide
    have hminutes : BareChar 'm' := by decide
    simp only [fromSecond, bare_append]
    exact ⟨⟨⟨⟨bare_ite (hletter hhours) bare_nil, bare_ite (hletter hminutes) bare_nil⟩,
      bare_natural _⟩, bare_fraction _ _⟩, by decide⟩

theorem bare_text (n : Int) : Bare (text n) :=
  bare_ite (by decide) (bare_ite (bare_cons.2 ⟨by decide, bare_magnitude _⟩) (bare_magnitude _))

end Time.Duration

theorem appendDuration_eq (dst : Bytes) (nanos : Int64) :
    appendDuration dst nanos = dst ++ utf8 (durationQuoted nanos) :=
  appendVerbatim_eq (Time.Duration.bare_text _) dst

/-! ### Values of fields -/

/-- **Writing a value as it comes about comes to the same as writing its text.** -/
theorem FieldValue.writeTo_eq (fallback : Time.Format) (dst : Bytes) (v : FieldValue) :
    v.writeTo fallback dst = v.appendTo fallback dst := by
  have hshown : ∀ dst (s : Shown), s.appendQuotedTo dst = dst ++ utf8 (shownText s) :=
    fun dst s => s.appendQuotedTo_eq dst
  cases v with
  | none => exact appendVerbatim_eq (by decide) dst
  | undefined code => exact appendVerbatim_eq (bare_append.2 ⟨by decide, bare_natural _⟩) dst
  | bool _ | uint _ | int _ | float _ _ => rfl
  | boolOpt _ | uintOpt _ | intOpt _ | floatOpt _ _ => exact appendOrNull_eq (fun _ _ => rfl) dst _
  | complex re im width => exact width.appendComplexTo_eq dst re im
  | complexOpt z width => exact appendOrNull_eq (fun dst z => width.appendComplexTo_eq dst z.1 z.2) dst z
  | time t format => exact appendTime_eq fallback format dst t
  | timeOpt t format => exact appendOrNull_eq (appendTime_eq fallback format) dst t
  | duration nanos unit => exact appendCount_eq unit dst nanos
  | durationOpt nanos unit => exact appendOrNull_eq (appendCount_eq unit) dst nanos
  | durationText nanos => exact appendDuration_eq dst nanos
  | durationTextOpt nanos => exact appendOrNull_eq appendDuration_eq dst nanos
  | string s => exact appendQuoted_eq dst s
  | stringOpt s => exact appendOrNull_eq appendQuoted_eq dst s
  | strings ss => exact appendOrNull_eq (appendItems_eq appendQuoted_eq) dst ss
  | stringer s | formatter s | interface s => exact appendOrNull_eq hshown dst s
  | error f => exact appendOrNull_eq (fun dst f => hshown dst f.message) dst f
  | errors fs => exact appendOrNull_eq (appendItems_eq fun dst f => hshown dst f.message) dst fs
  | errorStacktrace trace => exact appendOrNull_eq (fun dst t => t.appendTo_eq dst) dst trace
  | object value _ =>
      rw [writeTo, appendTo, render]
      cases value.marshal <;> rfl

end LineLog
