import LineLog.Proofs.Time.Epoch
import LineLog.Proofs.Time.Layout
/-!
# LineLog.Proofs.Time.Append

Whatever its format, an instant is written as one JSON value of the announced kind.

Design points:

* The texts that go between quotation marks as they stand are bare, so what is written is the rendered
  value (`Format.appendTo_eq`). There the nanoseconds of an instant must be those of a second or of a
  leap second: a clock that shows more would run out of digits.
* What a layout shows before it fails is not looked at. Both ways of asking, for the items and for what is
  shown, fail for the same layouts (`Instant.appendUnder_eq`).
* `Format.Announces` is what a reader finds. It is stated with the grammar of layouts, not with the reader
  of layouts.
-/

namespace LineLog.Time

open Decimal Text Json

namespace Instant

variable {t : Instant} (h : t.nanos < 2 * nanosPerSecond)

include h in
theorem bare_dateClock : Bare t.dateClock := by
  refine bare_renderItems h ?_
  intro c hc
  have hmarks : Bare ['-', 'T', ':'] := by decide
  refine hmarks c ?_
  simpa [Layout.dashDate, Layout.clock, Layout.joined] using hc

theorem bare_rfc3339Offset (t : Instant) : Bare t.rfc3339Offset := by
  unfold rfc3339Offset
  refine bare_ite (by decide) ?_
  have hsign : BareChar (offsetSign t.offset) := by
    unfold offsetSign
    split <;> decide
  have hcolon : BareChar ':' := by decide
  simp [twoDigits, hsign, hcolon]

include h in
theorem bare_rfc3339 (nanos : Bool) : Bare (t.rfc3339 nanos) := by
  have hfraction : Bare (if nanos then fraction 9 (min t.nanos (nanosPerSecond - 1)) else []) :=
    bare_ite (bare_fraction _ _) bare_nil
  exact bare_append.2 ⟨bare_append.2 ⟨bare_dateClock h, hfraction⟩, bare_rfc3339Offset t⟩

include h in
theorem bare_iso8601 : Bare t.iso8601 := by
  have hutc : t.inUtc.nanos < 2 * nanosPerSecond := h
  have hfraction : Bare ((Item.fixedFraction 3 true).render t.inUtc) :=
    Item.bare_render hutc fun c hc => by cases hc
  exact bare_append.2 ⟨bare_append.2 ⟨bare_dateClock hutc, hfraction⟩, by decide⟩

/-- Under a layout, its items are rendered. -/
theorem underLayout_of_spells {layout : List Char} {items : List Item}
    (hlayout : Layout.Spells layout items) (t : Instant) :
    t.underLayout layout = renderItems t items := by
  rw [underLayout, renderLayout?, hlayout.items?]
  rfl

/-- A text that refuses is quoted in the message about it. -/
theorem underLayout_of_refuses {layout : List Char} (hlayout : Layout.Refuses layout) (t : Instant) :
    t.underLayout layout = invalidLayout layout := by
  rw [underLayout, renderLayout?, hlayout.items?]
  rfl

/-- What is written under a layout is what is rendered, or else the message about the layout. -/
theorem appendUnder_eq (dst : Bytes) (t : Instant) (layout : String) :
    t.appendUnder dst layout = dst ++ utf8 (quote (t.underLayout layout.toList)) := by
  rcases Layout.spells_or_refuses layout.toList with ⟨items, hitems⟩ | hrefuses
  · obtain ⟨htext, hfails⟩ := hitems.shownUnder t
    rw [appendUnder, underLayout_of_spells hitems]
    simp only [hfails, htext, Bool.false_eq_true, if_false]
    rw [appendQuoted_eq, quoted, String.toList_ofList]
  · rw [appendUnder, underLayout_of_refuses hrefuses]
    simp only [hrefuses.fails_shownUnder t, if_true]
    exact appendEscaped_behind_bare (by decide) dst layout.toList

end Instant

/-- **What is written is the rendered value.** -/
theorem Format.appendTo_eq {t : Instant} (h : t.nanos < 2 * nanosPerSecond) (f : Format) (dst : Bytes) :
    f.appendTo dst t = dst ++ utf8 (f.render t) := by
  cases f with
  | rfc3339Nano => exact appendVerbatim_eq (Instant.bare_rfc3339 h true) dst
  | rfc3339 => exact appendVerbatim_eq (Instant.bare_rfc3339 h false) dst
  | iso8601 => exact appendVerbatim_eq (Instant.bare_iso8601 h) dst
  | custom layout => exact Instant.appendUnder_eq dst t layout
  | unixDecimal | unix | unixMillis | unixMicros => rfl

/-! ### What is announced -/

/-- A number without an exponent, or else a string. -/
def OfKind (numeric : Bool) : Tree → Prop
  | .number l => numeric = true ∧ l.exponent = none
  | .string _ => numeric = false
  | _ => False

/-- A value that a reader finds for an instant is of the kind that its format announces. Under a layout
it is the string of the items of the layout. For a text that is no layout it is the message about the
text, where nothing is kept of what was shown before the text refused. -/
structure Format.Announces (t : Instant) (f : Format) (tree : Tree) : Prop where
  denotes : f.Denotes t tree
  kind : OfKind f.isNumeric tree
  items : ∀ layout items, f = .custom layout → Layout.Spells layout.toList items →
    tree = .string (renderItems t items)
  message : ∀ layout, f = .custom layout →
    (tree = .string (Instant.invalidLayout layout.toList) ↔ Layout.Refuses layout.toList)

/-- The message is rendered for a text that is no layout, and no layout renders it. -/
theorem Instant.underLayout_eq_invalidLayout {t : Instant} (h : t.nanos < 2 * nanosPerSecond)
    (layout : List Char) :
    t.underLayout layout = invalidLayout layout ↔ Layout.Refuses layout := by
  refine ⟨fun heq => ?_, fun hrefuses => underLayout_of_refuses hrefuses t⟩
  rcases Layout.spells_or_refuses layout with ⟨items, hitems⟩ | hrefuses
  · rw [underLayout_of_spells hitems] at heq
    exact absurd heq (hitems.render_ne_invalidLayout h)
  · exact hrefuses

namespace Format

variable {t : Instant} {f : Format} {tree : Tree}

theorem Denotes.ofKind (h : f.Denotes t tree) : OfKind f.isNumeric tree := by
  cases f with
  | rfc3339Nano | rfc3339 | iso8601 | custom _ =>
      cases h
      rfl
  | unixDecimal =>
      obtain ⟨l, rfl, hexponent, -⟩ := h
      exact ⟨rfl, hexponent⟩
  | unix | unixMillis | unixMicros =>
      obtain ⟨l, rfl, -, hexponent, -⟩ := h
      exact ⟨rfl, hexponent⟩

theorem Denotes.announces (h : f.Denotes t tree) (ht : t.nanos < 2 * nanosPerSecond) :
    f.Announces t tree where
  denotes := h
  kind := h.ofKind
  items := by
    rintro layout items rfl hitems
    rw [← Instant.underLayout_of_spells hitems]
    exact h
  message := by
    rintro layout rfl
    rw [← Instant.underLayout_eq_invalidLayout ht, show tree = .string (t.underLayout layout.toList) from h,
      Tree.string.injEq]

/-- **Every format writes one JSON value of the announced kind.** For every valid instant and every
format, what is written behind `dst` is counted on words without leaving their range, holds no control
character, and is read as one value, whatever closes it. The value is what the format announces, where a
text is a layout, or refuses, and not both. -/
theorem announced_appendTo (ht : t.Valid) (f : Format) (dst : Bytes) :
    (∃ text tree, f.render? t = some text ∧ f.appendTo dst t = dst ++ utf8 text ∧
      (∀ b ∈ utf8 text, 0x20 ≤ b.toNat) ∧
      (∀ rest, Closes rest → treeOfBytes (utf8 text ++ utf8 rest) = .ok (tree, rest)) ∧
      f.Announces t tree) ∧
    ∀ layout, Layout.Refuses layout ↔ ¬ ∃ items, Layout.Spells layout items := by
  have hnanos : t.nanos < 2 * nanosPerSecond := ht.2.2.1
  refine ⟨?_, fun layout => ?_⟩
  · obtain ⟨tree, hcompact, hdenotes⟩ := exists_compact_render t f
    exact ⟨f.render t, tree, render?_eq ht f, appendTo_eq hnanos f dst, hcompact.visible.utf8,
      fun rest hrest => hcompact.treeOfBytes_append hrest, hdenotes.announces hnanos⟩
  · rw [← Layout.items?_eq_none_iff]
    simp only [← Layout.items?_eq_some_iff, ← Option.ne_none_iff_exists', not_not]

/-- Half a second into a leap second, east of UTC. The first layout has a quotation mark, a line break and
a reverse solidus. The second one refuses at its end, when the clock has been shown already. The third is
the name of a format that counts. -/
theorem announced_appendTo_leap :
    let t : Instant := ⟨59, 1500000000, 3600⟩
    t.Valid ∧
      (∃ text, (custom "%H\"%n\\%S").appendTo [0x7B] t = [0x7B] ++ utf8 text ∧
        treeOfBytes (utf8 text ++ utf8 ['}']) = .ok (.string "01\"\n\\60".toList, ['}'])) ∧
      (∃ text, (custom "%T%").appendTo [0x7B] t = [0x7B] ++ utf8 text ∧
        treeOfBytes (utf8 text ++ utf8 []) =
          .ok (.string "ERROR: INVALID TIME FORMAT: %T%".toList, [])) ∧
      ∃ text, (custom "UNIX").appendTo [] t = [] ++ utf8 text ∧
        treeOfBytes (utf8 text ++ utf8 []) = .ok (.string "UNIX".toList, []) := by
  intro t
  have ht : t.Valid := by decide
  refine ⟨ht, ?_, ?_, ?_⟩
  · obtain ⟨⟨text, tree, -, happend, -, hread, hannounces⟩, -⟩ :=
      announced_appendTo ht (custom "%H\"%n\\%S") [0x7B]
    have hspells : Layout.Spells "%H\"%n\\%S".toList
        [.number .hour .zero, .literal '"', .literal '\n', .literal '\\', .number .second .zero] :=
      Layout.items?_eq_some_iff.1 (by decide)
    have hitems : tree = .string "01\"\n\\60".toList :=
      (hannounces.items _ _ rfl hspells).trans (congrArg Tree.string (by decide))
    exact ⟨text, happend, hitems ▸ hread _ (closes_brace [])⟩
  · obtain ⟨⟨text, tree, -, happend, -, hread, hannounces⟩, -⟩ :=
      announced_appendTo ht (custom "%T%") [0x7B]
    have hrefuses : Layout.Refuses "%T%".toList := Layout.items?_eq_none_iff.1 (by decide)
    have hmessage : tree = .string "ERROR: INVALID TIME FORMAT: %T%".toList :=
      (hannounces.message _ rfl).2 hrefuses
    exact ⟨text, happend, hmessage ▸ hread _ closes_nil⟩
  · obtain ⟨⟨text, tree, -, happend, -, hread, hannounces⟩, -⟩ :=
      announced_appendTo ht (custom "UNIX") []
    have hspells : Layout.Spells "UNIX".toList ("UNIX".toList.map .literal) :=
      Layout.items?_eq_some_iff.1 (by decide)
    have hitems : tree = .string "UNIX".toList := hannounces.items _ _ rfl hspells
    exact ⟨text, happend, hitems ▸ hread _ closes_nil⟩

end Format
end LineLog.Time
