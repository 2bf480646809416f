import LineLog.Proofs.Text.Bare
import LineLog.Proofs.Time.Calendar
import LineLog.Time.Append
/-!
# LineLog.Proofs.Time.Layout

The grammar of layouts, and what is shown under them.

`Layout.Spells` says which texts are layouts, and which items they stand for. A text is a layout, or it
refuses at one place (`Layout.Refuses`): there a percent sign stands behind a part that can be read, and
no specifier follows it. The reader of layouts decides between the two (`items?_eq_some_iff`,
`items?_eq_none_iff`).

Design points:

* A specifier is read in front of anything (`Specifier.read`): none is the beginning of another. So what
  holds of a part that can be read is proved by one induction on the grammar, with any rest behind it.
* An instant is shown under a layout from its front. In front of any rest, a part that can be read shows
  its items and then what the rest shows (`shownFrom_append`), so the failure of a layout that refuses is
  found where it refuses, and not before.
* Of all items, only literals bring characters of their own. Dates, clocks and offsets are bare
  (`bare_render`), hence the percent signs that are shown are those that the layout spells twice
  (`count_renderItems`, `Spells.two_mul_count_le`).
-/

namespace LineLog.Time

open Decimal Text

/-! ### Specifiers -/

namespace Layout

/-- A specifier without its percent sign, and the items that it stands for. -/
inductive Specifier : List Char → List Item → Prop
  | letter {c : Char} {items : List Item} (h : letter? c = some items) : Specifier [c] items
  | padded {c d : Char} {pad usual : Pad} {n : Number} (hpad : modifier? c = some pad)
      (hletter : letter? d = some [.number n usual]) : Specifier [c, d] [.number n pad]
  | fraction : Specifier ['.', 'f'] [.fraction]
  | places {c : Char} {n : Nat} (h : places? c = some n) : Specifier [c, 'f'] [.fixedFraction n false]
  | pointPlaces {c : Char} {n : Nat} (h : places? c = some n) :
      Specifier ['.', c, 'f'] [.fixedFraction n true]
  | colonMinutes : Specifier [':', 'z'] [.offset .colonMinutes]
  | colonSeconds : Specifier [':', ':', 'z'] [.offset .colonSeconds]
  | hours : Specifier [':', ':', ':', 'z'] [.offset .hours]

/-- A layout and the items that it stands for. -/
inductive Spells : List Char → List Item → Prop
  | nil : Spells [] []
  | literal {c : Char} {cs : List Char} {items : List Item} (hc : c ≠ '%') (h : Spells cs items) :
      Spells (c :: cs) (.literal c :: items)
  | specifier {spec cs : List Char} {new items : List Item} (hspec : Specifier spec new)
      (h : Spells cs items) : Spells ('%' :: (spec ++ cs)) (new ++ items)

/-- Behind a part that can be read stands a percent sign that no specifier follows. -/
def Refuses (layout : List Char) : Prop :=
  ∃ before items rest, layout = before ++ '%' :: rest ∧ Spells before items ∧
    ∀ spec new, Specifier spec new → ¬ spec <+: rest

/-! ### The reader -/

theorem modifier?_of_letter {c : Char} {items : List Item} (h : letter? c = some items) :
    modifier? c = none := by
  unfold modifier?
  split
  · cases h
  · cases h
  · cases h
  · rfl

theorem places?_of_letter {c : Char} {items : List Item} (h : letter? c = some items) :
    places? c = none := by
  unfold places?
  split
  · cases h
  · cases h
  · cases h
  · rfl

theorem modifier?_of_places {c : Char} {n : Nat} (h : places? c = some n) : modifier? c = none := by
  unfold modifier?
  split
  · cases h
  · cases h
  · cases h
  · rfl

/-- A specifier is read in front of anything. -/
theorem Specifier.read {spec : List Char} {items : List Item} (h : Specifier spec items)
    (rest : List Char) : specifier? (spec ++ rest) = some (items, spec.length) := by
  cases h with
  | @letter c _ h =>
      have hcolon : c ≠ ':' := by rintro rfl; cases h
      have hpoint : c ≠ '.' := by rintro rfl; cases h
      simp [specifier?, hcolon, hpoint, modifier?_of_letter h, places?_of_letter h, h]
  | @padded c d _ _ _ hpad hletter =>
      have hcolon : c ≠ ':' := by rintro rfl; cases hpad
      have hpoint : c ≠ '.' := by rintro rfl; cases hpad
      simp [specifier?, hcolon, hpoint, hpad, hletter]
  | fraction => rfl
  | @places c _ h =>
      have hcolon : c ≠ ':' := by rintro rfl; cases h
      have hpoint : c ≠ '.' := by rintro rfl; cases h
      simp [specifier?, hcolon, hpoint, modifier?_of_places h, h]
  | @pointPlaces c _ h =>
      have hf : c ≠ 'f' := by rintro rfl; cases h
      simp [specifier?, *]
  | colonMinutes => rfl
  | colonSeconds => rfl
  | hours => rfl

/-- What is read is a specifier. -/
theorem exists_specifier {cs : List Char} {items : List Item} {n : Nat}
    (h : specifier? cs = some (items, n)) :
    ∃ spec rest, cs = spec ++ rest ∧ n = spec.length ∧ Specifier spec items := by
  unfold specifier? at h
  split at h
  · obtain ⟨rfl, rfl⟩ := Prod.mk.inj (Option.some.inj h)
    exact ⟨_, _, rfl, rfl, .hours⟩
  · obtain ⟨rfl, rfl⟩ := Prod.mk.inj (Option.some.inj h)
    exact ⟨_, _, rfl, rfl, .colonSeconds⟩
  · obtain ⟨rfl, rfl⟩ := Prod.mk.inj (Option.some.inj h)
    exact ⟨_, _, rfl, rfl, .colonMinutes⟩
  · obtain ⟨rfl, rfl⟩ := Prod.mk.inj (Option.some.inj h)
    exact ⟨_, _, rfl, rfl, .fraction⟩
  · obtain ⟨places, hplaces, heq⟩ := Option.map_eq_some_iff.1 h
    obtain ⟨rfl, rfl⟩ := Prod.mk.inj heq
    exact ⟨_, _, rfl, rfl, .pointPlaces hplaces⟩
  · split at h
    · split at h
      · rename_i hletter
        obtain ⟨rfl, rfl⟩ := Prod.mk.inj (Option.some.inj h)
        exact ⟨[_, _], _, rfl, rfl, .padded ‹modifier? _ = some _› hletter⟩
      · cases h
    · obtain ⟨rfl, rfl⟩ := Prod.mk.inj (Option.some.inj h)
      exact ⟨[_, _], _, rfl, rfl, .places ‹places? _ = some _›⟩
    · obtain ⟨letters, hletter, heq⟩ := Option.map_eq_some_iff.1 h
      obtain ⟨rfl, rfl⟩ := Prod.mk.inj heq
      exact ⟨[_], _, rfl, rfl, .letter hletter⟩
    · cases h
  · cases h

/-- Nothing is read exactly if no specifier is at the front. -/
theorem specifier?_eq_none_iff {cs : List Char} :
    specifier? cs = none ↔ ∀ spec items, Specifier spec items → ¬ spec <+: cs := by
  constructor
  · rintro hnone spec items hspec ⟨rest, rfl⟩
    rw [hspec.read] at hnone
    cases hnone
  · intro hno
    cases hread : specifier? cs with
    | none => rfl
    | some found =>
        obtain ⟨spec, rest, rfl, -, hspec⟩ := exists_specifier hread
        exact absurd (List.prefix_append spec rest) (hno _ _ hspec)

/-- Characters that have been read already are passed over. -/
theorem itemsFrom?_skip (done rest : List Char) :
    itemsFrom? done.length (done ++ rest) = itemsFrom? 0 rest := by
  induction done with
  | nil => rfl
  | cons c done ih => exact ih

/-- A part that can be read gives its items, and reading goes on behind it. -/
theorem Spells.items?_append {before : List Char} {items : List Item} (h : Spells before items)
    (rest : List Char) : items? (before ++ rest) = (items? rest).map (items ++ ·) := by
  unfold items?
  induction h with
  | nil => simp
  | @literal c cs items hc _ ih =>
      rw [List.cons_append, itemsFrom?, if_neg hc, ih]
      cases itemsFrom? 0 rest <;> rfl
  | @specifier spec cs new items hspec _ ih =>
      rw [List.cons_append, List.append_assoc, itemsFrom?, if_pos rfl, hspec.read]
      dsimp only
      rw [itemsFrom?_skip, ih]
      cases itemsFrom? 0 rest <;> simp

/-- Every text is a layout, or refuses. -/
theorem spells_or_refuses (cs : List Char) : (∃ items, Spells cs items) ∨ Refuses cs := by
  -- Specifiers of several characters take the induction beyond the next character.
  induction hlength : cs.length using Nat.strongRecOn generalizing cs with
  | _ n ih =>
    cases cs with
    | nil => exact .inl ⟨[], .nil⟩
    | cons c cs =>
        simp only [List.length_cons] at hlength
        by_cases hc : c = '%'
        · subst hc
          cases hread : specifier? cs with
          | none => exact .inr ⟨[], [], cs, rfl, .nil, specifier?_eq_none_iff.1 hread⟩
          | some found =>
              obtain ⟨spec, rest, rfl, -, hspec⟩ := exists_specifier hread
              rw [List.length_append] at hlength
              rcases ih rest.length (by omega) rest rfl with ⟨items, hitems⟩ | hrefuses
              · exact .inl ⟨_, .specifier hspec hitems⟩
              · obtain ⟨before, items, bad, rfl, hbefore, hno⟩ := hrefuses
                exact .inr ⟨_, _, bad, by simp, .specifier hspec hbefore, hno⟩
        · rcases ih cs.length (by omega) cs rfl with ⟨items, hitems⟩ | hrefuses
          · exact .inl ⟨_, .literal hc hitems⟩
          · obtain ⟨before, items, bad, rfl, hbefore, hno⟩ := hrefuses
            exact .inr ⟨_, _, bad, rfl, .literal hc hbefore, hno⟩

theorem Spells.items? {cs : List Char} {items : List Item} (h : Spells cs items) :
    Layout.items? cs = some items := by
  have hread := h.items?_append []
  rw [List.append_nil] at hread
  simpa [Layout.items?, itemsFrom?] using hread

theorem Refuses.items? {cs : List Char} (h : Refuses cs) : Layout.items? cs = none := by
  obtain ⟨before, items, rest, rfl, hbefore, hno⟩ := h
  rw [hbefore.items?_append]
  simp [Layout.items?, itemsFrom?, specifier?_eq_none_iff.2 hno]

/-- **The reader knows the layouts and their items.** -/
theorem items?_eq_some_iff {cs : List Char} {items : List Item} :
    items? cs = some items ↔ Spells cs items := by
  refine ⟨fun hread => ?_, Spells.items?⟩
  rcases spells_or_refuses cs with ⟨found, hfound⟩ | hrefuses
  · rw [hfound.items?] at hread
    exact Option.some.inj hread ▸ hfound
  · rw [hrefuses.items?] at hread
    cases hread

/-- **It refuses the texts that hold an unknown specifier**, and no others. -/
theorem items?_eq_none_iff {cs : List Char} : items? cs = none ↔ Refuses cs := by
  refine ⟨fun hread => ?_, Refuses.items?⟩
  rcases spells_or_refuses cs with ⟨found, hfound⟩ | hrefuses
  · rw [hfound.items?] at hread
    cases hread
  · exact hrefuses

end Layout

/-! ### Dates, clocks and offsets are bare -/

theorem bare_twoPlaces (pad : Pad) {n : Nat} (h : n < 260) : Bare (twoPlaces pad n) := by
  have hplace : ∀ k < 26, BareChar (Char.ofNat ('0'.toNat + k)) := by decide
  have hunits := hplace (n % 10) (by omega)
  have htens := hplace (n / 10) (by omega)
  have hspace : BareChar ' ' := by decide
  unfold twoPlaces
  split <;> simp_all

theorem bare_padded (width : Nat) (pad : Pad) (signed : Bool) (n : Int) :
    Bare (padded width pad signed n) := by
  have hsign : Bare (if n < 0 then ['-'] else if signed then ['+'] else []) :=
    bare_ite (by decide) (bare_ite (by decide) bare_nil)
  cases pad with
  | none => exact bare_append.2 ⟨hsign, bare_natural _⟩
  | zero => exact bare_append.2 ⟨hsign, bare_padLeft (by decide) (bare_natural _)⟩
  | space => exact bare_padLeft (by decide) (bare_append.2 ⟨hsign, bare_natural _⟩)

/-- A number is bare, if the second that a clock shows is at most one of a leap second. -/
theorem Number.bare_render {t : Instant} (h : t.nanos < 2 * nanosPerSecond) (pad : Pad) (n : Number) :
    Bare (n.render t pad) := by
  have hmonth := (Date.real_ofDays t.days).month_le
  have hday := (Date.real_ofDays t.days).day_le.trans (monthLength_le _ _)
  have hclock : t.secondOfDay < 86400 := by
    unfold Instant.secondOfDay
    omega
  cases n with
  | year | isoYear | ordinal | nanosecond | unixSeconds => exact bare_padded _ _ _ _
  | quarter | weekdayFromSunday | weekdayFromMonday => exact bare_natural _
  | century | yearOfCentury | isoYearOfCentury => exact bare_twoPlaces pad (by omega)
  | month => exact bare_twoPlaces pad (Nat.lt_of_le_of_lt hmonth (by decide))
  | day => exact bare_twoPlaces pad (Nat.lt_of_le_of_lt hday (by decide))
  | weekFromSunday =>
      have := ordinal_le t.days
      refine bare_twoPlaces pad ?_
      unfold Time.weekFromSunday
      omega
  | weekFromMonday =>
      have := ordinal_le t.days
      refine bare_twoPlaces pad ?_
      unfold Time.weekFromMonday
      omega
  | isoWeek =>
      have := ordinal_le (isoThursday t.days)
      refine bare_twoPlaces pad ?_
      unfold Time.isoWeek
      omega
  | hour =>
      refine bare_twoPlaces pad ?_
      unfold Instant.hour
      omega
  | hour12 =>
      refine bare_twoPlaces pad ?_
      unfold Instant.hour12
      split <;> omega
  | minute =>
      refine bare_twoPlaces pad ?_
      unfold Instant.minute
      omega
  | second =>
      refine bare_twoPlaces pad ?_
      unfold Instant.second nanosPerSecond at *
      omega

theorem OffsetForm.bare_render (offset : Int) (form : OffsetForm) : Bare (form.render offset) := by
  have hsign : BareChar (offsetSign offset) := by
    unfold offsetSign
    split <;> decide
  have hcolon : BareChar ':' := by decide
  refine bare_cons.2 ⟨hsign, ?_⟩
  cases form with
  | minutes | colonMinutes | colonSeconds | hours => simp [twoDigits, hcolon]
  | exact =>
      dsimp only
      split <;> simp [twoDigits, hcolon]

theorem bare_monthName (month : Nat) : Bare (monthName month) := by
  have hnames : ∀ name ∈ monthNames, Bare name.toList := by decide
  unfold monthName
  cases hname : monthNames[month - 1]? with
  | none => exact bare_nil
  | some name => exact hnames name (List.mem_of_getElem? hname)

theorem bare_weekdayName (day : Nat) : Bare (weekdayName day) := by
  have hnames : ∀ name ∈ weekdayNames, Bare name.toList := by decide
  unfold weekdayName
  cases hname : weekdayNames[day]? with
  | none => exact bare_nil
  | some name => exact hnames name (List.mem_of_getElem? hname)

theorem Item.bare_leadingPlaces (places nanos : Nat) : Bare (leadingPlaces places nanos) :=
  (bare_zeroPadded 9 nanos).subset (List.take_subset _ _)

/-- **Only literals bring characters of their own.** -/
theorem Item.bare_render {t : Instant} (h : t.nanos < 2 * nanosPerSecond) {item : Item}
    (hitem : ∀ c, item ≠ .literal c) : Bare (item.render t) := by
  have pointed : ∀ places, Bare ('.' :: leadingPlaces places t.subsecond) :=
    fun places => bare_cons.2 ⟨by decide, bare_leadingPlaces _ _⟩
  cases item with
  | literal c => exact absurd rfl (hitem c)
  | number n pad => exact n.bare_render h pad
  | shortMonth => exact (bare_monthName _).subset (List.take_subset _ _)
  | longMonth => exact bare_monthName _
  | shortWeekday => exact (bare_weekdayName _).subset (List.take_subset _ _)
  | longWeekday => exact bare_weekdayName _
  | lowerMeridiem | upperMeridiem => exact bare_ite (by decide) (by decide)
  | fraction =>
      exact bare_ite bare_nil (bare_ite (pointed 3) (bare_ite (pointed 6) (pointed 9)))
  | fixedFraction places point => exact bare_ite (pointed places) (bare_leadingPlaces _ _)
  | offset form => exact form.bare_render _

/-! ### What is shown under a layout -/

@[simp] theorem renderItems_nil (t : Instant) : renderItems t [] = [] := rfl

@[simp] theorem renderItems_cons (t : Instant) (item : Item) (items : List Item) :
    renderItems t (item :: items) = item.render t ++ renderItems t items := by
  simp [renderItems]

@[simp] theorem renderItems_append (t : Instant) (a b : List Item) :
    renderItems t (a ++ b) = renderItems t a ++ renderItems t b := by
  simp [renderItems]

/-- What is shown behind the items of a specifier comes behind their texts, and fails as it did. -/
theorem shown_behind_items (t : Instant) (items : List Item) (shown : Shown) :
    (items.foldr (fun item shown => shown.behind (String.ofList (item.render t))) shown).text =
        renderItems t items ++ shown.text ∧
      (items.foldr (fun item shown => shown.behind (String.ofList (item.render t))) shown).fails =
        shown.fails := by
  induction items with
  | nil => exact ⟨rfl, rfl⟩
  | cons item items ih =>
      obtain ⟨htext, hfails⟩ := ih
      constructor
      · rw [List.foldr_cons, Shown.text_behind, htext]
        simp
      · rw [List.foldr_cons, Shown.fails_behind, hfails]

/-- Characters that have been worked off are passed over. -/
theorem Instant.shownFrom_skip (t : Instant) (done rest : List Char) :
    t.shownFrom done.length (done ++ rest) = t.shownFrom 0 rest := by
  induction done with
  | nil => rfl
  | cons c done ih => exact ih

namespace Layout

/-- A part that can be read shows its items, and then what is behind it is shown. -/
theorem Spells.shownUnder_append {before : List Char} {items : List Item} (h : Spells before items)
    (t : Instant) (rest : List Char) :
    (t.shownUnder (before ++ rest)).text = renderItems t items ++ (t.shownUnder rest).text ∧
      (t.shownUnder (before ++ rest)).fails = (t.shownUnder rest).fails := by
  unfold Instant.shownUnder
  induction h with
  | nil => exact ⟨rfl, rfl⟩
  | @literal c cs items hc _ ih =>
      rw [List.cons_append, Instant.shownFrom, if_neg hc, Shown.text_behind, Shown.fails_behind, ih.1,
        ih.2]
      simp [Item.render]
  | @specifier spec cs new items hspec _ ih =>
      rw [List.cons_append, List.append_assoc, Instant.shownFrom, if_pos rfl, hspec.read]
      dsimp only
      rw [Instant.shownFrom_skip]
      obtain ⟨htext, hfails⟩ := shown_behind_items t new (t.shownFrom 0 (cs ++ rest))
      rw [htext, hfails, ih.1, ih.2]
      simp

/-- Under a layout, all its items are shown. -/
theorem Spells.shownUnder {cs : List Char} {items : List Item} (h : Spells cs items) (t : Instant) :
    (t.shownUnder cs).text = renderItems t items ∧ (t.shownUnder cs).fails = false := by
  have hshown := h.shownUnder_append t []
  rw [List.append_nil] at hshown
  simpa [Instant.shownUnder, Instant.shownFrom, Shown.text] using hshown

/-- A text that refuses fails, wherever it does. -/
theorem Refuses.fails_shownUnder {cs : List Char} (h : Refuses cs) (t : Instant) :
    (t.shownUnder cs).fails = true := by
  obtain ⟨before, items, rest, rfl, hbefore, hno⟩ := h
  rw [(hbefore.shownUnder_append t _).2]
  simp [Instant.shownUnder, Instant.shownFrom, specifier?_eq_none_iff.2 hno]

end Layout

/-- Items are bare if their literals are. -/
theorem bare_renderItems {t : Instant} (h : t.nanos < 2 * nanosPerSecond) {items : List Item}
    (hitems : ∀ c, .literal c ∈ items → BareChar c) : Bare (renderItems t items) := by
  induction items with
  | nil => exact bare_nil
  | cons item items ih =>
      rw [renderItems_cons]
      refine bare_append.2 ⟨?_, ih fun c hc => hitems c (List.mem_cons_of_mem _ hc)⟩
      by_cases hliteral : ∃ c, item = .literal c
      · obtain ⟨c, rfl⟩ := hliteral
        exact bare_cons.2 ⟨hitems c List.mem_cons_self, bare_nil⟩
      · exact Item.bare_render h fun c hc => hliteral ⟨c, hc⟩

/-! ### Percent signs -/

/-- The percent signs that are shown are the items that stand for one. -/
theorem count_renderItems {t : Instant} (h : t.nanos < 2 * nanosPerSecond) (items : List Item) :
    (renderItems t items).count '%' = items.count (.literal '%') := by
  induction items with
  | nil => rfl
  | cons item items ih =>
      rw [renderItems_cons, List.count_append, ih, List.count_cons, Nat.add_comm]
      congr 1
      by_cases hliteral : ∃ c, item = .literal c
      · obtain ⟨c, rfl⟩ := hliteral
        simp [Item.render, List.count_singleton]
      · have hbare : Bare (item.render t) := Item.bare_render h fun c hc => hliteral ⟨c, hc⟩
        have hnone : '%' ∉ item.render t := fun hmem => (hbare _ hmem).2.2.2 rfl
        have hother : ¬ (item == .literal '%') = true := by
          intro heq
          exact hliteral ⟨_, eq_of_beq heq⟩
        rw [List.count_eq_zero.2 hnone, if_neg hother]

namespace Layout

/-- A specifier for a percent sign is one itself. -/
theorem Specifier.count_le {spec : List Char} {items : List Item} (h : Specifier spec items) :
    2 * items.count (.literal '%') ≤ spec.count '%' + 1 := by
  cases h with
  | letter h =>
      unfold letter? at h
      split at h
      all_goals first | cases h; decide | cases h
  | padded => simp
  | _ => simp

/-- A layout has two percent signs for each that it shows. -/
theorem Spells.two_mul_count_le {cs : List Char} {items : List Item} (h : Spells cs items) :
    2 * items.count (.literal '%') ≤ cs.count '%' := by
  induction h with
  | nil => exact Nat.le_refl 0
  | @literal c cs items hc _ ih => simpa [hc] using ih
  | @specifier spec cs new items hspec _ ih =>
      have := hspec.count_le
      simp only [List.count_append, List.count_cons_self]
      omega

/-- A layout without a percent sign is shown as it stands. -/
theorem Spells.render_of_plain {cs : List Char} {items : List Item} (h : Spells cs items)
    (hcs : '%' ∉ cs) (t : Instant) : renderItems t items = cs := by
  induction h with
  | nil => rfl
  | literal hc _ ih =>
      rw [renderItems_cons, ih fun hmem => hcs (List.mem_cons_of_mem _ hmem)]
      rfl
  | specifier => exact absurd List.mem_cons_self hcs

/-- No layout shows itself behind other text without a percent sign. It would have to show all the
percent signs that it has, and it shows half of them at most. -/
theorem Spells.render_ne_append {cs : List Char} {items : List Item} (h : Spells cs items) {t : Instant}
    (ht : t.nanos < 2 * nanosPerSecond) {a : List Char} (ha : '%' ∉ a) (hne : a ≠ []) :
    renderItems t items ≠ a ++ cs := by
  intro heq
  have hcount : (renderItems t items).count '%' = a.count '%' + cs.count '%' := by
    rw [heq, List.count_append]
  rw [count_renderItems ht, List.count_eq_zero.2 ha] at hcount
  have hle := h.two_mul_count_le
  have hnone : '%' ∉ cs := List.count_eq_zero.1 (by omega)
  have hself : a ++ cs = cs := by rw [← heq, h.render_of_plain hnone]
  exact hne (List.append_left_eq_self.1 hself)

/-- **No layout shows the message about itself.** -/
theorem Spells.render_ne_invalidLayout {cs : List Char} {items : List Item} (h : Spells cs items)
    {t : Instant} (ht : t.nanos < 2 * nanosPerSecond) :
    renderItems t items ≠ Instant.invalidLayout cs :=
  h.render_ne_append ht (by decide) (by decide)

end Layout
end LineLog.Time
