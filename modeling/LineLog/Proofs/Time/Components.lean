import LineLog.Proofs.Json.Numeral
import LineLog.Time.Instant
/-!
# LineLog.Proofs.Time.Components

Numbers with units of time, one after the other: how they are read, and what they add up to.

`Duration.read?` reads a sign and such components, of which the last may have a fraction (`Reading`). It
knows nothing of how many nanoseconds call for which units, so it also reads texts that are never
written.

Design points:

* The letter of minutes is also the first one of milliseconds. Behind minutes there is always a digit,
  so the reader may take the longer unit where it can (`Scale.read?_append`).
* The digits of a component are kept as they stand. In components that are `Orderly` no digit could be
  left out, so they are told by their count and their fraction (`Tidy.eq`).
* Whatever is read stands in the text as it is written (`eq_of_read?`), so a text is no more than what it
  is read as.
* If each component is below a unit of the one before it (`Nested`), the first count is the number of
  its units in the sum. So the units and the sum leave no choice (`eq_of_worth`).
-/

namespace LineLog.Time.Duration

open Decimal Json

/-! ### Reading -/

/-- A unit of time. -/
inductive Scale
  | hours
  | minutes
  | seconds
  | millis
  | micros
  | nanos
  deriving DecidableEq

namespace Scale

/-- The nanoseconds in a unit. -/
def nanoseconds : Scale → Nat
  | hours => 3600 * nanosPerSecond
  | minutes => 60 * nanosPerSecond
  | seconds => nanosPerSecond
  | millis => 1000000
  | micros => 1000
  | nanos => 1

/-- How a unit is written. -/
def symbol : Scale → List Char
  | hours => ['h']
  | minutes => ['m']
  | seconds => ['s']
  | millis => ['m', 's']
  | micros => ['µ', 's']
  | nanos => ['n', 's']

/-- Reads a unit. -/
def read? : List Char → Option (Scale × List Char)
  | 'h' :: cs => some (hours, cs)
  | 'm' :: 's' :: cs => some (millis, cs)
  | 'm' :: cs => some (minutes, cs)
  | 's' :: cs => some (seconds, cs)
  | 'µ' :: 's' :: cs => some (micros, cs)
  | 'n' :: 's' :: cs => some (nanos, cs)
  | _ => none

end Scale

/-- A number with a unit. The digits before and after the point are kept as they stand. -/
structure Component where
  whole : List Char
  places : List Char := []
  scale : Scale
  deriving DecidableEq

namespace Component

/-- How a component is written. -/
def text (c : Component) : List Char :=
  c.whole ++ (if c.places = [] then [] else '.' :: c.places) ++ c.scale.symbol

/-- The number before the point. -/
def count (c : Component) : Nat :=
  Nat.ofDigitChars 10 c.whole 0

/-- What a component is worth. -/
def nanoseconds (c : Component) : ℚ :=
  (c.count + placeValue c.places) * c.scale.nanoseconds

/-- Reads a component. There is a digit before the point, and one behind it if there is a point. -/
def read? (cs : List Char) : Option (Component × List Char) := do
  let (whole, cs) ← (someDigits cs).toOption
  let (places, cs) ← (fractionPart cs).toOption
  let (scale, cs) ← Scale.read? cs
  return (⟨whole, places, scale⟩, cs)

end Component

/-- Reads components up to the end. Only the last one may have a fraction. `fuel` bounds their number. -/
def componentsWith : Nat → List Char → Option (List Component)
  | 0, _ => none
  | fuel + 1, cs => do
    let (c, rest) ← Component.read? cs
    if rest = [] then some [c]
    else if c.places = [] then (componentsWith fuel rest).map (c :: ·)
    else none

/-- What a text of a duration holds. -/
structure Reading where
  negative : Bool
  components : List Component
  deriving DecidableEq

/-- Reads a duration. -/
def read? : List Char → Option Reading
  | '-' :: cs => (componentsWith cs.length cs).map (⟨true, ·⟩)
  | cs => (componentsWith cs.length cs).map (⟨false, ·⟩)

/-- What components add up to, in nanoseconds. -/
def worth (cs : List Component) : ℚ :=
  (cs.map Component.nanoseconds).sum

@[simp] theorem worth_nil : worth [] = 0 := rfl

@[simp] theorem worth_cons (c : Component) (cs : List Component) :
    worth (c :: cs) = c.nanoseconds + worth cs := by
  rw [worth, List.map_cons, List.sum_cons, worth]

@[simp] theorem worth_append (cs ds : List Component) : worth (cs ++ ds) = worth cs + worth ds := by
  rw [worth, List.map_append, List.sum_append, worth, worth]

/-- How a duration is written that was read. -/
def Reading.text (r : Reading) : List Char :=
  (if r.negative then ['-'] else []) ++ r.components.flatMap Component.text

/-- The nanoseconds of a duration that was read. -/
def Reading.nanoseconds (r : Reading) : ℚ :=
  (if r.negative then -1 else 1) * worth r.components

/-! ### Components are read back -/

/-- The text is at its end or goes on with another number. -/
def Resumes (rest : List Char) : Prop :=
  ∀ c ∈ rest.head?, c.isDigit

theorem Scale.read?_append (s : Scale) {rest : List Char} (h : Resumes rest) :
    read? (s.symbol ++ rest) = some (s, rest) := by
  cases s with
  | minutes =>
      -- The unit would be a longer one if an `s` came next.
      cases rest with
      | nil => rfl
      | cons c cs =>
          have hne : c ≠ 's' := ne_of_isDigit (h c rfl) (by decide)
          simp [symbol, read?, hne]
  | hours | seconds | millis | micros | nanos => rfl

namespace Component

/-- The digits of a component stand as they should: no zero in front of others, and none at the end of a
fraction. -/
structure Tidy (c : Component) : Prop where
  whole_digits : Digits c.whole
  whole_ne_nil : c.whole ≠ []
  no_leading_zero : c.whole.head? = some '0' → c.whole = ['0']
  places_digits : Digits c.places
  no_trailing_zero : c.places.getLast? ≠ some '0'

theorem read?_append {c : Component} (hc : c.Tidy) {rest : List Char} (h : Resumes rest) :
    read? (c.text ++ rest) = some (c, rest) := by
  have hsymbol : NoDigit (c.scale.symbol ++ rest) ∧ ∀ d ∈ (c.scale.symbol ++ rest).head?, d ≠ '.' := by
    cases c.scale <;> simp [Scale.symbol, NoDigit]
  have hpoint : NoDigit ((if c.places = [] then [] else '.' :: c.places) ++ (c.scale.symbol ++ rest)) := by
    split
    · exact hsymbol.1
    · simp [NoDigit]
  rw [text, List.append_assoc, List.append_assoc, read?,
    someDigits_append hc.whole_digits hc.whole_ne_nil hpoint]
  simp [Except.toOption, fractionPart_append hc.places_digits hsymbol.1 hsymbol.2,
    Scale.read?_append c.scale h]

theorem text_cons {c : Component} (hc : c.Tidy) : ∃ d cs, c.text = d :: cs ∧ d.isDigit := by
  obtain ⟨d, ds, hd⟩ := List.exists_cons_of_ne_nil hc.whole_ne_nil
  refine ⟨d, _, by rw [text, hd]; rfl, hc.whole_digits d (by simp [hd])⟩

end Component

/-- The components stand as they should, and only the last one may have a fraction. -/
def Orderly : List Component → Prop
  | [] => False
  | [c] => c.Tidy
  | c :: cs => c.Tidy ∧ c.places = [] ∧ Orderly cs

theorem Orderly.first {c : Component} {cs : List Component} (h : Orderly (c :: cs)) : c.Tidy := by
  cases cs with
  | nil => exact h
  | cons d cs => exact h.1

/-- The text of components starts with a digit. -/
theorem Orderly.text_cons {cs : List Component} (h : Orderly cs) :
    ∃ d rest, cs.flatMap Component.text = d :: rest ∧ d.isDigit := by
  cases cs with
  | nil => exact h.elim
  | cons c cs =>
      obtain ⟨d, ds, htext, hd⟩ := c.text_cons h.first
      exact ⟨d, _, by rw [List.flatMap_cons, htext]; rfl, hd⟩

/-- Whole components may stand before others. -/
theorem Orderly.append {cs ds : List Component} (h : ∀ c ∈ cs, c.Tidy ∧ c.places = [])
    (hds : Orderly ds) : Orderly (cs ++ ds) := by
  induction cs with
  | nil => exact hds
  | cons c cs ih =>
      have hrest := ih fun d hd => h d (List.mem_cons_of_mem c hd)
      obtain ⟨hc, hplaces⟩ := h c List.mem_cons_self
      rw [List.cons_append]
      cases heq : cs ++ ds with
      | nil => exact hc
      | cons d rest =>
          rw [heq] at hrest
          exact ⟨hc, hplaces, hrest⟩

/-- **Components are read back one after the other.** -/
theorem componentsWith_flatMap : ∀ {cs : List Component}, Orderly cs → ∀ {fuel : Nat}, cs.length ≤ fuel →
    componentsWith fuel (cs.flatMap Component.text) = some cs
  | [c], h, fuel + 1, _ => by
      have hread : Component.read? (c.text ++ []) = some (c, []) :=
        Component.read?_append h (by simp [Resumes])
      rw [List.flatMap_singleton, componentsWith, ← List.append_nil c.text, hread]
      rfl
  | c :: d :: cs, ⟨hc, hplaces, hrest⟩, fuel + 1, hfuel => by
      obtain ⟨e, rest, htext, he⟩ := hrest.text_cons
      have hresumes : Resumes ((d :: cs).flatMap Component.text) := by
        rw [htext]
        simpa [Resumes] using he
      have hne : (d :: cs).flatMap Component.text ≠ [] := by
        rw [htext]
        exact List.cons_ne_nil _ _
      have ih := componentsWith_flatMap hrest (Nat.le_of_succ_le_succ hfuel)
      rw [List.flatMap_cons, componentsWith, Component.read?_append hc hresumes]
      simp only [Option.bind_eq_bind, Option.bind_some, if_neg hne, if_pos hplaces, ih, Option.map_some]

/-- There are no more components than characters. -/
theorem Orderly.length_le : ∀ {cs : List Component}, Orderly cs →
    cs.length ≤ (cs.flatMap Component.text).length
  | [c], h => by
      obtain ⟨d, rest, htext, -⟩ := c.text_cons h
      simp [htext]
  | c :: d :: cs, ⟨hc, _, hrest⟩ => by
      obtain ⟨e, rest, htext, -⟩ := c.text_cons hc
      have ih := length_le hrest
      rw [List.flatMap_cons, List.length_append, htext]
      simp only [List.length_cons] at ih ⊢
      omega

/-- **A duration is read back**, with its sign. -/
theorem read?_reading {r : Reading} (h : Orderly r.components) : read? r.text = some r := by
  obtain ⟨negative, cs⟩ := r
  have hread : componentsWith (cs.flatMap Component.text).length (cs.flatMap Component.text) = some cs :=
    componentsWith_flatMap h h.length_le
  cases negative with
  | true =>
      show (componentsWith (cs.flatMap Component.text).length (cs.flatMap Component.text)).map _ = _
      rw [hread, Option.map_some]
  | false =>
      -- Without a sign, the reader must see a digit before it knows that there is none.
      obtain ⟨d, rest, htext, hd⟩ := h.text_cons
      have hne : d ≠ '-' := ne_of_isDigit hd (by decide)
      have hunsigned : (Reading.mk false cs).text = d :: rest := htext
      rw [htext] at hread
      rw [hunsigned]
      unfold read?
      split
      · rename_i heq
        exact absurd (List.cons.inj heq).1 hne
      · rw [hread, Option.map_some]

/-! ### Nothing else is read -/

theorem eq_ok_of_toOption {ε α : Type} {x : Except ε α} {a : α} (h : x.toOption = some a) : x = .ok a := by
  cases x with
  | error e => exact nomatch h
  | ok b => exact congrArg Except.ok (Option.some.inj h)

/-- The unit that is read stands in the text. -/
theorem Scale.eq_of_read? {cs rest : List Char} {s : Scale} (h : read? cs = some (s, rest)) :
    cs = s.symbol ++ rest := by
  unfold read? at h
  split at h
  case h_7 => exact nomatch h
  all_goals
    obtain ⟨rfl, rfl⟩ := Prod.mk.inj (Option.some.inj h)
    rfl

/-- The component that is read stands in the text. -/
theorem Component.eq_of_read? {cs rest : List Char} {c : Component} (h : read? cs = some (c, rest)) :
    cs = c.text ++ rest := by
  rw [read?] at h
  simp only [Option.bind_eq_bind, Option.bind_eq_some_iff] at h
  obtain ⟨⟨whole, behindWhole⟩, hwhole, ⟨places, behindPlaces⟩, hplaces, ⟨scale, behind⟩, hscale, hc⟩ := h
  obtain ⟨rfl, rfl⟩ := Prod.mk.inj (Option.some.inj hc)
  dsimp only at hplaces hscale ⊢
  rw [(someDigits_eq_ok (eq_ok_of_toOption hwhole)).2, fractionPart_eq_ok (eq_ok_of_toOption hplaces),
    Scale.eq_of_read? hscale, text, List.append_assoc, List.append_assoc]

theorem eq_of_componentsWith {fuel : Nat} {cs : List Char} {components : List Component}
    (h : componentsWith fuel cs = some components) : cs = components.flatMap Component.text := by
  induction fuel generalizing cs components with
  | zero => exact nomatch h
  | succ fuel ih =>
      rw [componentsWith] at h
      simp only [Option.bind_eq_bind, Option.bind_eq_some_iff] at h
      obtain ⟨⟨c, rest⟩, hc, h⟩ := h
      rw [Component.eq_of_read? hc]
      dsimp only at h
      split at h
      · rename_i hnil
        obtain rfl := Option.some.inj h
        rw [hnil, List.append_nil, List.flatMap_singleton]
      · split at h
        · obtain ⟨others, hothers, rfl⟩ := Option.map_eq_some_iff.1 h
          rw [ih hothers, List.flatMap_cons]
        · exact nomatch h

/-- **A text is read only as what it was written for.** -/
theorem eq_of_read? {cs : List Char} {r : Reading} (h : read? cs = some r) : cs = r.text := by
  unfold read? at h
  split at h
  · obtain ⟨components, hcomponents, rfl⟩ := Option.map_eq_some_iff.1 h
    rw [eq_of_componentsWith hcomponents]
    rfl
  · obtain ⟨components, hcomponents, rfl⟩ := Option.map_eq_some_iff.1 h
    exact eq_of_componentsWith hcomponents

/-! ### What components add up to -/

theorem Scale.nanoseconds_pos (s : Scale) : (0 : ℚ) < s.nanoseconds := by
  cases s <;> norm_num [nanoseconds, nanosPerSecond]

namespace Component

/-- What a component is worth lies between its count and the next one. -/
theorem nanoseconds_bounds {c : Component} (hc : c.Tidy) :
    (c.count : ℚ) * c.scale.nanoseconds ≤ c.nanoseconds ∧
      c.nanoseconds < ((c.count : ℚ) + 1) * c.scale.nanoseconds := by
  have hscale := c.scale.nanoseconds_pos
  have hnonneg := placeValue_nonneg c.places
  have hlt := placeValue_lt_one hc.places_digits
  constructor
  · exact mul_le_mul_of_nonneg_right (by linarith) hscale.le
  · exact mul_lt_mul_of_pos_right (by linarith) hscale

theorem nanoseconds_of_whole {c : Component} (h : c.places = []) :
    c.nanoseconds = (c.count : ℚ) * c.scale.nanoseconds := by
  rw [nanoseconds, h, placeValue_nil, add_zero]

/-- A component that stands as it should is told by its unit, its count and its fraction. -/
theorem Tidy.eq {c d : Component} (hc : c.Tidy) (hd : d.Tidy) (hscale : c.scale = d.scale)
    (hcount : c.count = d.count) (hplaces : placeValue c.places = placeValue d.places) : c = d := by
  have hwhole : c.whole = d.whole := by
    have hnatural : natural c.count = natural d.count := congrArg natural hcount
    rwa [count, count, natural_ofDigitChars hc.whole_digits hc.whole_ne_nil hc.no_leading_zero,
      natural_ofDigitChars hd.whole_digits hd.whole_ne_nil hd.no_leading_zero] at hnatural
  have hfraction : c.places = d.places :=
    eq_of_placeValue hc.places_digits hd.places_digits hc.no_trailing_zero hd.no_trailing_zero hplaces
  cases c
  cases d
  exact congr (congr (congrArg Component.mk hwhole) hfraction) hscale

end Component

/-- No component fills the unit of the one before it. -/
def Nested (cs : List Component) : Prop :=
  cs.IsChain fun c d => (d.count + 1) * d.scale.nanoseconds ≤ c.scale.nanoseconds

/-- A sum is between the count of its first unit and the next one. -/
theorem worth_bounds : ∀ {c : Component} {cs : List Component}, Orderly (c :: cs) → Nested (c :: cs) →
    (c.count : ℚ) * c.scale.nanoseconds ≤ worth (c :: cs) ∧
      worth (c :: cs) < ((c.count : ℚ) + 1) * c.scale.nanoseconds
  | c, [], hc, _ => by
      simpa using c.nanoseconds_bounds hc
  | c, d :: cs, ⟨_, hplaces, hrest⟩, hnested => by
      obtain ⟨hle, hnested⟩ := List.isChain_cons_cons.1 hnested
      obtain ⟨hlow, hhigh⟩ := worth_bounds hrest hnested
      have hle : ((d.count : ℚ) + 1) * d.scale.nanoseconds ≤ c.scale.nanoseconds := by exact_mod_cast hle
      have hnonneg : 0 ≤ (d.count : ℚ) * d.scale.nanoseconds := by positivity
      rw [worth_cons, Component.nanoseconds_of_whole hplaces]
      constructor
      · linarith
      · linarith

/-- A number lies between one multiple of a unit and the next in one place only. -/
theorem eq_of_bounds {unit x : ℚ} (hunit : 0 < unit) {a b : Nat} (ha : a * unit ≤ x) (ha' : x < (a + 1) * unit)
    (hb : b * unit ≤ x) (hb' : x < (b + 1) * unit) : a = b := by
  have hlt : ∀ {m n : Nat}, m * unit ≤ x → x < (n + 1) * unit → m < n + 1 := by
    intro m n hm hn
    have := lt_of_mul_lt_mul_right (hm.trans_lt hn) hunit.le
    exact_mod_cast this
  exact Nat.le_antisymm (Nat.le_of_lt_succ (hlt ha hb')) (Nat.le_of_lt_succ (hlt hb ha'))

/-- **Components are told by their units and what they add up to.** -/
theorem eq_of_worth {cs ds : List Component} (hcs : Orderly cs) (hds : Orderly ds) (hncs : Nested cs)
    (hnds : Nested ds) (hscales : cs.map Component.scale = ds.map Component.scale)
    (hworth : worth cs = worth ds) : cs = ds := by
  induction cs generalizing ds with
  | nil => exact hcs.elim
  | cons c cs ih =>
      cases ds with
      | nil => exact hds.elim
      | cons d ds =>
          obtain ⟨hscale, hrest⟩ := List.cons.inj hscales
          -- The first count is the number of its units in the sum.
          have hcount : c.count = d.count := by
            obtain ⟨hlow, hhigh⟩ := worth_bounds hcs hncs
            obtain ⟨hlow', hhigh'⟩ := worth_bounds hds hnds
            rw [← hworth, ← hscale] at hlow' hhigh'
            exact eq_of_bounds c.scale.nanoseconds_pos hlow hhigh hlow' hhigh'
          cases cs with
          | nil =>
              obtain rfl := List.map_eq_nil_iff.1 hrest.symm
              rw [worth_cons, worth_cons, worth_nil, add_zero, add_zero, Component.nanoseconds,
                Component.nanoseconds, hcount, hscale, mul_left_inj' d.scale.nanoseconds_pos.ne',
                add_right_inj] at hworth
              rw [hcs.eq hds hscale hcount hworth]
          | cons c' cs =>
              cases ds with
              | nil => exact absurd hrest (List.cons_ne_nil _ _)
              | cons d' ds =>
                  obtain ⟨hc, hplaces, hcs⟩ := hcs
                  obtain ⟨hd, hplaces', hds⟩ := hds
                  have hfirst : c = d := hc.eq hd hscale hcount (by rw [hplaces, hplaces'])
                  rw [worth_cons c, worth_cons d, hfirst, add_right_inj] at hworth
                  rw [hfirst, ih hcs hds hncs.tail hnds.tail hrest hworth]

end LineLog.Time.Duration
