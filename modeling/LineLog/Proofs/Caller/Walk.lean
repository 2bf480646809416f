import LineLog.Logger
import LineLog.Proofs.Caller.Suffix
import LineLog.Proofs.Session.Frames
/-!
# LineLog.Proofs.Caller.Walk

The walk up the stack finds the symbol that a record is to be blamed on.

What is to be found is said on the symbols that the stack has from the innermost call on, without a walk:
behind the first symbol that is taken for the call site, the `n`-th one that has a file and a line
(`Caller.Blames`). Frames play no part in it.

Design points:

* `Walk.Stands` is the invariant of the walk. It says for any symbols at all where a walk stands that has
  visited them, also where it could have been stopped before. One visit keeps it (`Walk.visit_stands`), and
  as it fixes what remains to go, no visit goes below zero.
* What is found stays found when the stack goes on (`Above.append`, `Nth.append`), so it does not matter
  that a walk is stopped.
* The walk through one list of text symbols (`Caller.resolve`) is compared with what is to be found, and not
  with the walk through frames (`Caller.resolve_of_blames`).
-/

namespace LineLog

open Text

/-! ### What is to be found -/

namespace NativeSymbol

/-- The symbol has a file and a line. -/
def Known (s : NativeSymbol) : Prop :=
  s.file.isSome ∧ s.line.isSome

/-- The symbol is taken for the call site: it is at its line, in a path that ends in its file. -/
def IsSite (site : Location) (s : NativeSymbol) : Prop :=
  s.line = some site.line ∧
    ∃ path ∈ s.file, Path.segments (encoded site.file.toList) <:+ Path.segments (latin path)

instance (s : NativeSymbol) : Decidable s.Known :=
  inferInstanceAs (Decidable (_ ∧ _))

instance (site : Location) (s : NativeSymbol) : Decidable (s.IsSite site) :=
  inferInstanceAs (Decidable (_ ∧ ∃ path ∈ s.file, _))

variable {s : NativeSymbol}

theorem known_iff : s.Known ↔ ∃ file line, s = ⟨some file, some line⟩ := by
  rcases s with ⟨_ | file, _ | line⟩ <;> simp [Known]

theorem IsSite.known {site : Location} (h : s.IsSite site) : s.Known := by
  obtain ⟨hline, file, hfile, -⟩ := h
  exact ⟨Option.isSome_of_mem hfile, by rw [hline]; rfl⟩

theorem isSite_iff {site : Location} {file : Bytes} {line : Nat} :
    IsSite site ⟨some file, some line⟩ ↔
      (line == site.line && Path.nativeEndsWith file site.file.toList) = true := by
  rw [Bool.and_eq_true, beq_iff_eq, Path.nativeEndsWith_iff]
  simp [IsSite]

end NativeSymbol

namespace Caller

variable {site : Location} {symbols above : List NativeSymbol} {s : NativeSymbol} {n : Nat}

/-- The symbols that are known. -/
def known (symbols : List NativeSymbol) : Nat :=
  symbols.countP fun s => s.Known

/-- `above` is what there is behind the first symbol that is taken for the call site. -/
def Above (site : Location) (symbols above : List NativeSymbol) : Prop :=
  ∃ below here, symbols = below ++ here :: above ∧ here.IsSite site ∧ ∀ s ∈ below, ¬ s.IsSite site

/-- `s` is the `n`-th of the symbols that are known. -/
def Nth (n : Nat) (symbols : List NativeSymbol) (s : NativeSymbol) : Prop :=
  ∃ passed behind, symbols = passed ++ s :: behind ∧ s.Known ∧ known passed + 1 = n

/-- What a record is to be blamed on that is made at `site`, with `symbols` on the stack and so many of
them to skip. -/
inductive Blames (site : Location) (symbols : List NativeSymbol) : Nat → Option Caller → Prop
  /-- Without a skip the stack plays no part. -/
  | site : Blames site symbols 0 (some (.site site))
  | symbol {n : Nat} {above : List NativeSymbol} {file : Bytes} {line : Nat} :
      Above site symbols above → Nth (n + 1) above ⟨some file, some line⟩ →
        Blames site symbols (n + 1) (some (.symbol (String.ofList (lossy file)) line))
  /-- The call site is not on the stack. -/
  | nowhere {n : Nat} : (∀ s ∈ symbols, ¬ s.IsSite site) → Blames site symbols (n + 1) none
  /-- Not enough symbols that are known. -/
  | few {n : Nat} {above : List NativeSymbol} :
      Above site symbols above → known above < n + 1 → Blames site symbols (n + 1) none

theorem Above.append (h : Above site symbols above) (more : List NativeSymbol) :
    Above site (symbols ++ more) (above ++ more) := by
  obtain ⟨below, here, rfl, hhere, hbelow⟩ := h
  exact ⟨below, here, by simp, hhere, hbelow⟩

theorem Nth.append (h : Nth n symbols s) (more : List NativeSymbol) : Nth n (symbols ++ more) s := by
  obtain ⟨passed, behind, rfl, hknown, hn⟩ := h
  exact ⟨passed, behind ++ more, by simp, hknown, hn⟩

theorem Blames.append {c : Caller} (h : Blames site symbols n (some c)) (more : List NativeSymbol) :
    Blames site (symbols ++ more) n (some c) := by
  cases h with
  | site => exact .site
  | symbol habove hnth => exact .symbol (habove.append more) (hnth.append more)

theorem known_append (a b : List NativeSymbol) : known (a ++ b) = known a + known b :=
  List.countP_append

theorem known_cons (s : NativeSymbol) (symbols : List NativeSymbol) :
    known (s :: symbols) = known symbols + if s.Known then 1 else 0 := by
  simp [known, List.countP_cons]

theorem known_concat (symbols : List NativeSymbol) (s : NativeSymbol) :
    known (symbols ++ [s]) = known symbols + if s.Known then 1 else 0 := by
  have hnil : known [] = 0 := rfl
  rw [known_append, known_cons, hnil, Nat.zero_add]

theorem not_isSite_concat (h : ∀ other ∈ symbols, ¬ other.IsSite site) (hs : ¬ s.IsSite site) :
    ∀ other ∈ symbols ++ [s], ¬ other.IsSite site := by
  intro other hother
  rcases List.mem_append.1 hother with hother | hother
  · exact h other hother
  · rwa [List.mem_singleton.1 hother]

/-- The first symbol that is taken for the call site is where a search ends. -/
theorem Above.dropWhile (h : Above site symbols above) :
    above = (symbols.dropWhile fun s => !decide (s.IsSite site)).tail := by
  obtain ⟨below, here, rfl, hhere, hbelow⟩ := h
  rw [List.dropWhile_append_of_pos (by simpa using hbelow), List.dropWhile_cons_of_neg (by simpa using hhere)]
  rfl

theorem Above.not_nowhere (h : Above site symbols above) : ¬ ∀ s ∈ symbols, ¬ s.IsSite site := by
  obtain ⟨below, here, rfl, hhere, -⟩ := h
  exact fun hnowhere => hnowhere here (by simp) hhere

theorem Nth.getElem? (h : Nth (n + 1) symbols s) : (symbols.filter fun s => s.Known)[n]? = some s := by
  obtain ⟨passed, behind, rfl, hknown, hn⟩ := h
  have hlength : (passed.filter fun s => s.Known).length = n := by
    rw [← List.countP_eq_length_filter]
    exact Nat.succ_injective hn
  rw [List.filter_append, List.filter_cons_of_pos (by simpa using hknown),
    List.getElem?_append_right hlength.le, hlength, Nat.sub_self]
  rfl

theorem Nth.le_known (h : Nth n symbols s) : n ≤ known symbols := by
  obtain ⟨passed, behind, rfl, hknown, hn⟩ := h
  rw [known_append, known_cons, if_pos hknown]
  omega

/-- There is one thing only that a record is to be blamed on. -/
theorem Blames.unique {a b : Option Caller} (ha : Blames site symbols n a)
    (hb : Blames site symbols n b) : a = b := by
  cases ha with
  | site => cases hb with | site => rfl
  | nowhere hnowhere =>
      cases hb with
      | symbol habove _ => exact absurd hnowhere habove.not_nowhere
      | nowhere _ => rfl
      | few _ _ => rfl
  | symbol habove hnth =>
      cases hb with
      | nowhere hnowhere => exact absurd hnowhere habove.not_nowhere
      | symbol habove' hnth' =>
          obtain rfl := habove.dropWhile.trans habove'.dropWhile.symm
          have hsame := hnth.getElem?.symm.trans hnth'.getElem?
          cases hsame
          rfl
      | few habove' hfew =>
          obtain rfl := habove.dropWhile.trans habove'.dropWhile.symm
          exact absurd hnth.le_known (not_le.2 hfew)
  | few habove hfew =>
      cases hb with
      | nowhere _ => rfl
      | few _ _ => rfl
      | symbol habove' hnth' =>
          obtain rfl := habove.dropWhile.trans habove'.dropWhile.symm
          exact absurd hnth'.le_known (not_le.2 hfew)

end Caller

/-! ### Visiting symbols -/

namespace Walk

open Caller

variable {site : Location} {skip : SkipCount} {symbols : List NativeSymbol} {w : Walk}

/-- Where a walk for `skip` stands that has visited `symbols`: below the call site, somewhere above it
with symbols to go, or at the one that it was to find. -/
inductive Stands (site : Location) (skip : SkipCount) (symbols : List NativeSymbol) : Walk → Prop
  | searching : (∀ s ∈ symbols, ¬ s.IsSite site) → Stands site skip symbols ⟨false, skip, none⟩
  | counting {above : List NativeSymbol} {remaining : SkipCount} :
      Above site symbols above → 0 < remaining.toNat → remaining.toNat + known above = skip.toNat →
        Stands site skip symbols ⟨true, remaining, none⟩
  | settled {above : List NativeSymbol} {file : Bytes} {line : Nat} :
      Above site symbols above → Nth skip.toNat above ⟨some file, some line⟩ →
        Stands site skip symbols ⟨true, 0, some (.symbol (String.ofList (lossy file)) line)⟩

theorem stands_start (site : Location) (skip : SkipCount) : Stands site skip [] (start skip) :=
  .searching (by simp)

theorem visit_of_not_known {s : NativeSymbol} (h : ¬ s.Known) : w.visit site s = some w := by
  rcases s with ⟨_ | file, _ | line⟩
  case some.some => exact absurd (NativeSymbol.known_iff.2 ⟨file, line, rfl⟩) h
  all_goals cases hresolved : w.resolved <;> simp [visit, hresolved]

theorem visit_searching (file : Bytes) (line : Nat) :
    visit site ⟨false, skip, none⟩ ⟨some file, some line⟩ =
      some ⟨NativeSymbol.IsSite site ⟨some file, some line⟩, skip, none⟩ := by
  rw [visit]
  simp only [Bool.false_eq_true, if_false, Option.some.injEq, Walk.mk.injEq, and_true]
  rw [Bool.eq_iff_iff, decide_eq_true_iff, NativeSymbol.isSite_iff]

theorem visit_counting {remaining : SkipCount} (h : 0 < remaining.toNat) (file : Bytes) (line : Nat) :
    visit site ⟨true, remaining, none⟩ ⟨some file, some line⟩ =
      some ⟨true, remaining - 1,
        if remaining - 1 = 0 then some (.symbol (String.ofList (lossy file)) line) else none⟩ := by
  have hone : (1 : UInt64) ≤ remaining := by
    rw [UInt64.le_iff_toNat_le]
    exact h
  simp [visit, Time.Word.sub?, hone]

/-- A walk that is settled lets everything pass. -/
theorem visit_settled {c : Caller} (found : Bool) (remaining : SkipCount) (s : NativeSymbol) :
    visit site ⟨found, remaining, some c⟩ s = some ⟨found, remaining, some c⟩ :=
  rfl

theorem toNat_sub_one {remaining : SkipCount} (h : 0 < remaining.toNat) :
    (remaining - 1).toNat = remaining.toNat - 1 := by
  rw [UInt64.toNat_sub_of_le]
  · rfl
  · rw [UInt64.le_iff_toNat_le]
    exact h

/-- A symbol that is not known changes nothing. -/
theorem Stands.pass (h : Stands site skip symbols w) {s : NativeSymbol} (hs : ¬ s.Known) :
    Stands site skip (symbols ++ [s]) w := by
  cases h with
  | searching hnone =>
      exact .searching (not_isSite_concat hnone fun hsite => hs hsite.known)
  | counting habove hpos hsum =>
      exact .counting (habove.append [s]) hpos (by rw [known_concat, if_neg hs, Nat.add_zero, hsum])
  | settled habove hnth => exact .settled (habove.append [s]) (hnth.append [s])

/-- **One visit**: what a walk notes down is where it then stands, and there is always something to note
down. -/
theorem visit_stands (hskip : 0 < skip.toNat) (h : Stands site skip symbols w) (s : NativeSymbol) :
    ∃ w', w.visit site s = some w' ∧ Stands site skip (symbols ++ [s]) w' := by
  by_cases hs : s.Known
  case neg => exact ⟨w, visit_of_not_known hs, h.pass hs⟩
  obtain ⟨file, line, rfl⟩ := NativeSymbol.known_iff.1 hs
  cases h with
  | searching hnone =>
      refine ⟨_, visit_searching file line, ?_⟩
      by_cases hsite : NativeSymbol.IsSite site ⟨some file, some line⟩
      · rw [decide_eq_true hsite]
        exact .counting ⟨symbols, _, rfl, hsite, hnone⟩ hskip rfl
      · rw [decide_eq_false hsite]
        exact .searching (not_isSite_concat hnone hsite)
  | @counting above remaining habove hpos hsum =>
      have hless := toNat_sub_one hpos
      refine ⟨_, visit_counting hpos file line, ?_⟩
      by_cases hlast : remaining - 1 = 0
      · -- This is the one: all that were to be skipped before it have been.
        rw [if_pos hlast, hlast]
        rw [hlast] at hless
        refine .settled (habove.append _) ⟨above, [], rfl, hs, ?_⟩
        change 0 = _ at hless
        omega
      · rw [if_neg hlast]
        have hne : (remaining - 1).toNat ≠ 0 := fun h => hlast (UInt64.toNat_inj.1 h)
        refine .counting (habove.append _) (by omega) ?_
        rw [known_concat, if_pos hs]
        omega
  | settled habove hnth =>
      exact ⟨_, visit_settled true 0 _, .settled (habove.append _) (hnth.append _)⟩

/-- **Any number of visits.** -/
theorem visitAll_stands (hskip : 0 < skip.toNat) (h : Stands site skip symbols w)
    (more : List NativeSymbol) :
    ∃ w', w.visitAll site more = some w' ∧ Stands site skip (symbols ++ more) w' := by
  induction more generalizing symbols w with
  | nil => exact ⟨w, rfl, by rwa [List.append_nil]⟩
  | cons s more ih =>
      obtain ⟨next, hnext, hstands⟩ := visit_stands hskip h s
      obtain ⟨w', hw', hall⟩ := ih hstands
      refine ⟨w', ?_, by rwa [List.append_assoc, List.singleton_append] at hall⟩
      rw [visitAll, List.foldlM_cons, hnext]
      exact hw'

/-! ### Climbing frames -/

/-- What a walk has resolved is what a record is to be blamed on, as far as the symbols go that it has
visited. -/
theorem Stands.blames (h : Stands site skip symbols w) (hskip : 0 < skip.toNat) :
    Blames site symbols skip.toNat w.resolved := by
  obtain ⟨n, hn⟩ := Nat.exists_eq_add_one_of_ne_zero hskip.ne'
  cases h with
  | searching hnone =>
      rw [hn]
      exact .nowhere hnone
  | counting habove hpos hsum =>
      rw [hn] at hsum ⊢
      exact .few habove (by omega)
  | settled habove hnth =>
      rw [hn] at hnth ⊢
      exact .symbol habove hnth

/-- **A climb** ends with the frame that settles the walk, or at the end of the stack. -/
theorem climb_stands (hskip : 0 < skip.toNat) (h : Stands site skip symbols w)
    (hopen : w.resolved = none) (stack : List StackFrame) :
    ∃ w' seen rest, w.climb site stack = some (w', rest) ∧ stack = seen ++ rest ∧
      Stands site skip (symbols ++ seen.flatten) w' ∧
      (∀ front frame back, seen = front ++ frame :: back →
        Blames site (symbols ++ front.flatten) skip.toNat none) ∧
      (w'.resolved = none → rest = []) := by
  have hsofar : Blames site symbols skip.toNat none := hopen ▸ h.blames hskip
  induction stack generalizing symbols w with
  | nil => exact ⟨w, [], [], rfl, rfl, by simpa using h, by simp, fun _ => rfl⟩
  | cons frame frames ih =>
      obtain ⟨next, hnext, hstands⟩ := visitAll_stands hskip h frame
      cases hresolved : next.resolved with
      | some c =>
          refine ⟨next, [frame], frames, ?_, rfl, by simpa using hstands, ?_, ?_⟩
          · simp [climb, hnext, hresolved]
          · intro front other back hseen
            cases front with
            | nil => simpa using hsofar
            | cons first front => simp at hseen
          · intro hnone
            cases hresolved.symm.trans hnone
      | none =>
          obtain ⟨w', seen, rest, hclimb, hframes, hall, hneeded, hrest⟩ :=
            ih hstands hresolved (hresolved ▸ hstands.blames hskip)
          refine ⟨w', frame :: seen, rest, ?_, by rw [hframes]; rfl, by simpa using hall, ?_, hrest⟩
          · simpa [climb, hnext, hresolved] using hclimb
          · intro front other back hseen
            cases front with
            | nil => simpa using hsofar
            | cons first front =>
                obtain ⟨rfl, hback⟩ := List.cons_eq_cons.1 hseen
                simpa using hneeded front other back hback

end Walk

namespace Caller

variable {site : Location}

/-- What is to be said of an answer for which the frames `seen` were looked at, and `rest` were not. -/
structure Looked (site : Location) (n : Nat) (seen rest : List StackFrame) (answer : Option Caller) :
    Prop where
  /-- It is what the whole stack is to be answered with, and nothing else is. -/
  answers : ∀ a, Blames site (seen ++ rest).flatten n a ↔ a = answer
  /-- Before the last frame that was looked at, there was no answer. -/
  needed : ∀ front frame back, seen = front ++ frame :: back → Blames site front.flatten n none
  exhausted : answer = none → rest = []

theorem resolve?_looked (stack : List StackFrame) (site : Location) (skip : SkipCount) :
    ∃ answer seen rest, resolve? stack site skip = some (answer, rest) ∧ stack = seen ++ rest ∧
      Looked site skip.toNat seen rest answer := by
  rw [resolve?]
  by_cases hskip : skip = 0
  · refine ⟨some (.site site), [], stack, if_pos hskip, rfl, ?_, by simp, by simp⟩
    rw [hskip]
    exact fun a => ⟨fun ha => ha.unique .site, fun ha => ha ▸ .site⟩
  · have hpos : 0 < skip.toNat := Nat.pos_of_ne_zero fun h => hskip (UInt64.toNat_inj.1 h)
    obtain ⟨w, seen, rest, hclimb, rfl, hall, hneeded, hrest⟩ :=
      Walk.climb_stands hpos (Walk.stands_start site skip) rfl stack
    rw [if_neg hskip]
    refine ⟨w.resolved, seen, rest, ?_, rfl, ?_, hneeded, hrest⟩
    · rw [hclimb]
      rfl
    · have hblames : Blames site (seen ++ rest).flatten skip.toNat w.resolved := by
        have hseen := hall.blames hpos
        rw [List.flatten_append]
        cases hresolved : w.resolved with
        | none =>
            rw [hrest hresolved, ← hresolved]
            simpa using hseen
        | some c =>
            rw [hresolved] at hseen
            exact hseen.append rest.flatten
      exact fun a => ⟨fun ha => ha.unique hblames, fun ha => ha ▸ hblames⟩

/-! ### Symbols in text -/

variable {symbols : List StackSymbol} {s : StackSymbol} {l : Location} {n : Nat}

theorem native_of_location? (h : s.location? = some l) :
    s.native = ⟨some (utf8 l.file.toList), some l.line⟩ := by
  rcases s with ⟨_ | file, _ | line⟩ <;> cases h
  rfl

theorem known_native_iff : s.native.Known ↔ s.location?.isSome := by
  rcases s with ⟨_ | file, _ | line⟩ <;>
    simp [NativeSymbol.Known, StackSymbol.native, StackSymbol.location?]

theorem isSite_native (h : s.location? = some l) :
    s.native.IsSite site ↔ isSite site l = true := by
  rw [native_of_location? h, NativeSymbol.isSite_iff, Path.nativeEndsWith_utf8]
  rfl

/-- No symbol is taken for the call site that cannot be. -/
theorem foreign_of_not_isSite {inner : List StackSymbol}
    (h : ∀ s ∈ inner.map StackSymbol.native, ¬ s.IsSite site) : Foreign inner site := by
  intro s hs l hl
  rw [← Bool.not_eq_true, ← isSite_native hl]
  exact h _ (List.mem_map_of_mem hs)

theorem known_native (symbols : List StackSymbol) :
    known (symbols.map StackSymbol.native) = (symbols.filterMap StackSymbol.location?).length := by
  induction symbols with
  | nil => rfl
  | cons s symbols ih =>
      rw [List.map_cons, known_cons, ih, List.filterMap_cons]
      cases hl : s.location? <;> simp [known_native_iff, hl]

/-- Above the call site, positions are counted off. -/
theorem walkAbove_eq (symbols : List StackSymbol) (n : Nat) :
    walkAbove symbols n = (symbols.filterMap StackSymbol.location?)[n]? := by
  induction symbols generalizing n with
  | nil => rfl
  | cons s symbols ih =>
      rw [walkAbove, List.filterMap_cons]
      cases hl : s.location? with
      | none => exact ih n
      | some l =>
          cases n with
          | zero => rfl
          | succ n => exact ih n

/-- Up to the call site, symbols are passed. -/
theorem walk_of_above {above : List NativeSymbol}
    (h : Above site (symbols.map StackSymbol.native) above) (n : Nat) :
    ∃ textAbove : List StackSymbol, above = textAbove.map StackSymbol.native ∧
      walk site symbols n = (textAbove.filterMap StackSymbol.location?)[n]? := by
  obtain ⟨below, here, hsymbols, hhere, hbelow⟩ := h
  obtain ⟨textBelow, others, rfl, rfl, hothers⟩ := List.map_eq_append_iff.1 hsymbols
  obtain ⟨textHere, textAbove, rfl, rfl, rfl⟩ := List.map_eq_cons_iff.1 hothers
  refine ⟨textAbove, rfl, ?_⟩
  obtain ⟨l, hl⟩ := Option.isSome_iff_exists.1 (known_native_iff.1 hhere.known)
  have hsite : isSite site l = true := (isSite_native hl).1 hhere
  rw [walk_append (foreign_of_not_isSite hbelow), walk, hl, ← walkAbove_eq]
  exact if_pos hsite

/-- **The walk through symbols in text finds the same.** -/
theorem resolve_of_blames {a : Option Caller} (h : Blames site (symbols.map StackSymbol.native) n a) :
    resolve symbols site n = a.map location := by
  cases h with
  | site => rfl
  | @nowhere n hnowhere =>
      have hwalk := walk_append (foreign_of_not_isSite hnowhere) [] n
      rw [List.append_nil] at hwalk
      exact hwalk
  | @few n above habove hfew =>
      obtain ⟨textAbove, rfl, hwalk⟩ := walk_of_above habove n
      rw [known_native] at hfew
      exact hwalk.trans (List.getElem?_eq_none (Nat.le_of_lt_succ hfew))
  | @symbol n above file line habove hnth =>
      obtain ⟨textAbove, rfl, hwalk⟩ := walk_of_above habove n
      obtain ⟨passed, behind, habove', hknown, hn⟩ := hnth
      obtain ⟨textPassed, others, rfl, rfl, hothers⟩ := List.map_eq_append_iff.1 habove'
      obtain ⟨s, textBehind, rfl, hs, rfl⟩ := List.map_eq_cons_iff.1 hothers
      rw [← hs] at hknown
      obtain ⟨l, hl⟩ := Option.isSome_iff_exists.1 (known_native_iff.1 hknown)
      rw [native_of_location? hl] at hs
      cases hs
      have hlength : (textPassed.filterMap StackSymbol.location?).length = n := by
        rw [← known_native]
        exact Nat.succ_injective hn
      refine hwalk.trans ?_
      rw [List.filterMap_append, List.filterMap_cons, hl, List.getElem?_append_right hlength.le,
        hlength, Nat.sub_self]
      simp [location, lossy_utf8]

/-! ### The symbol that is blamed -/

/-- **A record is blamed on the symbol so many above its call site.** Without a skip that is the call site,
and no frame is looked at. With one, there is always an answer: the symbol of that number with a file and a
line, behind the first one that is taken for the call site, and nothing if there is no such symbol. What a
walk has to go does not fall below zero, whatever it visits behind the symbol that it was to find. A logger,
which has a list of symbols in text for a stack, blames its records on the same. -/
theorem resolve_nth_above (site : Location) :
    (∀ stack : List StackFrame, resolve? stack site 0 = some (some (.site site), stack)) ∧
    (∀ (stack : List StackFrame) (skip : SkipCount), ∃ answer seen rest,
      resolve? stack site skip = some (answer, rest) ∧ stack = seen ++ rest ∧
        Looked site skip.toNat seen rest answer) ∧
    (∀ (skip : SkipCount) (symbols : List NativeSymbol), 0 < skip.toNat →
      ∃ w, (Walk.start skip).visitAll site symbols = some w ∧ Walk.Stands site skip symbols w) ∧
    ∀ (l : Logger) (stack : List (List StackSymbol)), ∃ answer rest,
      resolve? (stack.map (·.map StackSymbol.native)) site l.config.callerSkip =
        some (answer, rest) ∧
      resolve stack.flatten site l.config.callerSkip.toNat = answer.map location ∧
      l.callerOf stack.flatten site = if l.config.caller.enabled then answer.map location else none := by
  refine ⟨fun stack => rfl, fun stack skip => resolve?_looked stack site skip, ?_, ?_⟩
  · intro skip symbols hskip
    exact Walk.visitAll_stands hskip (Walk.stands_start site skip) symbols
  · intro l stack
    obtain ⟨answer, seen, rest, hresolve, hstack, hlooked⟩ :=
      resolve?_looked (stack.map (·.map StackSymbol.native)) site l.config.callerSkip
    have hblames := (hlooked.answers answer).2 rfl
    rw [← hstack, ← List.map_flatten] at hblames
    have htext := resolve_of_blames hblames
    exact ⟨answer, rest, hresolve, htext, by rw [Logger.callerOf, htext]⟩

/-- A call site in a function that calls itself. -/
def recursiveSite : Location := ⟨"src/a.rs", 5⟩

/-- Its stack. The first frame is below it and has a symbol without a position. In the second one there are
the call site, a symbol without a line, the call site once more, a file that is not named in text, and one
more; in the third one the call site for the last time. -/
def recursiveStack : List StackFrame :=
  [[⟨none, none⟩, ⟨some (utf8 "/w/src/a.rs".toList), some 4⟩],
    [⟨some (utf8 "/w/src/a.rs".toList), some 5⟩, ⟨some (utf8 "/w/src/b.rs".toList), none⟩,
      ⟨some (utf8 "/w/./src/a.rs".toList), some 5⟩, ⟨some (0xFF :: utf8 ".rs".toList), some 8⟩,
      ⟨some (utf8 "/w/src/c.rs".toList), some 9⟩],
    [⟨some (utf8 "/w/src/a.rs".toList), some 5⟩]]

/-- The second one above the call site is the file that is not named in text. The symbol behind it is
visited as well, the last frame is not looked at; if it is, nothing goes below zero. -/
theorem resolve_nth_above_recursive :
    resolve? recursiveStack recursiveSite 2 =
      some (some (.symbol "\uFFFD.rs" 8), [recursiveStack[2]]) ∧
    Blames recursiveSite recursiveStack.flatten 2 (some (.symbol "\uFFFD.rs" 8)) ∧
    0 < (2 : SkipCount).toNat ∧
    ∃ w, (Walk.start 2).visitAll recursiveSite recursiveStack.flatten = some w ∧
      Walk.Stands recursiveSite 2 recursiveStack.flatten w := by
  have heval : resolve? recursiveStack recursiveSite 2 =
      some (some (.symbol "\uFFFD.rs" 8), [recursiveStack[2]]) := by decide
  have hpos : 0 < (2 : SkipCount).toNat := by decide
  obtain ⟨-, hlooked, hcounter, -⟩ := resolve_nth_above recursiveSite
  obtain ⟨answer, seen, rest, hresolve, hstack, hanswer⟩ := hlooked recursiveStack 2
  cases heval.symm.trans hresolve
  refine ⟨heval, ?_, hpos, hcounter 2 recursiveStack.flatten hpos⟩
  rw [hstack]
  exact (hanswer.answers _).2 rfl

end Caller

end LineLog
