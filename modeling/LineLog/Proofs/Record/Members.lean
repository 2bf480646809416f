import LineLog.Proofs.Field.Denotation
import LineLog.Proofs.Text.Bare
/-!
# LineLog.Proofs.Record.Members

A record is one JSON object with exactly the members that it should have.

Everything in a record is a pair with a comma after it, and closing the record puts the
brace in the place of the last comma (`close_pairs`). So whatever the blocks and fields
are, the record is an object whose members are the pairs, in the order in which they
were written. No text of a key, message or value can add a member or end one.

Design points:

* `Record.Wanted` is a member as a reader must find it: a name, and what the value must
  be. `Record.Carries` says that texts are members that a reader finds as wanted. Lists
  of such texts are put together by `Carries.append`, so the blocks that are switched
  off and the context need no cases of their own.
* The context is text from an earlier moment. All that matters is that it carries
  members, in whatever format its times were written.
-/

namespace LineLog

open Decimal Text Json

/-! ### The caller -/

namespace Caller

/-- The position as a reader finds it. -/
def text (short : Bool) : Option Location → List Char
  | none => [':', '0']
  | some l =>
    (if short then Path.short l.file.toList else l.file.toList) ++ ':' :: natural l.line

theorem escape_text (short : Bool) (caller : Option Location) :
    escape (text short caller) = render short caller := by
  cases caller with
  | none => rfl
  | some l =>
      have hcolon : escapeChar ':' = [':'] := rfl
      rw [text, render, escape_append, escape_cons, hcolon, escape_of_bare (bare_natural l.line)]
      rfl

end Caller

namespace Record

/-! ### Pairs -/

/-- Pairs with a comma after each are the items of an enclosed list and a comma. -/
theorem flatMap_comma {items : List (List Char)} (h : items ≠ []) :
    items.flatMap (· ++ [',']) = [','].intercalate items ++ [','] := by
  induction items with
  | nil => exact absurd rfl h
  | cons item items ih =>
      cases items with
      | nil => simp
      | cons next items =>
          rw [List.flatMap_cons, ih (by simp), List.intercalate_cons_cons]
          simp

/-- Closing pairs makes them an object. -/
theorem close_pairs (items : List (List Char)) :
    close ('{' :: items.flatMap (· ++ [','])) = Object.enclosed '{' '}' items := by
  by_cases h : items = []
  · subst h
    rfl
  · rw [flatMap_comma h, ← List.cons_append, close, Object.enclosed,
      if_pos (by rw [List.getLast?_concat]), List.dropLast_concat]

/-- Closing pairs behind other bytes leaves those bytes as they are. -/
theorem closeBytes_pairs (dst : Bytes) (items : List (List Char)) :
    closeBytes (dst ++ utf8 ('{' :: items.flatMap (· ++ [',']))) =
      dst ++ utf8 (Object.enclosed '{' '}' items) := by
  have hbrace : utf8 ['{'] = [0x7B] := by decide
  have hcomma : utf8 [','] = [commaByte] := by decide
  have hclose : utf8 ['}'] = [braceByte] := by decide
  by_cases h : items = []
  · subst h
    show closeBytes (dst ++ utf8 ['{']) = dst ++ utf8 (['{'] ++ ['}'])
    rw [closeBytes, utf8_append, hbrace, hclose, if_neg, List.append_assoc]
    rw [List.getLast?_concat]
    decide
  · rw [flatMap_comma h, ← List.cons_append, utf8_append, hcomma, ← List.append_assoc, closeBytes,
      if_pos (by rw [List.getLast?_concat]), List.dropLast_concat, Object.enclosed, utf8_append,
      hclose, List.append_assoc]

/-! ### Members that are wanted -/

/-- A member that a reader must find: its name, and what its value must be. -/
structure Wanted where
  name : String
  value : Tree → Prop

/-- The member is as wanted. -/
def Wanted.Found (w : Wanted) (member : List Char × Tree) : Prop :=
  member.1 = w.name.toList ∧ w.value member.2

/-- The members are as wanted, one by one and in order. -/
def AllFound (members : List (List Char × Tree)) (wanted : List Wanted) : Prop :=
  List.Forall₂ (fun member w => w.Found member) members wanted

/-- The texts are members of a JSON object, and a reader finds them as wanted. -/
def Carries (items : List (List Char)) (wanted : List Wanted) : Prop :=
  ∃ members, List.Forall₂ CompactMember items members ∧ AllFound members wanted

namespace Carries

theorem nil : Carries [] [] :=
  ⟨[], .nil, .nil⟩

theorem cons {name : String} {text : List Char} {value : Tree → Prop} {items : List (List Char)}
    {wanted : List Wanted} (h : Reads text value) (hs : Carries items wanted) :
    Carries ((quoted name ++ ':' :: text) :: items) (⟨name, value⟩ :: wanted) := by
  obtain ⟨t, ht, hvalue⟩ := h
  obtain ⟨members, hmembers, hfound⟩ := hs
  exact ⟨(name.toList, t) :: members, .cons (.of ht) hmembers, .cons ⟨rfl, hvalue⟩ hfound⟩

theorem append {a b : List (List Char)} {wa wb : List Wanted} (ha : Carries a wa)
    (hb : Carries b wb) : Carries (a ++ b) (wa ++ wb) := by
  obtain ⟨as, has, hwa⟩ := ha
  obtain ⟨bs, hbs, hwb⟩ := hb
  exact ⟨as ++ bs, List.rel_append has hbs, List.rel_append hwa hwb⟩

/-- Members make an object. -/
theorem compact {items : List (List Char)} {wanted : List Wanted} (h : Carries items wanted) :
    ∃ members, Compact (Object.enclosed '{' '}' items) (.object members) ∧
      AllFound members wanted := by
  obtain ⟨members, hmembers, hfound⟩ := h
  exact ⟨members, .object hmembers, hfound⟩

end Carries

/-! ### Blocks and fields -/

/-- The member of a block, if it is switched on. -/
def Wanted.ofBlock (b : Block) (value : Tree → Prop) : List Wanted :=
  if b.enabled then [⟨b.key, value⟩] else []

/-- The member of a field. -/
def Wanted.ofField (fallback : Time.Format) (f : Field) : Wanted :=
  ⟨f.key, f.value.Denotes fallback⟩

/-- The enabled blocks, in the order of a record. -/
def wantedBlocks (c : Config) (r : Record) : List Wanted :=
  Wanted.ofBlock c.timestamp (c.timestampFormat.Denotes r.time) ++
  Wanted.ofBlock c.severity (Tree.IsText r.severityName.toList) ++
  Wanted.ofBlock c.hostname (Tree.IsText c.hostnameValue.toList) ++
  Wanted.ofBlock c.caller (Tree.IsText (Caller.text c.shortCaller r.caller)) ++
  Wanted.ofBlock c.message (Tree.IsText r.message.toList)

/-- A block is a pair or nothing. -/
theorem exists_carries_block (b : Block) {text : List Char} {value : Tree → Prop}
    (h : Reads text value) :
    ∃ items, block b text = items.flatMap (· ++ [',']) ∧ Carries items (Wanted.ofBlock b value) := by
  unfold block Wanted.ofBlock
  split
  · exact ⟨[quoted b.key ++ ':' :: text], by simp [pair], .cons h .nil⟩
  · exact ⟨[], rfl, .nil⟩

theorem reads_callerValue (c : Config) (r : Record) :
    Reads (r.callerValue c) (Tree.IsText (Caller.text c.shortCaller r.caller)) := by
  rw [callerValue, ← Caller.escape_text]
  exact .text _

/-- The blocks are pairs. -/
theorem exists_carries_blocks (c : Config) (r : Record) :
    ∃ items, r.blocks c = items.flatMap (· ++ [',']) ∧ Carries items (r.wantedBlocks c) := by
  obtain ⟨time, htime, hwantedTime⟩ :=
    exists_carries_block c.timestamp (Time.exists_compact_render r.time c.timestampFormat)
  obtain ⟨severity, hseverity, hwantedSeverity⟩ :=
    exists_carries_block c.severity (.text r.severityName.toList)
  obtain ⟨hostname, hhostname, hwantedHostname⟩ :=
    exists_carries_block c.hostname (.text c.hostnameValue.toList)
  obtain ⟨caller, hcaller, hwantedCaller⟩ := exists_carries_block c.caller (r.reads_callerValue c)
  obtain ⟨message, hmessage, hwantedMessage⟩ :=
    exists_carries_block c.message (.text r.message.toList)
  refine ⟨time ++ severity ++ hostname ++ caller ++ message, ?_,
    (((hwantedTime.append hwantedSeverity).append hwantedHostname).append hwantedCaller).append
      hwantedMessage⟩
  simp only [List.flatMap_append, ← htime, ← hseverity, ← hhostname, ← hcaller, ← hmessage]
  rfl

/-- The fields are pairs. -/
theorem carries_fields (fallback : Time.Format) {fields : List Field}
    (h : ∀ f ∈ fields, f.value.Sound) :
    Carries (fields.map (Field.render fallback)) (fields.map (Wanted.ofField fallback)) := by
  induction fields with
  | nil => exact .nil
  | cons f fields ih =>
      exact .cons (FieldValue.reads_render fallback (h f (by simp)))
        (ih fun g hg => h g (List.mem_cons_of_mem _ hg))

theorem renderAll_eq (fallback : Time.Format) (fields : List Field) :
    Field.renderAll fallback fields = (fields.map (Field.render fallback)).flatMap (· ++ [',']) := by
  rw [Field.renderAll, List.flatMap_map]

/-! ### The whole record -/

/-- The body of a record is an object, if the context carries members: the blocks, the members of
the context, and the fields. -/
theorem exists_compact_body (c : Config) (fallback : Time.Format) (r : Record)
    {context : List (List Char)} {wanted : List Wanted} (hcontext : Carries context wanted)
    {fields : List Field} (hfields : ∀ f ∈ fields, f.value.Sound) :
    ∃ members, Compact (r.body c fallback (context.flatMap (· ++ [','])) fields) (.object members) ∧
      AllFound members
        (r.wantedBlocks c ++ wanted ++ fields.map (Wanted.ofField fallback)) := by
  obtain ⟨blocks, hblocks, hwanted⟩ := r.exists_carries_blocks c
  have hcarries := (hwanted.append hcontext).append (carries_fields fallback hfields)
  have hbody : r.body c fallback (context.flatMap (· ++ [','])) fields =
      Object.enclosed '{' '}' (blocks ++ context ++ fields.map (Field.render fallback)) := by
    rw [body, hblocks, renderAll_eq, ← close_pairs]
    simp
  rw [hbody]
  exact hcarries.compact

/-! ### Bytes -/

theorem appendAllTo_eq (fallback : Time.Format) (fields : List Field) (dst : Bytes) :
    Field.appendAllTo fallback dst fields = dst ++ utf8 (Field.renderAll fallback fields) := by
  have hcomma : utf8 [','] = [commaByte] := by decide
  rw [Field.appendAllTo]
  induction fields generalizing dst with
  | nil => simp
  | cons f fields ih =>
      have hcons : Field.renderAll fallback (f :: fields) =
          (quoted f.key ++ [':']) ++ f.value.render fallback ++ [','] ++
            Field.renderAll fallback fields := by
        simp [Field.renderAll, Field.render]
      rw [List.foldl_cons, ih, Field.appendTo, FieldValue.appendTo, hcons, ← hcomma]
      simp only [utf8_append, List.append_assoc]

/-- Writing a record behind other bytes adds its body and the separator, if the context is made of
pairs. -/
theorem appendTo_eq (dst : Bytes) (c : Config) (fallback : Time.Format) (r : Record)
    (context : List (List Char)) (leading fields : List Field) :
    r.appendTo dst c fallback (utf8 (context.flatMap (· ++ [',']))) leading fields =
      dst ++ utf8 (r.body c fallback (context.flatMap (· ++ [','])) (leading ++ fields)) ++
        utf8 c.lineSeparator.toList := by
  obtain ⟨blocks, hblocks, -⟩ := r.exists_carries_blocks c
  have hpairs : '{' :: r.blocks c ++ context.flatMap (· ++ [',']) ++
      Field.renderAll fallback (leading ++ fields) =
        '{' :: (blocks ++ context ++ (leading ++ fields).map (Field.render fallback)).flatMap
          (· ++ [',']) := by
    rw [hblocks, renderAll_eq]
    simp
  rw [body, hpairs, close_pairs, ← closeBytes_pairs, ← hpairs, appendTo]
  simp only [appendAllTo_eq, utf8_append, List.append_assoc]

/-- **Assembling a record is an exact encoding.** What the destination holds is left as it is. Behind it
come the body and the line separator. The body is UTF-8 without a byte below 32, and is one object
whose members are the enabled blocks, then the fields of the context, then those of the call, in
order, under their own names and with what their values denote. -/
theorem members_appendTo (dst : Bytes) (c : Config) (contextFormat fallback : Time.Format)
    (r : Record) {context leading fields : List Field} (hcontext : ∀ f ∈ context, f.Typed)
    (hleading : ∀ f ∈ leading, f.Typed) (hfields : ∀ f ∈ fields, f.Typed) :
    ∃ body members,
      r.appendTo dst c fallback (Field.appendAllTo contextFormat [] context) leading fields =
        dst ++ body ++ utf8 c.lineSeparator.toList ∧
      (∃ s, text? body = some s) ∧ (∀ b ∈ body, 0x20 ≤ b.toNat) ∧
      parseBytes body = .ok (.object members) ∧
      AllFound members
        (r.wantedBlocks c ++ context.map (Wanted.ofField contextFormat) ++
          leading.map (Wanted.ofField fallback) ++ fields.map (Wanted.ofField fallback)) := by
  have hall : ∀ f ∈ leading ++ fields, f.value.Sound := by
    intro f hf
    rcases List.mem_append.1 hf with hf | hf
    · exact (hleading f hf).sound
    · exact (hfields f hf).sound
  obtain ⟨members, hcompact, hfound⟩ := r.exists_compact_body c fallback
    (carries_fields contextFormat fun f hf => (hcontext f hf).sound) hall
  rw [← renderAll_eq] at hcompact
  refine ⟨utf8 (r.body c fallback (Field.renderAll contextFormat context) (leading ++ fields)),
    members, ?_, ⟨_, text?_utf8 _⟩, hcompact.visible.utf8, hcompact.parseBytes, ?_⟩
  · rw [appendAllTo_eq, List.nil_append, renderAll_eq]
    exact r.appendTo_eq dst c fallback _ leading fields
  · rw [List.map_append] at hfound
    simpa only [List.append_assoc] using hfound

/-- A message and a key that try to add members of their own, and an object that cannot be
marshalled. -/
theorem members_appendTo_forged :
    ∃ body members,
      appendTo [commaByte] {} .unix ⟨.epoch, "INFO", none, "a\",\"b\":1\x7d\n\x7b"⟩
          (Field.appendAllTo .unix [] [.string "x\":1,\"y" "z"]) [default]
          [.object "o" (.array [.int 1, .refusing "no"]) ⟨"main.rs", 3⟩] =
        [commaByte] ++ body ++ utf8 ['\n'] ∧
      parseBytes body = .ok (.object members) ∧ members.length = 7 := by
  obtain ⟨body, members, happend, -, -, hparse, hfound⟩ :=
    members_appendTo [commaByte] {} .unix .unix ⟨.epoch, "INFO", none, "a\",\"b\":1\x7d\n\x7b"⟩
      (List.forall_mem_singleton.2 (Field.Typed.string "x\":1,\"y" "z"))
      (List.forall_mem_singleton.2 Field.Typed.default)
      (List.forall_mem_singleton.2 (Field.Typed.object "o" (.array [.int 1, .refusing "no"])
        ⟨"main.rs", 3⟩ fun json hjson => by cases hjson))
  exact ⟨body, members, happend, hparse, hfound.length_eq⟩

end Record
end LineLog
