import LineLog.Proofs.Json.Enclosed
import LineLog.Proofs.Json.Floating
/-!
# LineLog.Proofs.Value.Marshal

What a structured value is marshalled to is one compact JSON value.

The library writes all of the text itself, except for the parts of values that bring
encoders of their own (`Object.verbatims`). So the text is compact as soon as those
parts are, and a value without such parts needs no assumption at all.

The proof follows the nesting of values: one statement for values, one for the items
of an array, one for the members of a map, by mutual recursion.
-/

namespace LineLog

open Text Json

theorem map_eq_ok {α β ε : Type} {f : α → β} {x : Except ε α} {b : β} (h : x.map f = .ok b) :
    ∃ a, x = .ok a ∧ f a = b := by
  cases x with
  | error e => simp [Except.map] at h
  | ok a => exact ⟨a, rfl, Except.ok.inj h⟩

namespace Object

mutual

/-- The texts that encoders of their own answer inside a value. -/
def verbatims : Object → List (List Char)
  | verbatim json => [json]
  | array items => verbatimsOfItems items
  | map members => verbatimsOfMembers members
  | null | bool _ | int _ | uint _ | float _ | text _ | refusing _ => []

/-- The texts that encoders of their own answer inside the items of an array. -/
def verbatimsOfItems : List Object → List (List Char)
  | [] => []
  | item :: items => item.verbatims ++ verbatimsOfItems items

/-- The texts that encoders of their own answer inside the values of members. -/
def verbatimsOfMembers : List (Object × Object) → List (List Char)
  | [] => []
  | (_, value) :: members => value.verbatims ++ verbatimsOfMembers members

end

/-- A key is a quoted text. -/
theorem key_quoted {k : Object} {name : List Char} (h : k.key = .ok name) :
    ∃ cs, name = quote cs := by
  cases k with
  | text s => exact ⟨s.toList, (Except.ok.inj h).symm⟩
  | int n => exact ⟨_, (Except.ok.inj h).symm⟩
  | uint n => exact ⟨_, (Except.ok.inj h).symm⟩
  | bool b => exact ⟨_, (Except.ok.inj h).symm⟩
  | float x =>
      rw [key] at h
      split at h
      · exact ⟨_, (Except.ok.inj h).symm⟩
      · simp at h
  | null => simp [key] at h
  | array items => simp [key] at h
  | map members => simp [key] at h
  | refusing message => simp [key] at h
  | verbatim json => simp [key] at h

/-- The text of a floating-point number is compact. -/
theorem exists_compact_floatText (x : Float) : ∃ t, Compact (floatText x) t := by
  rw [floatText]
  split
  · obtain ⟨n, hn, -⟩ := exists_compact_finite .compact .double ‹_›
    exact ⟨_, hn⟩
  · exact ⟨_, .null⟩

/-! ### What succeeds -/

/-- Marshalling is all or nothing: if the items are marshalled, each of them is. -/
theorem marshalItems_cons {item : Object} {items : List Object} {texts : List (List Char)}
    (h : marshalItems (item :: items) = .ok texts) :
    ∃ first rest, item.marshal = .ok first ∧ marshalItems items = .ok rest ∧
      texts = first :: rest := by
  rw [marshalItems] at h
  cases hitem : item.marshal with
  | error e => simp [hitem, bind, Except.bind] at h
  | ok first =>
      cases hitems : marshalItems items with
      | error e => simp [hitem, hitems, bind, Except.bind] at h
      | ok rest =>
          rw [hitem, hitems] at h
          exact ⟨first, rest, rfl, rfl, (Except.ok.inj h).symm⟩

/-- If the members are marshalled, each of them is, under a key that can be one. -/
theorem marshalMembers_cons {k v : Object} {members : List (Object × Object)}
    {texts : List (List Char)} (h : marshalMembers ((k, v) :: members) = .ok texts) :
    ∃ cs value rest, k.key = .ok (quote cs) ∧ v.marshal = .ok value ∧
      marshalMembers members = .ok rest ∧ texts = (quote cs ++ ':' :: value) :: rest := by
  rw [marshalMembers] at h
  cases hkey : k.key with
  | error e => simp [hkey, bind, Except.bind] at h
  | ok name =>
      obtain ⟨cs, rfl⟩ := key_quoted hkey
      cases hvalue : v.marshal with
      | error e => simp [hkey, hvalue, bind, Except.bind] at h
      | ok value =>
          cases hmembers : marshalMembers members with
          | error e => simp [hkey, hvalue, hmembers, bind, Except.bind] at h
          | ok rest =>
              rw [hkey, hvalue, hmembers] at h
              exact ⟨cs, value, rest, rfl, rfl, rfl, (Except.ok.inj h).symm⟩

/-! ### Values, items and members -/

mutual

/-- **What a value is marshalled to is one compact JSON value**, given that the texts which the
library does not write are. -/
theorem exists_compact_marshal (o : Object) (h : ∀ json ∈ o.verbatims, ∃ t, Compact json t)
    {text : List Char} (hm : o.marshal = .ok text) : ∃ t, Compact text t := by
  cases o with
  | null =>
      obtain rfl := Except.ok.inj hm
      exact ⟨.null, .null⟩
  | bool b =>
      obtain rfl := Except.ok.inj hm
      exact ⟨.bool b, .bool b⟩
  | int n =>
      obtain rfl := Except.ok.inj hm
      exact ⟨.number (.ofInt n.toInt), .integer n.toInt⟩
  | uint n =>
      obtain rfl := Except.ok.inj hm
      exact ⟨.number (.ofInt n.toNat), .integer n.toNat⟩
  | float x =>
      obtain rfl := Except.ok.inj hm
      exact exists_compact_floatText x
  | text s =>
      obtain rfl := Except.ok.inj hm
      exact ⟨.string s.toList, .quote s.toList⟩
  | refusing message => simp [marshal] at hm
  | verbatim json =>
      obtain rfl := Except.ok.inj hm
      exact h json (by simp [verbatims])
  | array items =>
      rw [marshal] at hm
      obtain ⟨texts, hitems, rfl⟩ := map_eq_ok hm
      obtain ⟨trees, htrees⟩ := exists_compact_marshalItems items h hitems
      exact ⟨.array trees, .array htrees⟩
  | map members =>
      rw [marshal] at hm
      obtain ⟨texts, hmembers, rfl⟩ := map_eq_ok hm
      obtain ⟨trees, htrees⟩ := exists_compact_marshalMembers members h hmembers
      exact ⟨.object trees, .object htrees⟩

theorem exists_compact_marshalItems (items : List Object)
    (h : ∀ json ∈ verbatimsOfItems items, ∃ t, Compact json t) {texts : List (List Char)}
    (hm : marshalItems items = .ok texts) : ∃ trees, List.Forall₂ Compact texts trees := by
  cases items with
  | nil =>
      rw [marshalItems] at hm
      obtain rfl := Except.ok.inj hm
      exact ⟨[], .nil⟩
  | cons item items =>
      obtain ⟨first, rest, hitem, hitems, rfl⟩ := marshalItems_cons hm
      rw [verbatimsOfItems] at h
      obtain ⟨t, ht⟩ := exists_compact_marshal item
        (fun json hj => h json (List.mem_append_left _ hj)) hitem
      obtain ⟨trees, htrees⟩ := exists_compact_marshalItems items
        (fun json hj => h json (List.mem_append_right _ hj)) hitems
      exact ⟨t :: trees, .cons ht htrees⟩

theorem exists_compact_marshalMembers (members : List (Object × Object))
    (h : ∀ json ∈ verbatimsOfMembers members, ∃ t, Compact json t) {texts : List (List Char)}
    (hm : marshalMembers members = .ok texts) :
    ∃ trees, List.Forall₂ CompactMember texts trees := by
  cases members with
  | nil =>
      rw [marshalMembers] at hm
      obtain rfl := Except.ok.inj hm
      exact ⟨[], .nil⟩
  | cons member members =>
      obtain ⟨k, v⟩ := member
      obtain ⟨cs, value, rest, hkey, hvalue, hmembers, rfl⟩ := marshalMembers_cons hm
      rw [verbatimsOfMembers] at h
      obtain ⟨t, ht⟩ := exists_compact_marshal v
        (fun json hj => h json (List.mem_append_left _ hj)) hvalue
      obtain ⟨trees, htrees⟩ := exists_compact_marshalMembers members
        (fun json hj => h json (List.mem_append_right _ hj)) hmembers
      exact ⟨(cs, t) :: trees, .cons (.of ht) htrees⟩

end

end Object
end LineLog
