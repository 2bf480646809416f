import LineLog.Json.Reader
/-!
# LineLog.Proofs.Json.Tree

JSON values as trees, and a **strict reader** that takes a tree off the front of a
text.

What the library writes is judged by this reader: a text is good if it is read as the
tree that it should be, whole, and with whatever follows it left unread.

Design points:

* A tree keeps what a reader of the text can see: the order of members, members of the
  same name, and a number as it is written (`Literal`).
* The reader follows the grammar of RFC 8259 and nothing beyond it. Strings and the
  parts of numbers are read by the typed readers of `LineLog.Json.Reader`.
* `Compact` is the judgement: the text is read as the tree in front of anything that
  may follow a value (`Closes`), and no control character stands in it. It is stated
  for every amount of fuel that exceeds the length of the text, so that the parts of a
  text can be put together.
-/

namespace LineLog.Json

/-- A number as it is written: its sign, its digits before and after the point, and the
exponent if it has one. -/
structure Literal where
  negative : Bool := false
  whole : List Char
  places : List Char := []
  exponent : Option Int := none
  deriving Repr, DecidableEq

/-- A JSON value. -/
inductive Tree
  | null
  | bool (b : Bool)
  | number (l : Literal)
  | string (cs : List Char)
  | array (items : List Tree)
  | object (members : List (List Char × Tree))
  deriving Inhabited

/-! ### Reading -/

/-- Reads a number behind its sign. -/
def unsignedLiteral (negative : Bool) : Reader Literal := fun cs => do
  let (whole, cs) ← integerPart cs
  let (places, cs) ← fractionPart cs
  let (exponent, cs) ← exponentPart cs
  return (⟨negative, whole, places, exponent⟩, cs)

/-- Reads a number. -/
def literal : Reader Literal
  | '-' :: cs => unsignedLiteral true cs
  | cs => unsignedLiteral false cs

mutual

/-- Reads a value. `fuel` bounds the number of values and separators on the way. -/
def treeWith : Nat → Reader Tree
  | 0, _ => .error .truncated
  | fuel + 1, cs =>
    match skipBlanks cs with
    | [] => .error .truncated
    | c :: rest =>
      if c = 'n' then (expect ['u', 'l', 'l'] rest).map (.null, ·)
      else if c = 't' then (expect ['r', 'u', 'e'] rest).map (.bool true, ·)
      else if c = 'f' then (expect ['a', 'l', 's', 'e'] rest).map (.bool false, ·)
      else if c = '"' then (stringBody rest).map fun (s, rest) => (.string s, rest)
      else if c = '[' then
        match skipBlanks rest with
        | ']' :: rest => .ok (.array [], rest)
        | rest => (itemsWith fuel rest).map fun (items, rest) => (.array items, rest)
      else if c = '{' then
        match skipBlanks rest with
        | '}' :: rest => .ok (.object [], rest)
        | rest => (membersWith fuel rest).map fun (members, rest) => (.object members, rest)
      else if c = '-' ∨ c.isDigit then
        (literal (c :: rest)).map fun (l, rest) => (.number l, rest)
      else .error .malformed

/-- Reads the items of an array up to its end. There is at least one. -/
def itemsWith : Nat → Reader (List Tree)
  | 0, _ => .error .truncated
  | fuel + 1, cs => do
    let (item, cs) ← treeWith fuel cs
    match skipBlanks cs with
    | [] => .error .truncated
    | ']' :: rest => return ([item], rest)
    | ',' :: rest =>
      let (items, rest) ← itemsWith fuel rest
      return (item :: items, rest)
    | _ => .error .malformed

/-- Reads the members of an object up to its end. There is at least one. -/
def membersWith : Nat → Reader (List (List Char × Tree))
  | 0, _ => .error .truncated
  | fuel + 1, cs => do
    let (name, cs) ← memberName cs
    match skipBlanks cs with
    | [] => .error .truncated
    | ':' :: cs =>
      let (value, cs) ← treeWith fuel cs
      match skipBlanks cs with
      | [] => .error .truncated
      | '}' :: rest => return ([(name, value)], rest)
      | ',' :: rest =>
        let (members, rest) ← membersWith fuel rest
        return ((name, value) :: members, rest)
      | _ => .error .malformed
    | _ => .error .malformed

end

/-- Reads a value. -/
def tree : Reader Tree := fun cs => treeWith (cs.length + 1) cs

/-- Reads a text that holds one value and nothing else. -/
def parse (text : List Char) : Except ReadError Tree := whole tree text

/-! ### The judgement -/

/-- What follows a value in a text without blanks: a comma, a closing bracket or brace, or nothing. -/
def Closes (rest : List Char) : Prop :=
  ∀ c ∈ rest.head?, c = ',' ∨ c = ']' ∨ c = '}'

@[simp] theorem closes_nil : Closes [] := by simp [Closes]

@[simp] theorem closes_comma (rest : List Char) : Closes (',' :: rest) := by simp [Closes]

@[simp] theorem closes_bracket (rest : List Char) : Closes (']' :: rest) := by simp [Closes]

@[simp] theorem closes_brace (rest : List Char) : Closes ('}' :: rest) := by simp [Closes]

/-- No control character stands in the text. -/
def Visible (text : List Char) : Prop :=
  ∀ c ∈ text, 0x20 ≤ c.toNat

-- Named, since characters are finitely many and all of them could be tried instead.
instance (text : List Char) : Decidable (Visible text) :=
  List.decidableBAll _ text

/-- `text` is one JSON value without control characters, and the value is `tree`. Whatever closes
the value is left unread. -/
structure Compact (text : List Char) (tree : Tree) : Prop where
  reads : ∀ fuel rest, text.length < fuel → Closes rest →
    treeWith fuel (text ++ rest) = .ok (tree, rest)
  visible : Visible text

namespace Compact

variable {text : List Char} {t : Tree}

/-- A compact value is read off the front of a text, and what closes it is left. -/
theorem tree_append (h : Compact text t) {rest : List Char} (hrest : Closes rest) :
    tree (text ++ rest) = .ok (t, rest) :=
  h.reads _ rest (Nat.lt_succ_of_le (by simp)) hrest

/-- A compact value is read with nothing left over. -/
theorem parse (h : Compact text t) : parse text = .ok t := by
  have hread := h.tree_append closes_nil
  rw [List.append_nil] at hread
  simp [Json.parse, whole, hread, skipBlanks, bind, Except.bind]

end Compact
end LineLog.Json
