import LineLog.Pool
import Mathlib.Data.List.Basic
/-!
# LineLog.Proofs.Pool.Uses

What becomes of pooled buffers, whatever is done with them and in whatever order.

A `Use` is what a holder of buffers can do: check one out, change the contents of one, or return one. Any
number of buffers may be out at a time, so uses of different buffers follow each other in any order. A
`Desk` is the pool with the buffers that are out, each under the number of its check-out.

Design points:

* What one use does to the buffer of one ticket is said once (`Desk.buffer?_step`): it depends on that
  buffer and on uses of that ticket, and on nothing else. So over any run the buffer holds what its own
  changes made of an empty one (`Desk.buffer?_run`).
* A change may be anything, also to what is reserved, so nothing is assumed about what is left in a buffer
  when it is returned.
* A ticket is good until its buffer is returned. Using it after that does nothing.
-/

namespace LineLog

/-- What can be done with the buffers of a pool. -/
inductive Use
  | checkOut
  | change (ticket : Nat) (f : Buffer → Buffer)
  | giveBack (ticket : Nat)

/-- A pool and the buffers that are out, in the order of their check-out; none in the place of one that has
been returned. -/
structure Desk where
  pool : Pool
  held : List (Option Buffer) := []

namespace Desk

/-- A pool of this size, with nothing in it and nothing out. -/
def opened (size : Nat) : Desk where
  pool := { size := size }

/-- The buffer that is out under this ticket. -/
def buffer? (d : Desk) (ticket : Nat) : Option Buffer :=
  (d.held[ticket]?).join

/-- One use. -/
def step (d : Desk) : Use → Desk
  | .checkOut => { pool := d.pool.get.2, held := d.held ++ [some d.pool.get.1] }
  | .change ticket f => { d with held := d.held.modify ticket (Option.map f) }
  | .giveBack ticket =>
    match d.buffer? ticket with
    | none => d
    | some b => { pool := d.pool.put b, held := d.held.set ticket none }

/-- One use after the other. -/
def run (d : Desk) (uses : List Use) : Desk :=
  uses.foldl step d

@[simp] theorem run_nil (d : Desk) : d.run [] = d := rfl

@[simp] theorem run_cons (d : Desk) (u : Use) (uses : List Use) :
    d.run (u :: uses) = (d.step u).run uses := rfl

end Desk

/-! ### The pool -/

namespace Pool

/-- The pool keeps no more buffers than it has room for, and none that has grown too large. -/
structure Bounded (p : Pool) : Prop where
  length_le : p.idle.length ≤ p.size
  capacity_le : ∀ b ∈ p.idle, b.capacity ≤ Buffer.retainedCapacity

/-- A buffer that is checked out is empty. -/
theorem bytes_get (p : Pool) : p.get.1.bytes = [] := by
  rw [get]
  split <;> rfl

/-- A check-out takes the buffer that has been idle longest, if there is one. -/
theorem get_snd (p : Pool) : p.get.2 = { p with idle := p.idle.tail } := by
  obtain ⟨size, idle⟩ := p
  cases idle <;> rfl

@[simp] theorem size_put (p : Pool) (b : Buffer) : (p.put b).size = p.size := by
  rw [put]
  split <;> rfl

theorem Bounded.get {p : Pool} (h : p.Bounded) : p.get.2.Bounded := by
  rw [get_snd]
  refine ⟨?_, fun b hb => h.capacity_le b (List.mem_of_mem_tail hb)⟩
  have hlength := h.length_le
  simp only [List.length_tail]
  omega

theorem Bounded.put {p : Pool} (h : p.Bounded) (b : Buffer) : (p.put b).Bounded := by
  rw [Pool.put]
  split
  · rename_i hkept
    refine ⟨by simp; omega, ?_⟩
    intro other hother
    rcases List.mem_append.1 hother with hother | hother
    · exact h.capacity_le other hother
    · rw [List.mem_singleton.1 hother]
      exact hkept.1
  · exact h

end Pool

/-! ### Uses -/

namespace Desk

theorem step_giveBack {d : Desk} {ticket : Nat} {b : Buffer} (h : d.buffer? ticket = some b) :
    d.step (.giveBack ticket) = { pool := d.pool.put b, held := d.held.set ticket none } := by
  rw [step, h]

theorem step_giveBack_none {d : Desk} {ticket : Nat} (h : d.buffer? ticket = none) :
    d.step (.giveBack ticket) = d := by
  rw [step, h]

/-- The pool keeps its size and its bounds. -/
theorem step_bounded {d : Desk} (h : d.pool.Bounded) (u : Use) :
    (d.step u).pool.size = d.pool.size ∧ (d.step u).pool.Bounded := by
  cases u with
  | checkOut => exact ⟨by rw [step, Pool.get_snd], h.get⟩
  | change ticket f => exact ⟨rfl, h⟩
  | giveBack ticket =>
      cases hb : d.buffer? ticket with
      | none =>
          rw [step_giveBack_none hb]
          exact ⟨rfl, h⟩
      | some b =>
          rw [step_giveBack hb]
          exact ⟨d.pool.size_put b, h.put b⟩

theorem run_bounded {d : Desk} (h : d.pool.Bounded) (uses : List Use) :
    (d.run uses).pool.size = d.pool.size ∧ (d.run uses).pool.Bounded := by
  induction uses generalizing d with
  | nil => exact ⟨rfl, h⟩
  | cons u uses ih =>
      obtain ⟨hsize, hbounded⟩ := step_bounded h u
      obtain ⟨hsize', hbounded'⟩ := ih hbounded
      exact ⟨hsize'.trans hsize, hbounded'⟩

theorem held_of_buffer? {d : Desk} {ticket : Nat} {b : Buffer} (h : d.buffer? ticket = some b) :
    d.held[ticket]? = some (some b) :=
  Option.join_eq_some_iff.1 h

/-- A buffer that has just been checked out is the one that the pool gave. -/
theorem buffer?_checkOut (d : Desk) :
    (d.step .checkOut).buffer? d.held.length = some d.pool.get.1 := by
  simp [step, buffer?]

/-- What one use does to a buffer that is out: a change of its own is made, its return takes it away, and
everything else leaves it alone. -/
theorem buffer?_step {d : Desk} {ticket : Nat} {b : Buffer} (h : d.buffer? ticket = some b) (u : Use) :
    (d.step u).buffer? ticket =
      match u with
      | .checkOut => some b
      | .change t f => some (if t = ticket then f b else b)
      | .giveBack t => if t = ticket then none else some b := by
  have hheld := held_of_buffer? h
  have hlt : ticket < d.held.length := (List.getElem?_eq_some_iff.1 hheld).1
  cases u with
  | checkOut => simp [step, buffer?, List.getElem?_append_left hlt, hheld]
  | change t f => by_cases ht : t = ticket <;> simp [step, buffer?, ht, hheld]
  | giveBack t =>
      by_cases ht : t = ticket
      · rw [step_giveBack (ht ▸ h)]
        simp [buffer?, ht, hlt]
      · -- Another ticket is returned, if there is a buffer for it.
        cases hother : d.buffer? t with
        | none => simp [step_giveBack_none hother, ht, h]
        | some other => simp [step_giveBack hother, buffer?, ht, hheld]

end Desk

/-- The changes made under a ticket, in order. -/
def Use.changes (ticket : Nat) (uses : List Use) : List (Buffer → Buffer) :=
  uses.filterMap fun
    | .change t f => if t = ticket then some f else none
    | _ => none

/-- What changes make of a buffer, one after the other. -/
def Buffer.changed (b : Buffer) (changes : List (Buffer → Buffer)) : Buffer :=
  changes.foldl (fun b f => f b) b

namespace Desk

/-- **A buffer that is out holds what its own changes made of it**, whatever was done with other buffers
in between. -/
theorem buffer?_run {d : Desk} {ticket : Nat} {b : Buffer} (h : d.buffer? ticket = some b)
    {uses : List Use} (hkept : .giveBack ticket ∉ uses) :
    (d.run uses).buffer? ticket = some (b.changed (Use.changes ticket uses)) := by
  induction uses generalizing d b with
  | nil => exact h
  | cons u uses ih =>
      obtain ⟨hu, huses⟩ : Use.giveBack ticket ≠ u ∧ Use.giveBack ticket ∉ uses := by simpa using hkept
      have hstep := buffer?_step h u
      rw [run_cons]
      cases u with
      | checkOut => exact ih hstep huses
      | change t f =>
          have hrun := ih hstep huses
          by_cases ht : t = ticket <;> simpa [Use.changes, Buffer.changed, ht] using hrun
      | giveBack t =>
          have ht : t ≠ ticket := fun e => hu (by rw [e])
          dsimp only at hstep
          rw [if_neg ht] at hstep
          exact ih hstep huses

end Desk
end LineLog
