import LineLog.Text.Bytes
/-!
# LineLog.Pool

Reusable buffers.

A pool keeps idle buffers, up to a fixed number. Checking a buffer out takes the one
that has been idle longest, or makes a new one; returning a buffer keeps it if there
is room and it has not grown too large.

Design points:

* A buffer is empty when it is checked out, whatever was in it before.
* Capacities double at least when a buffer grows, so only a buffer that held more
  than the limit can be too large to keep.
-/

namespace LineLog

/-- A growing byte string with reserved space. -/
structure Buffer where
  bytes : Bytes
  capacity : Nat
  deriving Repr, DecidableEq

namespace Buffer

/-- The space reserved for a new buffer. -/
def initialCapacity : Nat := 1024

/-- The largest reserved space of a buffer that is kept. -/
def retainedCapacity : Nat := 64 * 1024

/-- A new buffer. -/
def fresh : Buffer := ⟨[], initialCapacity⟩

instance : Inhabited Buffer := ⟨fresh⟩

/-- The buffer without its contents. -/
def clear (b : Buffer) : Buffer :=
  { b with bytes := [] }

/-- The space reserved once `needed` bytes have to fit. -/
def grow (capacity needed : Nat) : Nat :=
  if needed ≤ capacity then capacity else max (2 * capacity) needed

/-- Add bytes at the end. -/
def append (b : Buffer) (more : Bytes) : Buffer :=
  let bytes := b.bytes ++ more
  ⟨bytes, grow b.capacity bytes.length⟩

end Buffer

/-- Idle buffers, the one that has been idle longest first. -/
structure Pool where
  size : Nat
  idle : List Buffer := []
  deriving Repr, DecidableEq, Inhabited

namespace Pool

/-- Check out an empty buffer. -/
def get (p : Pool) : Buffer × Pool :=
  match p.idle with
  | [] => (Buffer.fresh, p)
  | b :: rest => (b.clear, { p with idle := rest })

/-- Return a buffer. -/
def put (p : Pool) (b : Buffer) : Pool :=
  if b.capacity ≤ Buffer.retainedCapacity ∧ p.idle.length < p.size then
    { p with idle := p.idle ++ [b] }
  else p

end Pool
end LineLog
