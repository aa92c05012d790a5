import TunProxy.Native.Types

/-!
# Byte buffers

What the tunnels use of `java.nio.ByteBuffer`.
-/

namespace TunProxy.Relay

open Native (Bytes)

structure ByteBuffer where
  array : Bytes
  position : Nat
  limit : Nat
  position_le : position ≤ limit
  limit_le : limit ≤ array.length
  deriving DecidableEq, Repr

namespace ByteBuffer

variable {b b' : ByteBuffer} {bytes : Bytes} {n : Nat}

def allocate (capacity : Nat) : ByteBuffer :=
  { array := List.replicate capacity 0, position := 0, limit := capacity, position_le := by omega
    limit_le := by simp }

def capacity (b : ByteBuffer) : Nat := b.array.length

def remaining (b : ByteBuffer) : Nat := b.limit - b.position

def hasRemaining (b : ByteBuffer) : Bool := b.position < b.limit

/-- The bytes between position and limit. -/
def rest (b : ByteBuffer) : Bytes := (b.array.drop b.position).take b.remaining

def clear (b : ByteBuffer) : ByteBuffer :=
  { b with position := 0, limit := b.array.length, position_le := by omega, limit_le := by omega }

def flip (b : ByteBuffer) : ByteBuffer :=
  { b with position := 0, limit := b.position, position_le := by omega
           limit_le := by have := b.position_le; have := b.limit_le; omega }

/-- The buffer after `n` bytes of the rest were taken out of it. -/
def advance (b : ByteBuffer) (n : Nat) : ByteBuffer :=
  { b with position := b.position + min n b.remaining
           position_le := by have := b.position_le; unfold remaining; omega }

/-- `limit(n)`: none where it throws. The position moves back with the limit. -/
def setLimit (b : ByteBuffer) (n : Nat) : Option ByteBuffer :=
  if h : n ≤ b.array.length then
    some { b with position := min b.position n, limit := n, position_le := by omega, limit_le := h }
  else none

/-- `put`: none where it throws. -/
def put (b : ByteBuffer) (bytes : Bytes) : Option ByteBuffer :=
  if h : bytes.length ≤ b.remaining then
    some { b with
      array := b.array.take b.position ++ bytes ++ b.array.drop (b.position + bytes.length)
      position := b.position + bytes.length
      position_le := by have := b.position_le; unfold remaining at h; omega
      limit_le := by
        have := b.position_le
        have := b.limit_le
        unfold remaining at h
        simp only [List.length_append, List.length_take, List.length_drop]
        omega }
  else none

/-! ## The rest of a buffer -/

theorem rest_length : b.rest.length = b.remaining := by
  have := b.limit_le
  simp only [rest, List.length_take, List.length_drop]
  unfold remaining
  omega

theorem hasRemaining_iff : b.hasRemaining = true ↔ b.rest ≠ [] := by
  rw [ne_eq, ← List.length_eq_zero_iff, rest_length, remaining, hasRemaining, decide_eq_true_eq]
  omega

theorem rest_of_not_hasRemaining (h : ¬b.hasRemaining = true) : b.rest = [] := by
  by_contra hne
  exact h (hasRemaining_iff.2 hne)

theorem advance_rest : (b.advance n).rest = b.rest.drop n := by
  simp only [rest, advance, remaining, List.drop_take, List.drop_drop]
  rcases Nat.le_total n (b.limit - b.position) with h | h
  · rw [Nat.min_eq_left h]
    congr 1
    omega
  · rw [show b.limit - (b.position + min n (b.limit - b.position)) = 0 by omega,
      show b.limit - b.position - n = 0 by omega]
    rfl

theorem advance_advance {m : Nat} : (b.advance n).advance m = b.advance (n + m) := by
  simp only [advance, remaining, mk.injEq, true_and, and_true]
  omega

theorem advance_zero : b.advance 0 = b := by simp [advance]

/-- What was put into a cleared buffer is its rest after `flip`. -/
theorem flip_put (h : b.clear.put bytes = some b') : b'.flip.rest = bytes := by
  unfold put at h
  split at h
  · rw [← Option.some.inj h]
    simp [rest, flip, clear, remaining]
  · cases h

/-- A limit `n` bytes from the position. -/
theorem setLimit_rest (hn : n ≤ b.remaining) (h : b.setLimit (b.position + n) = some b') :
    b'.rest = b.rest.take n := by
  unfold setLimit at h
  split at h
  · rw [← Option.some.inj h]
    simp only [rest, remaining, List.take_take]
    congr 1
    · unfold remaining at hn
      omega
    · congr 1
      omega
  · cases h

/-- The old limit set again, after some bytes were taken out. -/
theorem setLimit_back {m : Nat} (hn : n ≤ b.remaining) (h : b.setLimit (b.position + n) = some b') :
    (b'.advance m).setLimit b.limit = some (b.advance (min m n)) := by
  unfold setLimit at h
  split at h
  · rw [← Option.some.inj h]
    have := b.position_le
    unfold remaining at hn
    simp only [setLimit, advance, remaining, b.limit_le, ↓reduceDIte, Option.some.injEq, mk.injEq, true_and, and_true]
    omega
  · cases h

end ByteBuffer

end TunProxy.Relay
