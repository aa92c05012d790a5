import TunProxy.Lib.Bytes
import TunProxy.Lib.Throws
import TunProxy.Native.Types

/-!
# Byte buffers

What `tun.proxy.dns` uses of `java.nio.ByteBuffer` to read. Indexes of the source are relative to
`arrayOffset`; `wrap` makes a buffer whose `arrayOffset` is 0, wherever in the array it starts.
-/

namespace TunProxy.Dns

open Native (Bytes)
open Lib.Bytes

/-- What decoding throws. `stackOverflow` is the error of a recursion that does not end. -/
inductive Thrown
  | bufferUnderflow | indexOutOfBounds | negativeArraySize | stackOverflow
  deriving DecidableEq, Repr

structure ByteBuffer where
  array : Bytes
  arrayOffset : Nat
  position : Nat
  limit : Nat
  position_le : position ≤ limit := by decide
  limit_le : arrayOffset + limit ≤ array.length := by decide
  deriving Repr

/-- A method that reads from a buffer. -/
abbrev Read := EStateM Thrown ByteBuffer

namespace ByteBuffer

def remaining (b : ByteBuffer) : Nat := b.limit - b.position

def skip (b : ByteBuffer) (n : Nat) (h : b.position + n ≤ b.limit) : ByteBuffer :=
  { b with position := b.position + n, position_le := h }

/-- `get(byte[])` for an array of `n` bytes. -/
def getBytes (n : Nat) : Read Bytes := fun b =>
  if h : b.position + n ≤ b.limit then .ok (slice (b.arrayOffset + b.position) n b.array) (b.skip n h)
  else .error .bufferUnderflow b

/-- `get()` -/
def getByte : Read UInt8 := fun b =>
  if h : b.position + 1 ≤ b.limit then
    have := b.limit_le
    .ok b.array[b.arrayOffset + b.position] (b.skip 1 h)
  else .error .bufferUnderflow b

def getShort : Read (BitVec 16) := do return BitVec.ofNat 16 (ofBE (← getBytes 2))

def getInt : Read (BitVec 32) := do return BitVec.ofNat 32 (ofBE (← getBytes 4))

/-- The slice of the array from `arrayOffset` on with its limit set, to be read from the beginning. none where
`limit(n)` throws. -/
def ofSlice (array : Bytes) (arrayOffset limit : Nat) : Option ByteBuffer :=
  if h : arrayOffset + limit ≤ array.length then
    some { array, arrayOffset, position := 0, limit, position_le := Nat.zero_le limit, limit_le := h }
  else none

/-- none where it throws an `IndexOutOfBoundsException`. -/
def wrap (array : Bytes) (offset length : Nat) : Option ByteBuffer :=
  if h : offset + length ≤ array.length then
    some { array, arrayOffset := 0, position := offset, limit := offset + length
           position_le := Nat.le_add_right offset length, limit_le := by omega }
  else none

end ByteBuffer

end TunProxy.Dns
