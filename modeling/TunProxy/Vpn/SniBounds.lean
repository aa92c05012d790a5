import TunProxy.Vpn.Host

/-!
# The bytes that `getSNI` reads

`getSNI` of `HttpHostHeaderParser` with the cursor that it has, an `int` that wraps around.
-/

namespace TunProxy.Vpn

open Native (Bytes)

/-- The value that an `int` keeps. -/
def int (x : Int) : Int := (x + 2 ^ 31) % 2 ^ 32 - 2 ^ 31

/-- The longest array that is asked for: a few words of the `Integer.MAX_VALUE` are for the virtual machine. -/
def MAX_ARRAY_SIZE : Nat := 2 ^ 31 - 1 - 8

/-- A `byte[]`. -/
structure ByteArr where
  bytes : Bytes
  length_le : bytes.length ≤ MAX_ARRAY_SIZE

inductive SniFault where
  /-- An exception, as for every access outside the array. -/
  | thrown
  /-- An access in the array, but outside the range that was given. -/
  | stray
  /-- The loop has not ended. -/
  | spins
  deriving DecidableEq, Repr

/-- The part of an array that `getSNI` is called for. -/
structure Range where
  buffer : ByteArr
  start : Nat
  count : Nat
  inside : start + count ≤ buffer.bytes.length

namespace Range

def limit (r : Range) : Int := int (r.start + r.count)

/-- `buffer[i]`. -/
def read (r : Range) (i : Int) : Except SniFault UInt8 :=
  if i < 0 ∨ r.buffer.bytes.length ≤ i then .error .thrown
  else if i < r.start ∨ r.start + r.count ≤ i then .error .stray
  else .ok (r.buffer.bytes.getD i.toNat 0)

/-- `CommonMethods.readShort`, with `& 0xFFFF`. -/
def readShort (r : Range) (i : Int) : Except SniFault Nat := do
  let h ← r.read i
  let l ← r.read (int (i + 1))
  return 256 * h.toNat + l.toNat

/-- `new String(buffer, i, length)`. -/
def newString (c : Charset) (r : Range) (i length : Int) : Except SniFault (List Char) :=
  if i < 0 ∨ length < 0 ∨ r.buffer.bytes.length - length < i then .error .thrown
  else if 0 < length ∧ (i < r.start ∨ r.start + r.count < i + length) then .error .stray
  else .ok (c.decode ((r.buffer.bytes.drop i.toNat).take length.toNat))

/-- The loop over the extensions. -/
def sniOfExtensions (c : Charset) (r : Range) : (rounds : Nat) → (offset : Int) → Except SniFault (Option (List Char))
  | 0, _ => .error .spins
  | rounds + 1, offset =>
      if int (offset + 4) ≤ r.limit then do
        let type0 ← r.read offset
        let offset := int (offset + 1)
        let type1 ← r.read offset
        let offset := int (offset + 1)
        let length ← r.readShort offset
        let offset := int (offset + 2)
        if type0 = 0 ∧ type1 = 0 ∧ length > 5 then
          let offset := int (offset + 5)
          if int (offset + (length - 5)) > r.limit then return none
          return some (← r.newString c offset (length - 5))
        else sniOfExtensions c r rounds (int (offset + length))
      else return none

/-- Each round moves the cursor by four bytes or more, so that the length of the range is enough for the rounds. -/
def getSNI (c : Charset) (r : Range) : Except SniFault (Option (List Char)) := do
  if r.count > 43 then
    if (← r.read r.start) ≠ 0x16 then return none
    let offset := int (r.start + 43)
    if int (offset + 1) > r.limit then return none
    let sessionIDLength ← r.read offset
    let offset := int (int (offset + 1) + sessionIDLength.toNat)
    if int (offset + 2) > r.limit then return none
    let cipherSuitesLength ← r.readShort offset
    let offset := int (int (offset + 2) + cipherSuitesLength)
    if int (offset + 1) > r.limit then return none
    let compressionMethodLength ← r.read offset
    let offset := int (int (offset + 1) + compressionMethodLength.toNat)
    if offset = r.limit then return none
    if int (offset + 2) > r.limit then return none
    let extensionsLength ← r.readShort offset
    let offset := int (offset + 2)
    if int (offset + extensionsLength) > r.limit then return none
    r.sniOfExtensions c r.count offset
  else return none

end Range

end TunProxy.Vpn
