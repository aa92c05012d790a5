import TunProxy.Native.Theorems.Checksum
import TunProxy.Vpn.Lemmas.Packet

/-!
# The native and the Java checksum

One adds little-endian words in 32 bits, the other one big-endian words, with the odd byte at the other end.
-/

namespace TunProxy.Vpn

open Native (Bytes calcChecksum)
open Lib.Bytes Lib.OnesComplement CommonMethods

def swapBytes (v : BitVec 16) : BitVec 16 := BitVec.ofNat 16 (v.toNat % 256 * 256 + v.toNat / 256)

/-- Up to this length the words cannot leave 32 bits. -/
def SUM_MAX : Nat := 131072

theorem calcChecksum_zero {b : Bytes} (h : b.length ≤ SUM_MAX) : calcChecksum 0 b = canon (wordSumLE b) := by
  have hle := wordSumLE_le (l := b)
  unfold SUM_MAX at h
  rw [Native.calcChecksum_eq (by omega), Nat.zero_add]

theorem checksum_zero (b : Bytes) :
    checksum 0 b 0 b.length = some (BitVec.ofNat 16 (65535 - canon (wordSum b))) := by
  rw [checksum_eq (by omega), slice_full rfl, Nat.zero_add]

/-- The complement undoes that of `checksum`. -/
theorem not_complement {n : Nat} (h : n ≤ 65535) : ~~~ BitVec.ofNat 16 (65535 - n) = BitVec.ofNat 16 n := by
  apply BitVec.eq_of_toNat_eq
  rw [BitVec.toNat_not, BitVec.toNat_ofNat, BitVec.toNat_ofNat]
  omega

theorem swapBytes_canon (b : Bytes) :
    swapBytes (BitVec.ofNat 16 (canon (wordSumLE b))) = BitVec.ofNat 16 (canon (wordSum b)) := by
  have hle : canon (wordSumLE b) ≤ 65535 := canon_le
  rw [swapBytes, BitVec.toNat_ofNat, Nat.mod_eq_of_lt (show canon (wordSumLE b) < 2 ^ 16 by omega), ← canon_wordSum]

/-- A prefix of whole words can be summed up before the rest. -/
theorem calcChecksum_append {a c : Bytes} (ha : a.length % 2 = 0) (h : a.length + c.length ≤ SUM_MAX) :
    calcChecksum (calcChecksum 0 a) c = calcChecksum 0 (a ++ c) := by
  have hlen : (a ++ c).length = a.length + c.length := List.length_append
  have hc := wordSumLE_le (l := c)
  have hle : canon (wordSumLE a) ≤ 65535 := canon_le
  rw [calcChecksum_zero (b := a) (by omega), calcChecksum_zero (b := a ++ c) (by omega), wordSumLE_append ha]
  rcases Nat.eq_zero_or_pos a.length with h0 | hpos
  · have hnil : a = [] := List.length_eq_zero_iff.1 h0
    unfold SUM_MAX at h
    subst hnil
    rw [Native.calcChecksum_eq (by simp [wordSumLE, canon]; omega), canon_canon_add]
  · unfold SUM_MAX at h
    rw [Native.calcChecksum_eq (by omega), canon_canon_add]

/-- The two checksums of any bytes agree, but for the order of the bytes and the complement; and the native one of a
string is that of its second part, started with that of its first. -/
theorem checksums_agree :
    (∀ b : Bytes, b.length ≤ 65535 → ∃ crc, checksum 0 b 0 b.length = some crc ∧
      swapBytes (BitVec.ofNat 16 (calcChecksum 0 b)) = ~~~ crc) ∧
    ∀ a c : Bytes, a.length % 2 = 0 → a.length + c.length ≤ SUM_MAX →
      calcChecksum (calcChecksum 0 a) c = calcChecksum 0 (a ++ c) := by
  refine ⟨fun b h => ⟨_, checksum_zero b, ?_⟩, fun a c => calcChecksum_append⟩
  rw [calcChecksum_zero (h.trans (by decide)), swapBytes_canon, not_complement canon_le]

/-- Three bytes, and a sum of words that is all ones. -/
theorem checksums_agree_odd :
    (∃ crc, checksum 0 [0xFE, 0x01, 0x02] 0 3 = some crc ∧
      swapBytes (BitVec.ofNat 16 (calcChecksum 0 [0xFE, 0x01, 0x02])) = ~~~ crc) ∧
    calcChecksum (calcChecksum 0 [0xFF, 0xFE]) [0x00, 0x01] = calcChecksum 0 ([0xFF, 0xFE] ++ [0x00, 0x01]) :=
  ⟨checksums_agree.1 [0xFE, 0x01, 0x02] (by decide), checksums_agree.2 [0xFF, 0xFE] [0x00, 0x01] rfl (by decide)⟩

end TunProxy.Vpn
