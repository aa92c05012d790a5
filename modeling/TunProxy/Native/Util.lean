import TunProxy.Native.Types
import TunProxy.Lib.Serial

/-!
# Helpers of `util.c`
-/

namespace TunProxy.Native

open TunProxy.Lib.Serial

/-- `compare_u32`. The differences are those of `int`, which wrap around. -/
def compareU32 (s1 s2 : U32) : Int :=
  if s1 = s2 then 0
  else
    let i1 := s1.toInt
    let i2 := s2.toInt
    if (i1 < i2 ∧ (s2 - s1).toInt < 0x7FFFFFFF) ∨ (i1 > i2 ∧ (s1 - s2).toInt > 0x7FFFFFFF) then -1
    else 1

/-- A `ssize_t` converted to `size_t`. -/
def toSize (n : Int) : Nat := (n % 2 ^ 64).toNat

/-- `send`, `sendto` and `recv` fail on the descriptor -1. -/
def onSocket (socket ret : Int) : Int := if socket < 0 then -1 else ret

/-- What `recv` into a buffer of `size` bytes returns. -/
def RecvResult.upTo (size : Nat) : RecvResult → RecvResult
  | .fail errno => .fail errno
  | .got bytes => .got (bytes.take size)

/-- `calc_checksum`, on a little-endian machine. Two rounds of the last loop are enough. -/
def calcChecksum (start : Nat) (buffer : Bytes) : Nat :=
  let rec words : Bytes → Nat
    | a :: b :: rest => a.toNat + 256 * b.toNat + words rest
    | [a] => a.toNat
    | [] => 0
  let fold n := n % 2 ^ 16 + n / 2 ^ 16
  fold (fold ((start + words buffer) % 2 ^ 32))

/-- How the timeouts shrink as the number of sessions grows. -/
def scaleTimeout (timeout sessions maxsessions : Int) : Int :=
  let scale := 100 - (sessions * 100).tdiv maxsessions
  (timeout * scale).tdiv 100

/-! ## What `compare_u32` computes -/

theorem compareU32_self (a : U32) : compareU32 a a = 0 := by simp [compareU32]

theorem compareU32_eq_zero {a b : U32} : compareU32 a b = 0 ↔ a = b := by
  unfold compareU32
  split
  · simp_all
  · rename_i h
    simp only [h, iff_false]
    split <;> decide

/-- The second alternative of the test never holds: this is the order of `int`, but for one distance. -/
theorem compareU32_neg {a b : U32} :
    compareU32 a b < 0 ↔ a.toInt < b.toInt ∧ b.toInt - a.toInt ≠ 0x7FFFFFFF := by
  unfold compareU32
  have ha := BitVec.toInt_eq_toNat_cond a
  have hb := BitVec.toInt_eq_toNat_cond b
  have h1 := BitVec.toInt_eq_toNat_cond (b - a)
  have h2 := BitVec.toInt_eq_toNat_cond (a - b)
  rw [BitVec.toNat_sub] at h1 h2
  have := a.isLt
  have := b.isLt
  split
  · rename_i h; subst h; simp
  · rename_i h
    have hne : a.toNat ≠ b.toNat := fun h' => h (BitVec.eq_of_toNat_eq h')
    simp only []
    split <;> omega

theorem compareU32_pos {a b : U32} :
    0 < compareU32 a b ↔ b.toInt < a.toInt ∨ b.toInt - a.toInt = 0x7FFFFFFF := by
  have hn := compareU32_neg (a := a) (b := b)
  have hz := compareU32_eq_zero (a := a) (b := b)
  have hi : a = b ↔ a.toInt = b.toInt := BitVec.toInt_inj.symm
  rw [hi] at hz
  omega

end TunProxy.Native
