import Mathlib.Data.BitVec
import Mathlib.Tactic.Ring

/-!
# Serial numbers

Sequence numbers of `w` bits that wrap around: the distance from one number to another, going up,
and the order of RFC 1982 it defines.
-/

namespace TunProxy.Lib.Serial

variable {w : Nat} {a b c : BitVec w} {n : Nat}

/-- How far `b` is from `a`, counting upwards modulo `2 ^ w`. -/
def dist (a b : BitVec w) : Nat := (b - a).toNat

/-- `a` is strictly before `b` in the order of RFC 1982. -/
def Before (a b : BitVec w) : Prop := 0 < dist a b ∧ dist a b < 2 ^ (w - 1)

/-- `b` is at or after `a` in the order of RFC 1982. -/
def NotBefore (b a : BitVec w) : Prop := dist a b < 2 ^ (w - 1)

instance : Decidable (Before a b) := inferInstanceAs (Decidable (_ ∧ _))
instance : Decidable (NotBefore b a) := inferInstanceAs (Decidable (_ < _))

theorem dist_lt (a b : BitVec w) : dist a b < 2 ^ w := (b - a).isLt

@[simp] theorem dist_self (a : BitVec w) : dist a a = 0 := by simp [dist]

theorem add_dist (a b : BitVec w) : a + BitVec.ofNat w (dist a b) = b := by
  rw [dist, BitVec.ofNat_toNat, BitVec.setWidth_eq, BitVec.add_comm, BitVec.sub_add_cancel]

theorem dist_eq_zero : dist a b = 0 ↔ a = b := by
  constructor
  · intro h
    have := add_dist a b
    simpa [h] using this
  · rintro rfl; exact dist_self a

theorem dist_add (a : BitVec w) (n : Nat) : dist a (a + BitVec.ofNat w n) = n % 2 ^ w := by
  rw [dist, BitVec.add_comm, BitVec.add_sub_cancel, BitVec.toNat_ofNat]

theorem dist_add_of_lt (h : n < 2 ^ w) : dist a (a + BitVec.ofNat w n) = n := by
  rw [dist_add, Nat.mod_eq_of_lt h]

/-- The number before `a + 1` is the farthest from it. -/
theorem dist_succ_self (a : BitVec w) : dist (a + 1) a = 2 ^ w - 1 := by
  have h : a - (a + 1) = -1#w := by
    change a - (a + 1) = -1
    ring
  rw [dist, h, BitVec.neg_one_eq_allOnes, BitVec.toNat_allOnes]

/-- Numbers at the same distance are the same. -/
theorem dist_inj (h : dist a b = dist a c) : b = c := by
  rw [← add_dist a b, h, add_dist]

/-- Distances add up as long as they do not go once around. -/
theorem dist_trans (h : dist a b + dist b c < 2 ^ w) : dist a c = dist a b + dist b c := by
  have hsum : c - a = (b - a) + (c - b) := by ring
  rw [dist, hsum, BitVec.toNat_add]
  exact Nat.mod_eq_of_lt h

/-- The rest of the way to `c` when `b` lies on it. -/
theorem dist_of_le (h : dist a b ≤ dist a c) : dist b c = dist a c - dist a b := by
  have hlt := dist_lt a c
  have hd : dist b (b + BitVec.ofNat w (dist a c - dist a b)) = dist a c - dist a b :=
    dist_add_of_lt (by omega)
  have hc : c = b + BitVec.ofNat w (dist a c - dist a b) := by
    refine dist_inj (a := a) ?_
    rw [dist_trans (b := b) (c := b + _) (by omega), hd]
    omega
  rw [← hd, ← hc]

theorem NotBefore.refl (a : BitVec w) : NotBefore a a := by
  rw [NotBefore, dist_self]; exact Nat.two_pow_pos _

end TunProxy.Lib.Serial
