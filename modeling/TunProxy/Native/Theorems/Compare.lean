import TunProxy.Native.Util

/-!
# Where `compare_u32` is the order of RFC 1982

It orders the numbers as those of an `int`, and one distance the wrong way. The order of serial numbers is only met
where no number between the two is the largest `int`, or close to it.
-/

namespace TunProxy.Native

open Lib.Serial

variable {a b c : U32}

/-- What RFC 1982 asks of a comparison, for two numbers and the same ones with `c` added. -/
structure ComparesSerially (a b c : U32) : Prop where
  same : compareU32 a b = 0 ↔ a = b
  before : compareU32 a b = -1 ↔ 0 < dist a b ∧ dist a b < 2 ^ 31
  behind : compareU32 a b = 1 ↔ 0 < dist b a ∧ dist b a < 2 ^ 31
  antisymm : dist a b ≠ 2 ^ 31 → compareU32 b a = -compareU32 a b
  shift : compareU32 (a + c) (b + c) = compareU32 a b

/-! ## Differences of `int` -/

/-- How far `b` is from `a` as numbers of type `int`, without wrapping around. -/
def intGap (a b : U32) : Int := b.toInt - a.toInt

theorem intGap_bounds (a b : U32) : -2 ^ 32 < intGap a b ∧ intGap a b < 2 ^ 32 := by
  have ha := BitVec.toInt_eq_toNat_cond a
  have hb := BitVec.toInt_eq_toNat_cond b
  have := a.isLt
  have := b.isLt
  unfold intGap
  omega

theorem intGap_neg (a b : U32) : intGap b a = -intGap a b := by
  unfold intGap
  omega

theorem intGap_eq_zero : intGap a b = 0 ↔ a = b := by
  rw [intGap, Int.sub_eq_zero, BitVec.toInt_inj]
  exact eq_comm

/-- The serial distance is the difference modulo `2 ^ 32`. -/
theorem dist_eq_intGap (a b : U32) : (dist a b : Int) = intGap a b % 2 ^ 32 := by
  have ha := BitVec.toInt_eq_toNat_cond a
  have hb := BitVec.toInt_eq_toNat_cond b
  have := a.isLt
  have := b.isLt
  rw [Lib.Serial.dist, BitVec.toNat_sub, intGap]
  omega

theorem intGap_shift (a b c : U32) : intGap (a + c) (b + c) % 2 ^ 32 = intGap a b % 2 ^ 32 := by
  have hsub : (b + c) - (a + c) = b - a := by
    rw [BitVec.add_comm a c, BitVec.add_comm b c]
    ring
  rw [← dist_eq_intGap, ← dist_eq_intGap, Lib.Serial.dist, Lib.Serial.dist, hsub]

theorem compareU32_eq (a b : U32) : compareU32 a b =
    if intGap a b = 0 then 0 else if 0 < intGap a b ∧ intGap a b ≠ 0x7FFFFFFF then -1 else 1 := by
  have hzero := compareU32_eq_zero (a := a) (b := b)
  have hneg := compareU32_neg (a := a) (b := b)
  have hrange : compareU32 a b = 0 ∨ compareU32 a b = -1 ∨ compareU32 a b = 1 := by
    unfold compareU32
    split
    · exact .inl rfl
    · simp only []
      split
      · exact .inr (.inl rfl)
      · exact .inr (.inr rfl)
  rw [← intGap_eq_zero] at hzero
  unfold intGap at hzero ⊢
  split
  · omega
  · split <;> omega

/-! ## The order -/

/-- The sign is that of RFC 1982 where the difference is one of `int`, but for the largest. -/
theorem compareU32_orders :
    ((compareU32 a b = -1 ↔ 0 < dist a b ∧ dist a b < 2 ^ 31) ∧
      (compareU32 a b = 1 ↔ 0 < dist b a ∧ dist b a < 2 ^ 31)) ↔
    -2 ^ 31 < intGap a b ∧ intGap a b < 0x7FFFFFFF := by
  have hb := intGap_bounds a b
  have hab := dist_eq_intGap a b
  have hba := dist_eq_intGap b a
  rw [intGap_neg] at hba
  rw [compareU32_eq]
  generalize intGap a b = d at *
  split
  · omega
  · split <;> omega

theorem compareU32_antisymm :
    (dist a b ≠ 2 ^ 31 → compareU32 b a = -compareU32 a b) ↔
    intGap a b ≠ 0x7FFFFFFF ∧ intGap a b ≠ -0x7FFFFFFF := by
  have hb := intGap_bounds a b
  have hab := dist_eq_intGap a b
  rw [compareU32_eq, compareU32_eq, intGap_neg]
  generalize intGap a b = d at *
  by_cases hd : d = 0
  · rw [if_pos hd, if_pos (by omega)]
    omega
  · rw [if_neg hd, if_neg (by omega)]
    split
    · split <;> omega
    · split <;> omega

/-- Adding a number keeps the result where it carries neither number, or both, over the largest `int`. -/
theorem compareU32_shift (h : -0x7FFFFFFF < intGap a b ∧ intGap a b < 0x7FFFFFFF) :
    compareU32 (a + c) (b + c) = compareU32 a b ↔ intGap (a + c) (b + c) = intGap a b := by
  have hb := intGap_bounds (a + c) (b + c)
  have hshift := intGap_shift a b c
  rw [compareU32_eq, compareU32_eq]
  generalize intGap (a + c) (b + c) = d' at *
  generalize intGap a b = d at *
  by_cases hd : d = 0
  · rw [if_pos hd]
    split
    · omega
    · split <;> omega
  · rw [if_neg hd]
    split
    · split <;> omega
    · split
      · split <;> omega
      · split <;> omega

/-- `compare_u32` compares like RFC 1982 exactly where the numbers are less than the largest `int` apart as numbers of
type `int`, before and after the addition. -/
theorem compareU32_serial_iff (a b c : U32) :
    ComparesSerially a b c ↔
      (-0x7FFFFFFF < intGap a b ∧ intGap a b < 0x7FFFFFFF) ∧ intGap (a + c) (b + c) = intGap a b := by
  constructor
  · intro h
    have hord := compareU32_orders.1 ⟨h.before, h.behind⟩
    have hanti := compareU32_antisymm.1 h.antisymm
    have hgap : -0x7FFFFFFF < intGap a b ∧ intGap a b < 0x7FFFFFFF := by omega
    exact ⟨hgap, (compareU32_shift hgap).1 h.shift⟩
  · rintro ⟨hgap, hshift⟩
    obtain ⟨hbefore, hbehind⟩ := compareU32_orders.2 (show -2 ^ 31 < intGap a b ∧ intGap a b < 0x7FFFFFFF by omega)
    exact ⟨compareU32_eq_zero, hbefore, hbehind, compareU32_antisymm.2 (by omega), (compareU32_shift hgap).2 hshift⟩

/-- The number after the largest `int` comes before it. -/
theorem compareU32_not_serial :
    ¬ ComparesSerially 0x7FFFFFFF 0x80000000 0 ∧ dist (0x7FFFFFFF : U32) 0x80000000 = 1 ∧
      compareU32 0x7FFFFFFF 0x80000000 = 1 := by
  refine ⟨fun h => ?_, by decide, by decide⟩
  have := h.before.2 (by decide)
  revert this
  decide

end TunProxy.Native
