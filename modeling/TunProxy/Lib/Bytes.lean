import Mathlib.Data.List.Basic
import Mathlib.Tactic.Ring

/-!
# Fields of byte strings

Big-endian numbers, the bytes of a range, and the overwriting of a range: what is read after a write, inside
the range and beside it.
-/

namespace TunProxy.Lib.Bytes

variable {w n i j off len : Nat} {x y : UInt8} {l b c : List UInt8}

/-! ## Big-endian numbers -/

/-- The last `w` bytes of `n`, most significant first. -/
def toBE : Nat → Nat → List UInt8
  | 0, _ => []
  | w + 1, n => UInt8.ofNat (n / 256 ^ w) :: toBE w n

def ofBE (l : List UInt8) : Nat := l.foldl (fun n x => 256 * n + x.toNat) 0

@[simp] theorem length_toBE : (toBE w n).length = w := by
  induction w with
  | zero => rfl
  | succ w ih => simp [toBE, ih]

@[simp] theorem ofBE_nil : ofBE [] = 0 := rfl

theorem ofBE_foldl (n : Nat) :
    l.foldl (fun n x => 256 * n + x.toNat) n = n * 256 ^ l.length + ofBE l := by
  induction l generalizing n with
  | nil => simp
  | cons x l ih =>
      have h := ih (256 * 0 + x.toNat)
      simp only [ofBE, List.foldl_cons, List.length_cons, pow_succ]
      rw [ih, h]
      ring

theorem ofBE_cons : ofBE (x :: l) = x.toNat * 256 ^ l.length + ofBE l := by
  rw [ofBE, List.foldl_cons, ofBE_foldl]
  simp

theorem ofBE_lt (l : List UInt8) : ofBE l < 256 ^ l.length := by
  induction l with
  | nil => exact Nat.one_pos
  | cons x l ih =>
      have hx : x.toNat * 256 ^ l.length ≤ 255 * 256 ^ l.length :=
        Nat.mul_le_mul_right _ (Nat.le_of_lt_succ x.toNat_lt)
      rw [ofBE_cons, List.length_cons, pow_succ]
      omega

theorem ofBE_toBE : ofBE (toBE w n) = n % 256 ^ w := by
  induction w with
  | zero => simp [toBE, Nat.mod_one]
  | succ w ih =>
      rw [toBE, ofBE_cons, ih, length_toBE, pow_succ, Nat.mod_mul, UInt8.toNat_ofNat', Nat.add_comm,
        Nat.mul_comm]

/-! ## Ranges -/

def slice (off len : Nat) (l : List UInt8) : List UInt8 := (l.drop off).take len

theorem length_slice (h : off + len ≤ l.length) : (slice off len l).length = len := by
  simp only [slice, List.length_take, List.length_drop]
  omega

theorem getElem?_slice : (slice off len l)[i]? = if i < len then l[off + i]? else none := by
  rw [slice, List.getElem?_take]
  split
  · rw [List.getElem?_drop]
  · rfl

theorem slice_take (h : off + len ≤ n) : slice off len (l.take n) = slice off len l := by
  apply List.ext_getElem?
  intro i
  rw [getElem?_slice, getElem?_slice]
  split
  · rw [List.getElem?_take, if_pos (by omega)]
  · rfl

theorem slice_full (h : l.length = len) : slice 0 len l = l := by
  rw [slice, List.drop_zero, List.take_of_length_le h.le]

theorem slice_append_left (h : off + len ≤ b.length) : slice off len (b ++ c) = slice off len b := by
  rw [slice, slice, List.drop_append_of_le_length (by omega), List.take_append_of_le_length]
  rw [List.length_drop]
  omega

theorem slice_append_right (h : b.length ≤ off) : slice off len (b ++ c) = slice (off - b.length) len c := by
  rw [slice, slice, List.drop_append, List.drop_eq_nil_of_le h, List.nil_append]

theorem slice_add (m : Nat) : slice off (len + m) l = slice off len l ++ slice (off + len) m l := by
  rw [slice, slice, slice, List.take_add, List.drop_drop]

/-- The bytes are in the string from `pos` on. -/
def BytesAt (m : List UInt8) (pos : Nat) (bytes : List UInt8) : Prop :=
  pos + bytes.length ≤ m.length ∧ slice pos bytes.length m = bytes

theorem bytesAt_append {m a b : List UInt8} {pos : Nat} :
    BytesAt m pos (a ++ b) ↔ BytesAt m pos a ∧ BytesAt m (pos + a.length) b := by
  unfold BytesAt
  rw [List.length_append, slice_add]
  constructor
  · rintro ⟨hle, hs⟩
    have hl : (slice pos a.length m).length = a.length := length_slice (by omega)
    obtain ⟨ha, hb⟩ := List.append_inj hs hl
    exact ⟨⟨by omega, ha⟩, by omega, hb⟩
  · rintro ⟨⟨-, ha⟩, hle, hb⟩
    exact ⟨by omega, by rw [ha, hb]⟩

theorem bytesAt_mid (a b c : List UInt8) : BytesAt (a ++ b ++ c) a.length b := by
  constructor
  · simp only [List.length_append]
    omega
  · rw [slice_append_left (by rw [List.length_append]), slice_append_right (Nat.le_refl _), Nat.sub_self,
      slice_full rfl]

theorem BytesAt.getElem? {m bytes : List UInt8} {pos : Nat} (h : BytesAt m pos bytes) (hi : i < bytes.length) :
    m[pos + i]? = bytes[i]? := by
  have hs := congrArg (·[i]?) h.2
  simpa [getElem?_slice, hi] using hs

theorem BytesAt.byte {m : List UInt8} {pos : Nat} (h : BytesAt m pos [x]) : m[pos]? = some x :=
  h.getElem? (i := 0) Nat.one_pos

/-! ## Overwriting a range -/

/-- The string with the bytes `b` written over it from position `i` on. -/
def patch (i : Nat) (b l : List UInt8) : List UInt8 := l.take i ++ b ++ l.drop (i + b.length)

@[simp] theorem length_patch (h : i + b.length ≤ l.length) : (patch i b l).length = l.length := by
  simp only [patch, List.length_append, List.length_take, List.length_drop]
  omega

theorem getElem?_patch (h : i + b.length ≤ l.length) :
    (patch i b l)[j]? = if i ≤ j ∧ j < i + b.length then b[j - i]? else l[j]? := by
  have hi : (l.take i).length = i := by simp; omega
  rw [patch, List.append_assoc]
  rcases Nat.lt_or_ge j i with hj | hj
  · rw [List.getElem?_append_left (by omega), List.getElem?_take, if_pos hj, if_neg (by omega)]
  · rw [List.getElem?_append_right (by omega), hi]
    rcases Nat.lt_or_ge j (i + b.length) with hj' | hj'
    · rw [List.getElem?_append_left (by omega), if_pos ⟨hj, hj'⟩]
    · rw [List.getElem?_append_right (by omega), List.getElem?_drop, if_neg (by omega)]
      congr 1
      omega

theorem getElem?_patch_of_not (h : i + b.length ≤ l.length) (hj : j < i ∨ i + b.length ≤ j) :
    (patch i b l)[j]? = l[j]? := by
  rw [getElem?_patch h, if_neg (by omega)]

theorem slice_patch_self (h : i + b.length ≤ l.length) : slice i b.length (patch i b l) = b := by
  apply List.ext_getElem?
  intro j
  rw [getElem?_slice]
  split
  · rw [getElem?_patch h, if_pos (by omega)]
    congr 1
    omega
  · rw [List.getElem?_eq_none (by omega)]

theorem slice_patch_of_disjoint (h : i + b.length ≤ l.length)
    (hd : off + len ≤ i ∨ i + b.length ≤ off) : slice off len (patch i b l) = slice off len l := by
  apply List.ext_getElem?
  intro j
  rw [getElem?_slice, getElem?_slice]
  split
  · exact getElem?_patch_of_not h (by omega)
  · rfl

/-- A range that begins with what was written. -/
theorem slice_patch_start (h : i + b.length ≤ l.length) (hb : b.length ≤ len) :
    slice i len (patch i b l) = b ++ slice (i + b.length) (len - b.length) l := by
  have hi : (l.take i).length = i := by simp; omega
  rw [slice, slice, patch, List.append_assoc, List.drop_append_of_le_length hi.ge, List.drop_of_length_le hi.le,
    List.nil_append, List.take_append, List.take_of_length_le hb]

/-- A write inside a range is a write to the range. -/
theorem slice_patch_inside (h : off + len ≤ l.length) (h₁ : off ≤ i) (h₂ : i + b.length ≤ off + len) :
    slice off len (patch i b l) = patch (i - off) b (slice off len l) := by
  have hs := length_slice h
  apply List.ext_getElem?
  intro j
  rw [getElem?_slice, getElem?_patch (by omega), getElem?_patch (by omega), getElem?_slice]
  by_cases hj : j < len
  · rw [if_pos hj, if_pos hj]
    by_cases hb : i - off ≤ j ∧ j < i - off + b.length
    · rw [if_pos (by omega), if_pos hb]
      congr 1
      omega
    · rw [if_neg (by omega), if_neg hb]
  · rw [if_neg hj, if_neg hj, if_neg (by omega)]

/-- A second write, right behind the first. -/
theorem patch_append (hn : n = i + b.length) (h : n + c.length ≤ l.length) :
    patch n c (patch i b l) = patch i (b ++ c) l := by
  subst hn
  have hl : (patch i b l).length = l.length := length_patch (by omega)
  have hbc : (b ++ c).length = b.length + c.length := List.length_append
  apply List.ext_getElem?
  intro j
  rw [getElem?_patch (by omega), getElem?_patch (by omega), getElem?_patch (by omega), hbc]
  by_cases hj : i ≤ j ∧ j < i + b.length
  · rw [if_neg (by omega), if_pos hj, if_pos (by omega), List.getElem?_append_left (by omega)]
  · rw [if_neg hj]
    by_cases hj' : i + b.length ≤ j ∧ j < i + b.length + c.length
    · rw [if_pos hj', if_pos (by omega), List.getElem?_append_right (by omega)]
      congr 1
      omega
    · rw [if_neg hj', if_neg (by omega)]

/-- A second write to the same range hides the first. -/
theorem patch_patch (h : i + b.length ≤ l.length) (hc : c.length = b.length) :
    patch i c (patch i b l) = patch i c l := by
  have hl := length_patch h
  apply List.ext_getElem?
  intro j
  rw [getElem?_patch (l := patch i b l) (by omega), getElem?_patch h, getElem?_patch (l := l) (by omega)]
  split
  · rfl
  · rw [if_neg (by omega)]

end TunProxy.Lib.Bytes
