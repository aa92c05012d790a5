import TunProxy.Lib.Bytes

/-!
# The Internet checksum

The one's-complement sum of the big-endian 16-bit words of a byte string, an odd last byte padded with a
zero, and how programs compute it: they add the words as numbers and fold the carries back at the end.
-/

namespace TunProxy.Lib.OnesComplement

open Bytes

variable {a b n r s : Nat} {x y : UInt8} {l m : List UInt8}

/-- Addition with end-around carry. -/
def add (a b : Nat) : Nat := if a + b < 65536 then a + b else a + b - 65535

def words : List UInt8 → List Nat
  | x :: y :: l => (256 * x.toNat + y.toNat) :: words l
  | [x] => [256 * x.toNat]
  | [] => []

/-- The one's-complement sum. A string that carries its checksum verifies when this is `0xFFFF`. -/
def sum16 (l : List UInt8) : Nat := (words l).foldl add 0

/-- The words added as numbers. -/
def wordSum (l : List UInt8) : Nat := (words l).sum

/-- One round of folding the carries back. -/
def fold (n : Nat) : Nat := n % 65536 + n / 65536

/-! ## Sums with and without folding -/

/-- The number among 0, .., 65535 that folding `n` leads to. -/
def canon (n : Nat) : Nat := if n = 0 then 0 else (n - 1) % 65535 + 1

theorem canon_le : canon n ≤ 65535 := by unfold canon; split <;> omega

theorem canon_of_le (h : n ≤ 65535) : canon n = n := by unfold canon; split <;> omega

theorem canon_fold : canon (fold n) = canon n := by
  unfold canon fold
  split <;> split <;> omega

theorem canon_eq_ones : canon n = 65535 ↔ 0 < n ∧ n % 65535 = 0 := by unfold canon; split <;> omega

theorem fold_lt (h : 65536 ≤ n) : fold n < n := by unfold fold; omega

theorem add_canon (h : b ≤ 65535) : add (canon a) b = canon (a + b) := by
  unfold add canon
  split <;> split <;> split <;> omega

theorem words_le (h : n ∈ words l) : n ≤ 65535 := by
  induction l using words.induct with
  | case1 x y l ih =>
      have := x.toNat_lt
      have := y.toNat_lt
      rcases List.mem_cons.1 h with rfl | h
      · omega
      · exact ih h
  | case2 x =>
      have := x.toNat_lt
      cases List.mem_singleton.1 h
      omega
  | case3 => cases h

@[simp] theorem wordSum_nil : wordSum [] = 0 := rfl

@[simp] theorem wordSum_single : wordSum [x] = 256 * x.toNat := by simp [wordSum, words]

@[simp] theorem wordSum_cons2 : wordSum (x :: y :: l) = 256 * x.toNat + y.toNat + wordSum l := by
  simp [wordSum, words]

theorem foldl_add (ws : List Nat) (h : ∀ w ∈ ws, w ≤ 65535) :
    ws.foldl add (canon a) = canon (a + ws.sum) := by
  induction ws generalizing a with
  | nil => rfl
  | cons w ws ih =>
      rw [List.foldl_cons, add_canon (h w List.mem_cons_self),
        ih (fun v hv => h v (List.mem_cons_of_mem _ hv)), List.sum_cons, Nat.add_assoc]

/-- Adding the words as numbers and folding at the end is the one's-complement sum. -/
theorem sum16_eq : sum16 l = canon (wordSum l) := by
  have := foldl_add (a := 0) (words l) fun _ => words_le
  rwa [Nat.zero_add] at this

theorem verifies_iff : sum16 l = 0xFFFF ↔ 0 < wordSum l ∧ wordSum l % 65535 = 0 := by
  rw [sum16_eq]
  exact canon_eq_ones

/-! ## Sums of parts -/

theorem wordSum_append (h : l.length % 2 = 0) : wordSum (l ++ m) = wordSum l + wordSum m := by
  induction l using words.induct with
  | case1 x y l ih =>
      simp only [List.cons_append, wordSum_cons2]
      have h' : l.length % 2 = 0 := by simp only [List.length_cons] at h; omega
      rw [ih h']
      exact (Nat.add_assoc _ _ _).symm
  | case2 x => simp at h
  | case3 => simp

/-- Two bytes written at an even position count as the word they are. -/
theorem wordSum_patch (hr : r % 2 = 0) (h : r + 2 ≤ l.length) :
    wordSum (patch r [x, y] l) = wordSum (l.take r) + (256 * x.toNat + y.toNat) + wordSum (l.drop (r + 2)) := by
  have ht : (l.take r).length % 2 = 0 := by simp; omega
  rw [patch, List.append_assoc, wordSum_append ht, List.cons_append, List.cons_append, List.nil_append,
    wordSum_cons2]
  simp only [List.length_cons, List.length_nil, Nat.zero_add, Nat.reduceAdd, Nat.add_assoc]

theorem wordSum_patch_toBE (hr : r % 2 = 0) (h : r + 2 ≤ l.length) (hn : n < 65536) :
    wordSum (patch r (toBE 2 n) l) = wordSum (patch r (toBE 2 0) l) + n := by
  simp only [toBE]
  rw [wordSum_patch hr h, wordSum_patch hr h]
  simp
  omega

/-- The complement of the folded sum of the rest, put where a zero word stood, makes the whole verify. -/
theorem verifies_complement (h : wordSum l = s + (65535 - canon s)) : sum16 l = 0xFFFF := by
  rw [verifies_iff, h]
  unfold canon
  split <;> omega

/-- Sums folded on the way count like sums folded at the end. -/
theorem canon_canon_add : canon (canon a + b) = canon (a + b) := by
  unfold canon
  split <;> split <;> split <;> omega

/-! ## Words of a little-endian machine -/

/-- The words as a little-endian machine reads them, added as numbers. -/
def wordSumLE : List UInt8 → Nat
  | x :: y :: l => x.toNat + 256 * y.toNat + wordSumLE l
  | [x] => x.toNat
  | [] => 0

/-- The order of the bytes in a word only swaps the bytes of the sum. -/
theorem wordSumLE_swap : 256 * wordSumLE l % 65535 = wordSum l % 65535 := by
  induction l using wordSumLE.induct with
  | case1 x y l ih =>
      rw [wordSumLE, wordSum_cons2]
      omega
  | case2 x => rw [wordSumLE, wordSum_single]
  | case3 => rfl

theorem wordSumLE_pos : 0 < wordSumLE l ↔ 0 < wordSum l := by
  induction l using wordSumLE.induct with
  | case1 x y l ih =>
      rw [wordSumLE, wordSum_cons2]
      omega
  | case2 x =>
      rw [wordSumLE, wordSum_single]
      omega
  | case3 => rfl

/-- A string verifies by its little-endian words when it does by its big-endian ones. -/
theorem verifies_iff_le : sum16 l = 0xFFFF ↔ 0 < wordSumLE l ∧ wordSumLE l % 65535 = 0 := by
  have h := wordSumLE_swap (l := l)
  rw [verifies_iff, ← wordSumLE_pos, ← h]
  omega

/-- Folded sums that agree but for the order of the bytes have the two bytes swapped. -/
theorem canon_swap (hpos : 0 < a ↔ 0 < b) (h : 256 * a % 65535 = b % 65535) :
    canon b = canon a % 256 * 256 + canon a / 256 := by
  unfold canon
  split
  · rw [if_pos (by omega)]
  · rw [if_neg (by omega)]
    omega

theorem canon_wordSum (l : List UInt8) :
    canon (wordSum l) = canon (wordSumLE l) % 256 * 256 + canon (wordSumLE l) / 256 :=
  canon_swap wordSumLE_pos wordSumLE_swap

theorem wordSumLE_append (h : l.length % 2 = 0) : wordSumLE (l ++ m) = wordSumLE l + wordSumLE m := by
  induction l using wordSumLE.induct with
  | case1 x y l ih =>
      have h' : l.length % 2 = 0 := by
        simp only [List.length_cons] at h
        omega
      rw [List.cons_append, List.cons_append, wordSumLE, wordSumLE, ih h']
      omega
  | case2 x => simp at h
  | case3 => simp [wordSumLE]

theorem wordSumLE_le : wordSumLE l ≤ 65535 * ((l.length + 1) / 2) := by
  induction l using wordSumLE.induct with
  | case1 x y l ih =>
      have := x.toNat_lt
      have := y.toNat_lt
      simp only [wordSumLE, List.length_cons]
      omega
  | case2 x =>
      have := x.toNat_lt
      simp only [wordSumLE, List.length_cons, List.length_nil]
      omega
  | case3 => simp [wordSumLE]

/-- The little-endian form of `verifies_complement`. -/
theorem verifies_complement_le (h : wordSumLE l = s + (65535 - canon s)) : sum16 l = 0xFFFF := by
  rw [verifies_iff_le, h]
  unfold canon
  split <;> omega

/-! ## Pseudo headers -/

/-- The bytes summed before a TCP or UDP header in an IPv4 packet. -/
def pseudo4 (src dst : List UInt8) (protocol : UInt8) (len : Nat) : List UInt8 :=
  src ++ dst ++ [0, protocol] ++ toBE 2 len

/-- The same in an IPv6 packet. -/
def pseudo6 (src dst : List UInt8) (nextHeader : UInt8) (len : Nat) : List UInt8 :=
  src ++ dst ++ toBE 4 len ++ [0, 0, 0, nextHeader]

end TunProxy.Lib.OnesComplement
