import TunProxy.Native.Ip

/-!
# Reading a memory
-/

namespace TunProxy.Native

open Lib.Bytes

variable {mem mem' : Nat → UInt8} {pkt a b : Bytes} {heap : Nat → UInt8} {pos len n i : Nat} {x : UInt8}
  {source : BitVec 16}

/-! ## Ranges -/

@[simp] theorem length_bytesAt : (bytesAt mem pos len).length = len := by simp [bytesAt]

theorem bytesAt_add (m : Nat) : bytesAt mem pos (len + m) = bytesAt mem pos len ++ bytesAt mem (pos + len) m := by
  simp only [bytesAt, List.range_add, List.map_append, List.map_map, Function.comp_def, Nat.add_assoc]

theorem bytesAt_congr (h : ∀ i, i < len → mem (pos + i) = mem' (n + i)) : bytesAt mem pos len = bytesAt mem' n len := by
  refine List.map_congr_left fun i hi => h i (List.mem_range.1 hi)

/-! ## Reading what was written -/

theorem bytesAt_memAt (h : pos + len ≤ pkt.length) : bytesAt (memAt pkt heap) pos len = slice pos len pkt := by
  apply List.ext_getElem?
  intro j
  rw [getElem?_slice, bytesAt, List.getElem?_map]
  by_cases hj : j < len
  · have hlt : pos + j < pkt.length := by omega
    rw [if_pos hj, List.getElem?_range hj, Option.map_some, memAt, List.getD_eq_getElem?_getD,
      List.getElem?_eq_getElem hlt, Option.getD_some]
  · rw [if_neg hj, List.getElem?_eq_none (by simpa using hj), Option.map_none]

/-- Behind a header of `n` bytes. -/
theorem bytesAt_behind (hn : a.length = n) (h : pos + len ≤ b.length) :
    bytesAt (memAt (a ++ b) heap) (n + pos) len = slice pos len b := by
  subst hn
  rw [bytesAt_memAt (by rw [List.length_append]; omega), slice_append_right (by omega), Nat.add_sub_cancel_left]

theorem memAt_behind (hn : a.length = n) (h : i < b.length) : memAt (a ++ b) heap (n + i) = b.getD i 0 := by
  subst hn
  rw [memAt, List.getD_eq_getElem?_getD, List.getElem?_append_right (by omega), Nat.add_sub_cancel_left,
    List.getD_eq_getElem?_getD, List.getElem?_eq_getElem h]
  rfl

theorem memAt_of_getElem? (h : pkt[i]? = some x) : memAt pkt heap i = x := by
  rw [memAt, List.getD_eq_getElem?_getD, h, Option.getD_some]

theorem ntohs_of_toBE (h : bytesAt (memAt pkt heap) pos 2 = toBE 2 source.toNat) :
    ntohs (memAt pkt heap) pos = source := by
  rw [ntohs, h, ofBE_toBE]
  apply BitVec.eq_of_toNat_eq
  have := source.isLt
  simp
  omega

theorem ntohl_of_toBE {x : U32} (h : bytesAt (memAt pkt heap) pos 4 = toBE 4 x.toNat) :
    ntohl (memAt pkt heap) pos = x := by
  rw [ntohl, h, ofBE_toBE]
  apply BitVec.eq_of_toNat_eq
  have := x.isLt
  simp
  omega

end TunProxy.Native
