import TunProxy.Vpn.Packet

/-!
# What the accesses to packets do
-/

namespace TunProxy.Vpn

open Native (Bytes)
open Lib.Bytes Lib.OnesComplement

variable {data buf l : Bytes} {i n off len : Nat}

namespace CommonMethods

theorem slice2 (h : i + 2 ≤ data.length) : slice i 2 data = [data[i], data[i + 1]] := by
  rw [slice, List.drop_eq_getElem_cons (by omega), List.drop_eq_getElem_cons (by omega)]
  rfl

theorem slice4 (h : i + 4 ≤ data.length) :
    slice i 4 data = [data[i], data[i + 1], data[i + 2], data[i + 3]] := by
  rw [slice, List.drop_eq_getElem_cons (by omega), List.drop_eq_getElem_cons (by omega),
    List.drop_eq_getElem_cons (by omega), List.drop_eq_getElem_cons (by omega)]
  rfl

theorem readShort_eq (h : i + 2 ≤ data.length) :
    readShort data i = some (BitVec.ofNat 16 (ofBE (slice i 2 data))) := by
  rw [readShort, List.getElem?_eq_getElem (show i < data.length by omega),
    List.getElem?_eq_getElem (show i + 1 < data.length by omega), slice2 h]
  simp only [ofBE, List.foldl_cons, List.foldl_nil, Option.bind_eq_bind, Option.bind_some, Option.pure_def,
    Nat.mul_zero, Nat.zero_add]

theorem readInt_eq (h : i + 4 ≤ data.length) :
    readInt data i = some (BitVec.ofNat 32 (ofBE (slice i 4 data))) := by
  rw [readInt, List.getElem?_eq_getElem (show i < data.length by omega),
    List.getElem?_eq_getElem (show i + 1 < data.length by omega),
    List.getElem?_eq_getElem (show i + 2 < data.length by omega),
    List.getElem?_eq_getElem (show i + 3 < data.length by omega), slice4 h]
  simp only [ofBE, List.foldl_cons, List.foldl_nil, Option.bind_eq_bind, Option.bind_some, Option.pure_def,
    Nat.mul_zero, Nat.zero_add]
  congr 2
  ring

theorem writeByte_eq {v : UInt8} (h : i < data.length) : writeByte data i v = some (patch i [v] data) := by
  rw [writeByte, if_pos h, List.set_eq_take_append_cons_drop, if_pos h, patch]
  simp

theorem writeByte_patch {v : UInt8} (hn : n = i + l.length) (h : n < data.length) :
    writeByte (patch i l data) n v = some (patch i (l ++ [v]) data) := by
  subst hn
  have hl : (patch i l data).length = data.length := length_patch (by omega)
  rw [writeByte_eq (by omega), patch_append rfl (Nat.succ_le_of_lt h)]

theorem writeShort_eq {v : BitVec 16} (h : i + 2 ≤ data.length) :
    writeShort data i v = some (patch i (toBE 2 v.toNat) data) := by
  rw [writeShort, writeByte_eq (by omega), Option.bind_eq_bind, Option.bind_some,
    writeByte_patch (by simp) (by omega)]
  simp [toBE]

theorem writeShort_zero (h : i + 2 ≤ data.length) :
    writeShort data i 0 = some (patch i (toBE 2 0) data) := writeShort_eq h

theorem writeInt_eq {v : BitVec 32} (h : i + 4 ≤ data.length) :
    writeInt data i v = some (patch i (toBE 4 v.toNat) data) := by
  rw [writeInt, writeByte_eq (by omega)]
  simp only [Option.bind_eq_bind, Option.bind_some]
  rw [writeByte_patch (by simp) (by omega), Option.bind_some, writeByte_patch (by simp) (by omega),
    Option.bind_some, writeByte_patch (by simp) (by omega)]
  simp [toBE]

/-- `getsum` adds the words of the range. -/
theorem getsum_eq (h : off + len ≤ buf.length) : getsum buf off len = some (wordSum (slice off len buf)) := by
  induction off, len using getsum.induct with
  | case1 off len ih =>
      have hs : slice off (len + 2) buf = buf[off] :: buf[off + 1] :: slice (off + 2) len buf := by
        rw [slice, List.drop_eq_getElem_cons (by omega), List.drop_eq_getElem_cons (by omega)]
        rfl
      have hw : (BitVec.ofNat 16 (256 * buf[off].toNat + buf[off + 1].toNat)).toNat
          = 256 * buf[off].toNat + buf[off + 1].toNat := by
        have := buf[off].toNat_lt
        have := buf[off + 1].toNat_lt
        rw [BitVec.toNat_ofNat]
        omega
      rw [getsum, readShort_eq (by omega), slice2 (by omega), ih (by omega), hs, wordSum_cons2]
      simp [ofBE, hw]
  | case2 off =>
      have hs : slice off 1 buf = [buf[off]] := by
        rw [slice, List.drop_eq_getElem_cons (by omega)]
        rfl
      rw [getsum, List.getElem?_eq_getElem (by omega), hs, wordSum_single]
      rfl
  | case3 off => simp [getsum, slice]

theorem carry_eq (n : Nat) : carry n = canon n := by
  induction n using carry.induct with
  | case1 n h ih => rw [carry, if_pos h, ih, canon_fold]
  | case2 n h => rw [carry, if_neg h, canon_of_le (by omega)]

theorem checksum_eq {s : Nat} (h : off + len ≤ buf.length) :
    checksum s buf off len = some (BitVec.ofNat 16 (65535 - canon (s + wordSum (slice off len buf)))) := by
  have hc : canon (s + wordSum (slice off len buf)) ≤ 65535 := canon_le
  rw [checksum, getsum_eq h]
  simp only [Option.bind_eq_bind, Option.bind_some, Option.pure_def, carry_eq, Option.some.injEq]
  apply BitVec.eq_of_toNat_eq
  rw [BitVec.toNat_not, BitVec.toNat_ofNat, BitVec.toNat_ofNat]
  omega

/-! ## Reading beside what was written -/

variable {b : Bytes}

theorem readShort_patch (h : n + b.length ≤ data.length) (hd : i + 2 ≤ n ∨ n + b.length ≤ i) :
    readShort (patch n b data) i = readShort data i := by
  rw [readShort, readShort, getElem?_patch_of_not h (by omega), getElem?_patch_of_not h (by omega)]

theorem readInt_patch (h : n + b.length ≤ data.length) (hd : i + 4 ≤ n ∨ n + b.length ≤ i) :
    readInt (patch n b data) i = readInt data i := by
  rw [readInt, readInt, getElem?_patch_of_not h (by omega), getElem?_patch_of_not h (by omega),
    getElem?_patch_of_not h (by omega), getElem?_patch_of_not h (by omega)]

theorem readShort_patch_self {v : BitVec 16} (h : i + 2 ≤ data.length) :
    readShort (patch i (toBE 2 v.toNat) data) i = some v := by
  have hl : (patch i (toBE 2 v.toNat) data).length = data.length := length_patch (by simpa using h)
  have hs := slice_patch_self (i := i) (b := toBE 2 v.toNat) (l := data) (by simpa using h)
  rw [length_toBE] at hs
  rw [readShort_eq (by omega), hs, ofBE_toBE, Nat.mod_eq_of_lt (show v.toNat < 256 ^ 2 from v.isLt), BitVec.ofNat_toNat,
    BitVec.setWidth_eq]

theorem readInt_patch_self {v : BitVec 32} (h : i + 4 ≤ data.length) :
    readInt (patch i (toBE 4 v.toNat) data) i = some v := by
  have hl : (patch i (toBE 4 v.toNat) data).length = data.length := length_patch (by simpa using h)
  have hs := slice_patch_self (i := i) (b := toBE 4 v.toNat) (l := data) (by simpa using h)
  rw [length_toBE] at hs
  rw [readInt_eq (by omega), hs, ofBE_toBE, Nat.mod_eq_of_lt (show v.toNat < 256 ^ 4 from v.isLt), BitVec.ofNat_toNat,
    BitVec.setWidth_eq]

/-! ## What a write that does not throw has done -/

variable {d : Bytes}

theorem writeByte_some {v : UInt8} (h : writeByte data i v = some d) : i < data.length ∧ d = patch i [v] data := by
  have hi : i < data.length := by
    by_contra hi
    rw [writeByte, if_neg hi] at h
    cases h
  rw [writeByte_eq hi] at h
  exact ⟨hi, (Option.some.inj h).symm⟩

theorem writeShort_some {v : BitVec 16} (h : writeShort data i v = some d) :
    i + 2 ≤ data.length ∧ d = patch i (toBE 2 v.toNat) data := by
  have hi : i + 2 ≤ data.length := by
    obtain ⟨d₁, h₁, h₂⟩ := Option.bind_eq_some_iff.1 h
    obtain ⟨hi, rfl⟩ := writeByte_some h₁
    have hi' := (writeByte_some h₂).1
    rw [length_patch (Nat.succ_le_of_lt hi)] at hi'
    omega
  rw [writeShort_eq hi] at h
  exact ⟨hi, (Option.some.inj h).symm⟩

theorem writeInt_some {v : BitVec 32} (h : writeInt data i v = some d) :
    i + 4 ≤ data.length ∧ d = patch i (toBE 4 v.toNat) data := by
  have hi : i + 4 ≤ data.length := by
    obtain ⟨d₁, h₁, h⟩ := Option.bind_eq_some_iff.1 h
    obtain ⟨d₂, h₂, h⟩ := Option.bind_eq_some_iff.1 h
    obtain ⟨d₃, h₃, h₄⟩ := Option.bind_eq_some_iff.1 h
    obtain ⟨hi₁, rfl⟩ := writeByte_some h₁
    obtain ⟨hi₂, rfl⟩ := writeByte_some h₂
    obtain ⟨hi₃, rfl⟩ := writeByte_some h₃
    have hi₄ := (writeByte_some h₄).1
    rw [length_patch (Nat.succ_le_of_lt hi₃), length_patch (Nat.succ_le_of_lt hi₂),
      length_patch (Nat.succ_le_of_lt hi₁)] at hi₄
    omega
  rw [writeInt_eq hi] at h
  exact ⟨hi, (Option.some.inj h).symm⟩

theorem writeByte_frame {v : UInt8} (h : writeByte data i v = some d) (j : Nat) (hj : j < i ∨ i + 1 ≤ j) :
    d[j]? = data[j]? := by
  obtain ⟨hi, rfl⟩ := writeByte_some h
  exact getElem?_patch_of_not (Nat.succ_le_of_lt hi) (by simpa using hj)

theorem writeShort_frame {v : BitVec 16} (h : writeShort data i v = some d) (j : Nat) (hj : j < i ∨ i + 2 ≤ j) :
    d[j]? = data[j]? := by
  obtain ⟨hi, rfl⟩ := writeShort_some h
  exact getElem?_patch_of_not (by simpa using hi) (by simpa using hj)

theorem writeInt_frame {v : BitVec 32} (h : writeInt data i v = some d) (j : Nat) (hj : j < i ∨ i + 4 ≤ j) :
    d[j]? = data[j]? := by
  obtain ⟨hi, rfl⟩ := writeInt_some h
  exact getElem?_patch_of_not (by simpa using hi) (by simpa using hj)

theorem readShort_written {v : BitVec 16} (h : writeShort data i v = some d) : readShort d i = some v := by
  obtain ⟨hi, rfl⟩ := writeShort_some h
  exact readShort_patch_self hi

theorem readInt_written {v : BitVec 32} (h : writeInt data i v = some d) : readInt d i = some v := by
  obtain ⟨hi, rfl⟩ := writeInt_some h
  exact readInt_patch_self hi

/-- The functions for the checksums write to the fields of the checksums only. -/
theorem computeIPChecksum_frame {ok : Bool} (h : computeIPChecksum data = some (d, ok)) :
    d.length = data.length ∧ ∀ j, j < 10 ∨ 12 ≤ j → d[j]? = data[j]? := by
  obtain ⟨old, -, h⟩ := Option.bind_eq_some_iff.1 h
  obtain ⟨d₁, h₁, h⟩ := Option.bind_eq_some_iff.1 h
  obtain ⟨header, -, h⟩ := Option.bind_eq_some_iff.1 h
  obtain ⟨new, -, h⟩ := Option.bind_eq_some_iff.1 h
  obtain ⟨d₂, h₂, h⟩ := Option.bind_eq_some_iff.1 h
  cases h
  obtain ⟨hi₁, rfl⟩ := writeShort_some h₁
  obtain ⟨hi₂, rfl⟩ := writeShort_some h₂
  rw [length_patch (by simpa using hi₁)] at hi₂
  rw [patch_patch (by simpa using hi₁) (by simp)]
  refine ⟨length_patch (by simpa using hi₁), fun j hj => ?_⟩
  exact getElem?_patch_of_not (by simpa using hi₁) (by simpa using hj)

theorem computeUDPChecksum_frame {ok : Bool} (h : computeUDPChecksum data off = some (d, ok)) :
    d.length = data.length ∧
      ∀ j, j < 10 ∨ 12 ≤ j → j < off + 6 ∨ off + 8 ≤ j → d[j]? = data[j]? := by
  obtain ⟨⟨d₀, ok₀⟩, h₀, h⟩ := Option.bind_eq_some_iff.1 h
  obtain ⟨hl₀, hs₀⟩ := computeIPChecksum_frame h₀
  obtain ⟨total, -, h⟩ := Option.bind_eq_some_iff.1 h
  obtain ⟨header, -, h⟩ := Option.bind_eq_some_iff.1 h
  split at h
  · cases h
    exact ⟨hl₀, fun j hj _ => hs₀ j hj⟩
  · obtain ⟨sum, -, h⟩ := Option.bind_eq_some_iff.1 h
    obtain ⟨protocol, -, h⟩ := Option.bind_eq_some_iff.1 h
    obtain ⟨old, -, h⟩ := Option.bind_eq_some_iff.1 h
    obtain ⟨d₁, h₁, h⟩ := Option.bind_eq_some_iff.1 h
    obtain ⟨new, -, h⟩ := Option.bind_eq_some_iff.1 h
    obtain ⟨d₂, h₂, h⟩ := Option.bind_eq_some_iff.1 h
    cases h
    obtain ⟨hi₁, rfl⟩ := writeShort_some h₁
    obtain ⟨-, rfl⟩ := writeShort_some h₂
    rw [patch_patch (by simpa using hi₁) (by simp), length_patch (by simpa using hi₁)]
    refine ⟨hl₀, fun j hj hj' => ?_⟩
    rw [getElem?_patch_of_not (by simpa using hi₁) (by simpa using hj'), hs₀ j hj]

end CommonMethods

open CommonMethods

/-! ## Well-formed packets -/

/-- The first `size` bytes of the array are an IP packet that holds a whole TCP header; `header` is the length of
its IP header. -/
structure IsTcp (data : Bytes) (size header : Nat) : Prop where
  protocol : IPHeader.getProtocol data = some IPHeader.TCP
  headerLength : IPHeader.getHeaderLength data = some header
  minimal : 20 ≤ header
  total : ∃ total, IPHeader.getTotalLength data = some total ∧ header + 20 ≤ total ∧ total ≤ size
  size_le : size ≤ data.length

/-- Nothing that decides whether a packet is well formed is overwritten. -/
theorem IsTcp.patched {size header : Nat} {b : Bytes} (h : IsTcp data size header) (hi : 10 ≤ i)
    (hb : i + b.length ≤ data.length) : IsTcp (patch i b data) size header := by
  obtain ⟨hp, hl, hm, ⟨t, ht, h₁, h₂⟩, hs⟩ := h
  constructor
  · rw [← hp, IPHeader.getProtocol, IPHeader.getProtocol, getElem?_patch_of_not hb (by omega)]
  · rw [← hl, IPHeader.getHeaderLength, IPHeader.getHeaderLength, getElem?_patch_of_not hb (by omega)]
  · exact hm
  · refine ⟨t, ?_, h₁, h₂⟩
    rw [← ht, IPHeader.getTotalLength, IPHeader.getTotalLength, readShort_patch hb (by omega)]
  · rw [length_patch hb]
    exact hs

end TunProxy.Vpn
