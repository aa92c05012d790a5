import TunProxy.Vpn.ChinaIp
import TunProxy.Vpn.Lemmas.Packet

/-!
# The address blocks as they are loaded and looked up

A read that does not end at a record shifts all records behind it; a block is forgotten once another one with the same
network address is loaded.
-/

namespace TunProxy.Vpn

open Native (Bytes)
open Lib Lib.Bytes CommonMethods ChinaIpMaskManager

variable {m m' : ChinaIpMaskManager} {buffer file : Bytes} {rs : List Block} {r : Block} {sizes : List Nat}
    {i n count : Nat}
  {ip : BitVec 32}

/-! ## Files -/

theorem length_bytes (r : Block) : r.bytes.length = 8 := by simp [Block.bytes]

theorem length_fileOf (rs : List Block) : (fileOf rs).length = 8 * rs.length := by
  induction rs with
  | nil => rfl
  | cons r rs ih =>
      rw [fileOf, List.flatMap_cons, List.length_append, length_bytes, ← fileOf, ih, List.length_cons]
      omega

theorem fileOf_append (rs rs' : List Block) : fileOf (rs ++ rs') = fileOf rs ++ fileOf rs' := List.flatMap_append

theorem fileOf_split (rs : List Block) (h : n ≤ rs.length) :
    (fileOf rs).take (8 * n) = fileOf (rs.take n) ∧ (fileOf rs).drop (8 * n) = fileOf (rs.drop n) := by
  have hlen : (fileOf (rs.take n)).length = 8 * n := by
    rw [length_fileOf, List.length_take]
    omega
  have hrs : fileOf rs = fileOf (rs.take n) ++ fileOf (rs.drop n) := by rw [← fileOf_append, List.take_append_drop]
  rw [hrs]
  exact ⟨List.take_left' hlen, List.drop_left' hlen⟩

theorem readInt_of_bytesAt {v : BitVec 32} (h : BytesAt buffer i (toBE 4 v.toNat)) : readInt buffer i = some v := by
  obtain ⟨hle, hs⟩ := h
  rw [length_toBE] at hle hs
  rw [readInt_eq hle, hs, ofBE_toBE, Nat.mod_eq_of_lt (show v.toNat < 256 ^ 4 from v.isLt), BitVec.ofNat_toNat,
    BitVec.setWidth_eq]

/-! ## Reads of whole records -/

theorem loadBuffer_eq (h : BytesAt buffer i (fileOf rs)) :
    loadBuffer m buffer (i + 8 * rs.length) i = some (m.insert rs) := by
  induction rs generalizing m i with
  | nil =>
      rw [loadBuffer, if_neg (by simp)]
      rfl
  | cons r rs ih =>
      rw [fileOf, List.flatMap_cons] at h
      obtain ⟨hr, hrest⟩ := bytesAt_append.1 h
      obtain ⟨hnetwork, hmask⟩ := bytesAt_append.1 hr
      rw [length_toBE] at hmask
      rw [length_bytes] at hrest
      rw [loadBuffer, if_pos (by simp), readInt_of_bytesAt hnetwork, readInt_of_bytesAt hmask]
      have hcount : i + 8 * (r :: rs).length = i + 8 + 8 * rs.length := by
        rw [List.length_cons]
        omega
      rw [hcount]
      exact ih hrest

theorem bytesAt_patch_start (buffer : Bytes) {bytes : Bytes} (h : bytes.length ≤ buffer.length) :
    BytesAt (patch 0 bytes buffer) 0 bytes := by
  have hl : (patch 0 bytes buffer).length = buffer.length := length_patch (by omega)
  exact ⟨by omega, slice_patch_self (by omega)⟩

/-- Where each read ends with a record, the records are inserted as they are in the file. -/
theorem loadReads_eq (hsizes : ∀ n ∈ sizes, 1 ≤ n ∧ n ≤ buffer.length ∧ n % 8 = 0) (hsum : sizes.sum = 8 * rs.length) :
    loadReads m buffer (readsOf sizes (fileOf rs)) = some (m.insert rs) := by
  induction sizes generalizing m buffer rs with
  | nil =>
      rw [List.sum_nil] at hsum
      obtain rfl := List.length_eq_zero_iff.1 (show rs.length = 0 by omega)
      rfl
  | cons n sizes ih =>
      obtain ⟨hpos, hle, hn⟩ := hsizes n List.mem_cons_self
      rw [List.sum_cons] at hsum
      -- the read holds the first `q` records
      obtain ⟨q, rfl⟩ := Nat.dvd_of_mod_eq_zero hn
      obtain ⟨htake, hdrop⟩ := fileOf_split rs (show q ≤ rs.length by omega)
      have hq : (rs.take q).length = q := by
        rw [List.length_take]
        omega
      have hlen : (fileOf (rs.take q)).length = 8 * q := by rw [length_fileOf, hq]
      have hne : fileOf (rs.take q) ≠ [] := List.ne_nil_of_length_pos (by omega)
      have hload := loadBuffer_eq (m := m) (bytesAt_patch_start buffer (hlen.trans_le hle))
      rw [Nat.zero_add, hq] at hload
      have hl : (patch 0 (fileOf (rs.take q)) buffer).length = buffer.length := length_patch (by omega)
      rw [readsOf, htake, hdrop, loadReads, if_neg hne]
      simp only [hlen, hload, Option.bind_eq_bind, Option.bind_some]
      rw [ih (fun n hn => by rw [hl]; exact hsizes n (List.mem_cons_of_mem _ hn)) (by rw [List.length_drop]; omega)]
      rw [ChinaIpMaskManager.insert, ChinaIpMaskManager.insert, ← List.foldl_append, List.take_append_drop]
      rfl

theorem loadFromFile_eq (hsizes : ∀ n ∈ sizes, 1 ≤ n ∧ n ≤ BUFFER_SIZE ∧ n % 8 = 0) (hsum : sizes.sum = 8 * rs.length) :
    loadFromFile m (readsOf sizes (fileOf rs)) = some (m.insert rs) :=
  loadReads_eq (by rwa [List.length_replicate]) hsum

/-! ## The tables -/

def Block.entry (r : Block) : BitVec 32 × BitVec 32 := (r.network, r.mask)

theorem insert_eq (rs : List Block) : m.insert rs =
    { ipMaskDict := insertAll m.ipMaskDict (rs.map Block.entry)
      maskDict := insertAll m.maskDict (rs.map fun r => (r.mask, r.mask)) } := by
  induction rs generalizing m with
  | nil => rfl
  | cons r rs ih => exact ih

/-- No block behind this one has the same network address and another mask. -/
def Lasts (rs : List Block) (r : Block) : Prop := LastOf (rs.map Block.entry) r.network r.mask

theorem isIPInChina_true : m.isIPInChina ip = true ↔ ∃ mask ∈ m.maskDict, m.ipMaskDict.get (ip &&& mask) = mask := by
  simp only [isIPInChina, List.any_eq_true, decide_eq_true_eq, AList.mem_keys]

/-- The address is found in the blocks that no other one replaced. -/
theorem isIPInChina_iff (hrs : ∀ r ∈ rs, r.IsNetwork) :
    (({} : ChinaIpMaskManager).insert rs).isIPInChina ip = true ↔ ∃ r ∈ rs, r.Contains ip ∧ Lasts rs r := by
  rw [isIPInChina_true, insert_eq]
  constructor
  · rintro ⟨mask, hmask, hget⟩
    obtain ⟨r, hr, rfl⟩ : ∃ r ∈ rs, r.mask = mask := by simpa [mem_insertAll] using hmask
    unfold SparseIntArray.get at hget
    cases hl : (insertAll ∅ (rs.map Block.entry)).lookup (ip &&& r.mask) with
    | some mask' =>
        rw [hl, Option.getD_some] at hget
        subst hget
        have hlast := lookup_insertAll_empty.1 hl
        obtain ⟨r', hr', heq⟩ := List.mem_map.1 hlast.mem
        obtain ⟨hnetwork, hmask'⟩ := Prod.mk.inj heq
        refine ⟨r', hr', ?_, ?_⟩
        · rw [Block.Contains, hmask', hnetwork]
        · rw [Lasts, hmask', hnetwork]
          exact hlast
    | none =>
        -- the mask 0 is found by the default, but then there is a record for the address 0
        rw [hl, Option.getD_none] at hget
        have hzero : r.network = 0 := by
          have hnet := hrs r hr
          rw [Block.IsNetwork, ← hget] at hnet
          simpa using hnet.symm
        rw [← hget, AList.lookup_eq_none] at hl
        refine absurd (mem_insertAll.2 (.inl ⟨r.entry, List.mem_map_of_mem hr, ?_⟩)) hl
        simpa [Block.entry] using hzero
  · rintro ⟨r, hr, hcontains, hlast⟩
    refine ⟨r.mask, mem_insertAll.2 (.inl ⟨_, List.mem_map_of_mem hr, rfl⟩), ?_⟩
    rw [hcontains, SparseIntArray.get, lookup_insertAll_empty.2 hlast, Option.getD_some]

/-- After a file was read in whole records, an address is found exactly where it should, unless all the blocks that hold
it were replaced by blocks with the same network address. -/
theorem isIPInChina_membership_iff (sizes : List Nat) (rs : List Block)
    (hsizes : ∀ n ∈ sizes, 1 ≤ n ∧ n ≤ BUFFER_SIZE ∧ n % 8 = 0)
    (hsum : sizes.sum = 8 * rs.length) (hrs : ∀ r ∈ rs, r.IsNetwork) (ip : BitVec 32) :
    ∃ m, loadFromFile {} (readsOf sizes (fileOf rs)) = some m ∧
      ((m.isIPInChina ip = true ↔ ∃ r ∈ rs, r.Contains ip) ↔
        ((∃ r ∈ rs, r.Contains ip) → ∃ r ∈ rs, r.Contains ip ∧ Lasts rs r)) := by
  refine ⟨_, loadFromFile_eq hsizes hsum, ?_⟩
  rw [isIPInChina_iff hrs]
  constructor
  · exact fun h => h.2
  · exact fun h => ⟨fun ⟨r, hr, hc, _⟩ => ⟨r, hr, hc⟩, h⟩

/-- The block 10.0.0.0/8, and in it 10.0.0.0/16. -/
def nestedBlocks : List Block := [⟨0x0A000000, 0xFF000000⟩, ⟨0x0A000000, 0xFFFF0000⟩]

/-- In the reverse order the larger block is the one that stays. -/
theorem isIPInChina_membership_iff_nested :
    ∃ m, loadFromFile {} (readsOf [16] (fileOf nestedBlocks.reverse)) = some m ∧
      (m.isIPInChina 0x0A010000 = true ↔ ∃ r ∈ nestedBlocks.reverse, r.Contains 0x0A010000) := by
  obtain ⟨m, hload, h⟩ := isIPInChina_membership_iff [16] nestedBlocks.reverse (by decide) rfl (by decide)
    0x0A010000
  refine ⟨m, hload, h.2 fun _ => ⟨⟨0x0A000000, 0xFF000000⟩, by decide, by decide, ?_⟩⟩
  exact ⟨[(0x0A000000, 0xFFFF0000)], [], rfl, by simp⟩

/-- The smaller block replaces the larger one, which held 10.1.0.0. -/
theorem isIPInChina_not_membership :
    ∃ m, loadFromFile {} (readsOf [16] (fileOf nestedBlocks)) = some m ∧ m.isIPInChina 0x0A010000 = false ∧
      ∃ r ∈ nestedBlocks, r.Contains 0x0A010000 := by
  refine ⟨_, loadFromFile_eq (by decide) rfl, by decide, ?_⟩
  exact ⟨⟨0x0A000000, 0xFF000000⟩, by decide, by decide⟩

/-! ## Reads that do not end at a record -/

/-- Every eighth byte is zero. -/
def LowZero (bytes : Bytes) : Prop := ∀ j x, j % 8 = 7 → bytes[j]? = some x → x = 0

theorem LowZero.patch {bytes : Bytes} (hb : LowZero bytes) (h : LowZero buffer) : LowZero (patch 0 bytes buffer) := by
  intro j x hj hx
  rw [Bytes.patch, List.take_zero, List.nil_append, Nat.zero_add] at hx
  rcases Nat.lt_or_ge j bytes.length with hlt | hge
  · rw [List.getElem?_append_left hlt] at hx
    exact hb j x hj hx
  · rw [List.getElem?_append_right hge, List.getElem?_drop, Nat.add_sub_cancel' hge] at hx
    exact h j x hj hx

/-- A mask that is read there is not 1. -/
theorem LowZero.mask_ne {mask : BitVec 32} (h : LowZero buffer) (hi : i % 8 = 0)
    (hr : readInt buffer (i + 4) = some mask) :
    mask ≠ 1 := by
  simp only [readInt, Option.bind_eq_bind, Option.bind_eq_some_iff] at hr
  obtain ⟨a, -, b, -, c, -, d, hd, hr⟩ := hr
  obtain rfl := h (i + 4 + 3) d (by omega) hd
  rintro rfl
  have hmod := congrArg (fun v => v.toNat % 256) (Option.some.inj hr)
  have hone : (1 : BitVec 32).toNat = 1 := rfl
  simp only [BitVec.toNat_ofNat, UInt8.toNat_zero, hone] at hmod
  omega

theorem loadBuffer_low (h : LowZero buffer) (hi : i % 8 = 0) (hm : m.maskDict.lookup 1 = none)
    (hload : loadBuffer m buffer count i = some m') : m'.maskDict.lookup 1 = none := by
  induction m, i using loadBuffer.induct count with
  | case1 m i hlt ih =>
      rw [loadBuffer, if_pos hlt] at hload
      simp only [Option.bind_eq_bind, Option.bind_eq_some_iff] at hload
      obtain ⟨ip, -, mask, hmask, hload⟩ := hload
      have hne := (h.mask_ne hi hmask).symm
      exact ih ip mask (by omega) (by rw [put, AList.lookup_insert_ne hne, hm]) hload
  | case2 m i hge =>
      rw [loadBuffer, if_neg hge] at hload
      cases hload
      exact hm

theorem loadReads_low {reads : List Bytes} (h : LowZero buffer) (hreads : ∀ bytes ∈ reads, LowZero bytes)
    (hm : m.maskDict.lookup 1 = none) (hload : loadReads m buffer reads = some m') : m'.maskDict.lookup 1 = none := by
  induction reads generalizing m buffer with
  | nil =>
      cases hload
      exact hm
  | cons bytes reads ih =>
      rw [loadReads] at hload
      split at hload
      · cases hload
        exact hm
      · simp only [Option.bind_eq_bind, Option.bind_eq_some_iff] at hload
        obtain ⟨m₁, h₁, hload⟩ := hload
        have hpatch := (hreads bytes List.mem_cons_self).patch h
        exact ih hpatch (fun b hb => hreads b (List.mem_cons_of_mem _ hb)) (loadBuffer_low hpatch rfl hm h₁) hload

theorem mem_readsOf {bytes : Bytes} (h : bytes ∈ readsOf sizes file) :
    ∃ before n after, sizes = before ++ n :: after ∧ bytes = (file.drop before.sum).take n := by
  induction sizes generalizing file with
  | nil => cases h
  | cons n sizes ih =>
      rcases List.mem_cons.1 h with rfl | h
      · exact ⟨[], n, sizes, rfl, by rw [List.sum_nil, List.drop_zero]⟩
      · obtain ⟨before, n', after, rfl, rfl⟩ := ih h
        exact ⟨n :: before, n', after, rfl, by rw [List.sum_cons, List.drop_drop]⟩

/-- Of two places in a list of sizes one is not behind the other. -/
theorem sum_le_or_ge {before after before' after' : List Nat} {n n' : Nat}
    (h : before ++ n :: after = before' ++ n' :: after') :
    before'.sum + n' ≤ before.sum + n ∨ before.sum + n ≤ before'.sum := by
  rcases List.append_eq_append_iff.1 h with ⟨mid, rfl, hmid⟩ | ⟨mid, rfl, hmid⟩
  · cases mid with
    | nil =>
        obtain ⟨rfl, -⟩ := List.cons.inj hmid
        simp
    | cons k mid =>
        obtain ⟨rfl, -⟩ := List.cons.inj hmid
        simp only [List.sum_append, List.sum_cons]
        omega
  · cases mid with
    | nil =>
        obtain ⟨rfl, -⟩ := List.cons.inj hmid
        simp
    | cons k mid =>
        obtain ⟨rfl, -⟩ := List.cons.inj hmid
        simp only [List.sum_append, List.sum_cons]
        omega

/-- A file of zeros, but for the last byte of the record `k`. -/
def oneRecord (k rest : Nat) : List Block := List.replicate k ⟨0, 0⟩ ++ ⟨0, 1⟩ :: List.replicate rest ⟨0, 0⟩

theorem fileOf_zeros (k : Nat) : fileOf (List.replicate k ⟨0, 0⟩) = List.replicate (8 * k) 0 := by
  induction k with
  | zero => rfl
  | succ k ih =>
      rw [List.replicate_succ, fileOf, List.flatMap_cons, ← fileOf, ih, Nat.mul_succ, Nat.add_comm, List.replicate_add]
      rfl

theorem fileOf_oneRecord (k rest : Nat) :
    fileOf (oneRecord k rest) = List.replicate (8 * k + 7) 0 ++ 1 :: List.replicate (8 * rest) 0 := by
  have hbytes : Block.bytes ⟨0, 1⟩ = List.replicate 7 0 ++ [1] := rfl
  rw [oneRecord, fileOf_append, fileOf_zeros, fileOf, List.flatMap_cons, ← fileOf, fileOf_zeros, hbytes,
    List.replicate_add]
  simp

theorem oneRecord_byte {k rest j : Nat} {x : UInt8} (h : (fileOf (oneRecord k rest))[j]? = some x) (hx : x ≠ 0) :
    j = 8 * k + 7 := by
  rw [fileOf_oneRecord, List.getElem?_append] at h
  split at h
  · rw [List.getElem?_replicate] at h
    split at h
    · exact absurd (Option.some.inj h).symm hx
    · cases h
  · rw [List.length_replicate, List.getElem?_cons] at h
    split at h
    · rename_i hge h0
      rw [List.length_replicate] at hge
      omega
    · rw [List.getElem?_replicate] at h
      split at h
      · exact absurd (Option.some.inj h).symm hx
      · cases h

/-- The last byte of the record is read where the buffer has no low byte of a mask, if the read before ends in the
record. -/
theorem oneRecord_low {before after : List Nat} {n k rest : Nat} (hbefore : before.sum % 8 = 0) (hn : n % 8 ≠ 0)
    (hk : before.sum + n / 8 * 8 = 8 * k) {bytes : Bytes}
    (h : bytes ∈ readsOf (before ++ n :: after) (fileOf (oneRecord k rest))) : LowZero bytes := by
  intro j x hj hx
  by_contra hne
  obtain ⟨before', n', after', hsizes, rfl⟩ := mem_readsOf h
  rw [List.getElem?_take] at hx
  split at hx
  · rename_i hlt
    rw [List.getElem?_drop] at hx
    have hpos := oneRecord_byte hx hne
    rcases sum_le_or_ge hsizes with hle | hge
    · omega
    · omega
  · cases hx

theorem maskDict_insert :
    (m.insert rs).maskDict.lookup 1 = none ↔ (∀ r ∈ rs, r.mask ≠ 1) ∧ m.maskDict.lookup 1 = none := by
  rw [insert_eq, AList.lookup_eq_none, AList.lookup_eq_none, mem_insertAll]
  simp

/-- The mask 1 of the record that is split between two reads is not loaded. -/
theorem not_same_of_split {before after : List Nat} {k rest : Nat} (hbefore : before.sum % 8 = 0) (hn : n % 8 ≠ 0)
    (hk : before.sum + n / 8 * 8 = 8 * k)
    (hload : loadFromFile {} (readsOf (before ++ n :: after) (fileOf (oneRecord k rest))) = some m') :
    ¬m'.Same (({} : ChinaIpMaskManager).insert (oneRecord k rest)) := by
  intro hsame
  have hzero : LowZero (List.replicate BUFFER_SIZE 0) := by
    intro j x _ hx
    rw [List.getElem?_replicate] at hx
    split at hx
    · exact (Option.some.inj hx).symm
    · cases hx
  have hlow := loadReads_low hzero (fun bytes hb => oneRecord_low hbefore hn hk hb) rfl hload
  rw [hsame.maskDict, maskDict_insert] at hlow
  exact hlow.1 ⟨0, 1⟩ (by simp [oneRecord]) rfl

/-- The bytes that are read are those of whole records: where a read does not end with one, a record is split. -/
theorem exists_split (hsum : sizes.sum % 8 = 0) (h : ¬∀ n ∈ sizes, n % 8 = 0) :
    ∃ before n after, sizes = before ++ n :: after ∧ before.sum % 8 = 0 ∧ n % 8 ≠ 0 ∧
      before.sum + n / 8 * 8 + 8 ≤ sizes.sum := by
  induction sizes with
  | nil => simp at h
  | cons n sizes ih =>
      rw [List.sum_cons] at hsum
      by_cases hn : n % 8 = 0
      · have htail : ¬∀ n ∈ sizes, n % 8 = 0 := fun hall => h (List.forall_mem_cons.2 ⟨hn, hall⟩)
        obtain ⟨before, n', after, rfl, hbefore, hn', hle⟩ := ih (by omega) htail
        refine ⟨n :: before, n', after, rfl, ?_, hn', ?_⟩
        · rw [List.sum_cons]
          omega
        · rw [List.sum_cons, List.sum_cons]
          omega
      · refine ⟨[], n, sizes, rfl, rfl, hn, ?_⟩
        rw [List.sum_cons, List.sum_nil]
        omega

/-- A file is loaded record by record, into any tables, exactly by the reads that end at records. -/
theorem loadFromFile_reads_iff (sizes : List Nat) (hsizes : ∀ n ∈ sizes, 1 ≤ n ∧ n ≤ BUFFER_SIZE)
    (hsum : sizes.sum % 8 = 0) :
    (∀ (m : ChinaIpMaskManager) (rs : List Block), sizes.sum = 8 * rs.length →
      ∃ m', loadFromFile m (readsOf sizes (fileOf rs)) = some m' ∧ m'.Same (m.insert rs)) ↔
    ∀ n ∈ sizes, n % 8 = 0 := by
  constructor
  · intro h
    by_contra hall
    obtain ⟨before, n, after, rfl, hbefore, hn, hle⟩ := exists_split hsum hall
    obtain ⟨k, hk⟩ : ∃ k, before.sum + n / 8 * 8 = 8 * k := ⟨(before.sum + n / 8 * 8) / 8, by omega⟩
    obtain ⟨rest, hrest⟩ : ∃ rest, (before ++ n :: after).sum = 8 * (k + 1 + rest) :=
      ⟨(before ++ n :: after).sum / 8 - k - 1, by omega⟩
    obtain ⟨m', hload, hsame⟩ := h {} (oneRecord k rest) (by simp [oneRecord, hrest]; omega)
    exact not_same_of_split hbefore hn hk hload hsame
  · intro h m rs hrs
    exact ⟨_, loadFromFile_eq (fun n hn => ⟨(hsizes n hn).1, (hsizes n hn).2, h n hn⟩) hrs, fun _ => rfl, fun _ => rfl⟩

/-- Three records in two reads. -/
theorem loadFromFile_reads_iff_three :
    ∃ m', loadFromFile {} (readsOf [16, 8] (fileOf (⟨0, 0⟩ :: nestedBlocks))) = some m' ∧
      m'.Same (({} : ChinaIpMaskManager).insert (⟨0, 0⟩ :: nestedBlocks)) :=
  (loadFromFile_reads_iff [16, 8] (by decide) rfl).2 (by decide) {} (⟨0, 0⟩ :: nestedBlocks) rfl

/-- Two records in a read of twelve bytes and one of four. -/
theorem loadFromFile_not_same :
    ¬∃ m', loadFromFile {} (readsOf [12, 4] (fileOf [⟨0, 0⟩, ⟨0, 1⟩])) = some m' ∧
      m'.Same (({} : ChinaIpMaskManager).insert [⟨0, 0⟩, ⟨0, 1⟩]) := by
  rintro ⟨m', hload, hsame⟩
  have hread : loadFromFile {} (readsOf ([] ++ 12 :: [4]) (fileOf (oneRecord 1 0))) = some m' := hload
  exact not_same_of_split rfl (by decide) rfl hread hsame

end TunProxy.Vpn
