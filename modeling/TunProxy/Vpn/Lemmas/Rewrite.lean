import TunProxy.Vpn.Lemmas.Packet
import TunProxy.Vpn.Nat

/-!
# What becomes of a rewritten packet
-/

namespace TunProxy.Vpn

open Native (Bytes)
open Lib.Bytes Lib.OnesComplement CommonMethods

variable {data : Bytes} {size header off len r s : Nat}

/-! ## What is checked -/

/-- The header `header` bytes long. -/
def ipHeader (data : Bytes) (header : Nat) : Bytes := slice 0 header data

/-- The TCP segment of a packet `total` bytes long, before it the pseudo-header: the addresses, a zero, the
protocol and the length. -/
def pseudoSegment (data : Bytes) (header total : Nat) : Bytes :=
  slice 12 8 data ++ [0, IPHeader.TCP] ++ toBE 2 (total - header) ++ slice header (total - header) data

/-! ## The checksum functions -/

/-- The checksum computed with its own field zero and stored in the field is the complement of the rest. -/
theorem wordSum_sealed (data : Bytes) (off len r s : Nat) (hr : off ≤ r) (he : (r - off) % 2 = 0)
    (hlen : r + 2 ≤ off + len)
    (h : off + len ≤ data.length) {c : Nat}
    (hc : c = 65535 - canon (s + wordSum (slice off len (patch r (toBE 2 0) data)))) :
    ∃ n, s + wordSum (slice off len (patch r (toBE 2 c) data)) = n + (65535 - canon n) := by
  have hs := length_slice h
  have hz : slice off len (patch r (toBE 2 0) data) = patch (r - off) (toBE 2 0) (slice off len data) :=
    slice_patch_inside h hr (by simpa using hlen)
  have hw := wordSum_patch_toBE (l := slice off len data) (n := c) he (by omega) (by omega)
  refine ⟨s + wordSum (slice off len (patch r (toBE 2 0) data)), ?_⟩
  rw [slice_patch_inside h hr (by simpa using hlen), hw, ← hz, ← Nat.add_assoc, ← hc]

/-- Both bytes of the checksum lie in the header, whatever is in the packet. -/
theorem computeIPChecksum_of_header (hh : IPHeader.getHeaderLength data = some header) (hm : 20 ≤ header)
    (hle : header ≤ data.length) :
    ∃ c b, computeIPChecksum data = some (patch 10 (toBE 2 c) data, b) ∧
      sum16 (ipHeader (patch 10 (toBE 2 c) data) header) = 0xFFFF := by
  have hh₀ : IPHeader.getHeaderLength (patch 10 (toBE 2 0) data) = some header := by
    rw [← hh, IPHeader.getHeaderLength, IPHeader.getHeaderLength, getElem?_patch_of_not (by simp; omega) (by omega)]
  have hl₀ : (patch 10 (toBE 2 0) data).length = data.length := length_patch (by simp; omega)
  -- what the checksum is computed to
  generalize hc : 65535 - canon (0 + wordSum (slice 0 header (patch 10 (toBE 2 0) data))) = c
  have hcv : (BitVec.ofNat 16 c).toNat = c := by rw [BitVec.toNat_ofNat]; omega
  have hcs : checksum 0 (patch 10 (toBE 2 0) data) 0 header = some (BitVec.ofNat 16 c) := by
    rw [checksum_eq (by omega), hc]
  obtain ⟨n, hn⟩ := wordSum_sealed data 0 header 10 0
    (by omega) (by omega) (by omega) (by omega) hc.symm
  have hrun : ∃ b, computeIPChecksum data = some (patch 10 (toBE 2 c) data, b) := by
    rw [computeIPChecksum, IPHeader.getCrc, readShort_eq (by omega)]
    simp only [Option.bind_eq_bind, Option.bind_some, IPHeader.setCrc]
    rw [writeShort_zero (by omega), Option.bind_some, hh₀, Option.bind_some,
      hcs, Option.bind_some, writeShort_eq (by omega), hcv, patch_patch (by simp; omega) (by simp)]
    exact ⟨_, rfl⟩
  obtain ⟨b, hb⟩ := hrun
  exact ⟨c, b, hb, verifies_complement (s := n) (by rw [ipHeader]; omega)⟩

theorem computeIPChecksum_spec (h : IsTcp data size header) :
    ∃ c b, computeIPChecksum data = some (patch 10 (toBE 2 c) data, b) ∧
      sum16 (ipHeader (patch 10 (toBE 2 c) data) header) = 0xFFFF := by
  obtain ⟨t, -, ht, hts⟩ := h.total
  have hsize := h.size_le
  exact computeIPChecksum_of_header h.headerLength h.minimal (by omega)

theorem wordSum_pseudoSegment {total : Nat} (h : 20 ≤ data.length) (ht : total < 65536) :
    wordSum (pseudoSegment data header total) = wordSum (slice 12 8 data) + IPHeader.TCP.toNat + (total - header)
      + wordSum (slice header (total - header) data) := by
  have hs : (slice 12 8 data).length = 8 := length_slice h
  have hk : wordSum (toBE 2 (total - header)) = total - header := by
    simp [toBE]
    omega
  rw [pseudoSegment, wordSum_append (by simp [hs]), wordSum_append (by simp [hs]),
    wordSum_append (by simp [hs]), hk, wordSum_cons2]
  simp

/-- What is written lies in the two checksum fields, and both checksums are right afterwards. -/
theorem computeTCPChecksum_spec (h : IsTcp data size header) :
    ∃ c₁ c₂ b data', computeTCPChecksum data header = some (data', b) ∧
      data' = patch (header + 16) (toBE 2 c₂) (patch 10 (toBE 2 c₁) data) ∧
      sum16 (ipHeader data' header) = 0xFFFF ∧
      ∀ total, IPHeader.getTotalLength data = some total →
        sum16 (pseudoSegment data' header total) = 0xFFFF := by
  have hm := h.minimal
  obtain ⟨t, ht, hht, hts⟩ := h.total
  have hsize := h.size_le
  obtain ⟨c₁, b, hip, hsum⟩ := computeIPChecksum_spec h
  have h₁ := h.patched (i := 10) (b := toBE 2 c₁) (by omega) (by simp; omega)
  have hl₁ : (patch 10 (toBE 2 c₁) data).length = data.length := length_patch (by simp; omega)
  have ht₁ : IPHeader.getTotalLength (patch 10 (toBE 2 c₁) data) = some t := by
    rw [IPHeader.getTotalLength, readShort_patch (by simp; omega) (by omega)]
    exact ht
  have htlt : t < 65536 := by
    rw [IPHeader.getTotalLength, readShort_eq (by omega)] at ht
    cases ht
    exact BitVec.isLt _
  generalize hd : patch 10 (toBE 2 c₁) data = data₁ at hip hsum h₁ hl₁ ht₁
  -- the second field, of the segment behind the pseudo-header
  generalize hs : wordSum (slice 12 8 data₁) + IPHeader.TCP.toNat + (t - header) = s
  generalize hc : 65535 - canon (s + wordSum (slice header (t - header)
    (patch (header + 16) (toBE 2 0) data₁))) = c₂
  have hcv : (BitVec.ofNat 16 c₂).toNat = c₂ := by rw [BitVec.toNat_ofNat]; omega
  have hcs : checksum s (patch (header + 16) (toBE 2 0) data₁) header (t - header)
      = some (BitVec.ofNat 16 c₂) := by
    rw [checksum_eq (by rw [length_patch (by simp; omega)]; omega), hc]
  obtain ⟨n, hn⟩ := wordSum_sealed data₁ header (t - header) (header + 16) s
    (by omega) (by omega) (by omega) (by omega) hc.symm
  have hl₂ : (patch (header + 16) (toBE 2 c₂) data₁).length = data₁.length := length_patch (by simp; omega)
  have hrun : ∃ b, computeTCPChecksum data header = some (patch (header + 16) (toBE 2 c₂) data₁, b) := by
    rw [computeTCPChecksum, hip]
    simp only [Option.bind_eq_bind, Option.bind_some]
    rw [ht₁, Option.bind_some, h₁.headerLength, Option.bind_some, if_neg (by omega)]
    rw [getsum_eq (by omega), Option.bind_some, h₁.protocol, Option.bind_some, hs]
    simp only [TCPHeader.getCrc, TCPHeader.setCrc]
    rw [readShort_eq (by omega), Option.bind_some, writeShort_zero (by omega), Option.bind_some, hcs,
      Option.bind_some, writeShort_eq (by rw [length_patch (by simp; omega)]; omega), hcv,
      patch_patch (by simp; omega) (by simp)]
    exact ⟨_, rfl⟩
  obtain ⟨b', hb⟩ := hrun
  refine ⟨c₁, c₂, b', _, hb, by rw [hd], ?_, ?_⟩
  · rw [ipHeader, slice_patch_of_disjoint (by simp; omega) (by omega)]
    exact hsum
  · intro total htotal
    obtain rfl : t = total := Option.some.inj (ht.symm.trans htotal)
    apply verifies_complement (s := n)
    have h8 : slice 12 8 (patch (header + 16) (toBE 2 c₂) data₁) = slice 12 8 data₁ :=
      slice_patch_of_disjoint (by simp; omega) (by omega)
    rw [wordSum_pseudoSegment (by omega) htlt, h8, hs, hn]

/-! ## Rewriting -/

/-- The bytes of the two checksums. -/
def checksumField (header i : Nat) : Prop := (10 ≤ i ∧ i < 12) ∨ (header + 16 ≤ i ∧ i < header + 18)

/-- The bytes of the two addresses, and of the port at `port`. -/
def addressField (port i : Nat) : Prop := (12 ≤ i ∧ i < 20) ∨ (port ≤ i ∧ i < port + 2)

/-- `p` is the packet in the first `size` bytes of `data` with other addresses, another port at `port` and the
checksums of the result. -/
structure Rewritten (data p : Bytes) (size header port : Nat) (source dest : BitVec 32)
    (sourcePort destPort : BitVec 16) : Prop where
  length : p.length = size
  source : IPHeader.getSourceIP p = some source
  dest : IPHeader.getDestinationIP p = some dest
  sourcePort : TCPHeader.getSourcePort p header = some sourcePort
  destPort : TCPHeader.getDestinationPort p header = some destPort
  ipSum : sum16 (ipHeader p header) = 0xFFFF
  tcpSum : ∀ total, IPHeader.getTotalLength data = some total → sum16 (pseudoSegment p header total) = 0xFFFF
  same : ∀ i, i < size → ¬ addressField port i → ¬ checksumField header i → p[i]? = data[i]?

variable {port : Nat} {source dest : BitVec 32} {sport dport : BitVec 16} {b d : Bytes}

theorem readShort_take (h : off + 2 ≤ size) : readShort (data.take size) off = readShort data off := by
  rw [readShort, readShort, List.getElem?_take, if_pos (by omega), List.getElem?_take, if_pos (by omega)]

theorem readInt_take (h : off + 4 ≤ size) : readInt (data.take size) off = readInt data off := by
  rw [readInt, readInt, List.getElem?_take, if_pos (by omega), List.getElem?_take, if_pos (by omega),
    List.getElem?_take, if_pos (by omega), List.getElem?_take, if_pos (by omega)]

/-- Once the addresses and ports of the array `d` are set, the checksums are the last step. -/
theorem Rewritten.of_fields (h : IsTcp data size header) (hd : IsTcp d size header)
    (hl : d.length = data.length) (hs : IPHeader.getSourceIP d = some source)
    (hd' : IPHeader.getDestinationIP d = some dest) (hsp : TCPHeader.getSourcePort d header = some sport)
    (hdp : TCPHeader.getDestinationPort d header = some dport)
    (hsame : ∀ i, ¬ addressField port i → d[i]? = data[i]?) (hport : header ≤ port) :
    ∃ data' b, computeTCPChecksum d header = some (data', b) ∧
      Rewritten data (data'.take size) size header port source dest sport dport := by
  obtain ⟨c₁, c₂, b, data', hc, rfl, hip, htcp⟩ := computeTCPChecksum_spec hd
  have hm := h.minimal
  obtain ⟨t, ht, hht, hts⟩ := h.total
  have hsize := h.size_le
  have hl₁ : (patch 10 (toBE 2 c₁) d).length = d.length := length_patch (by simp; omega)
  have hl₂ : (patch (header + 16) (toBE 2 c₂) (patch 10 (toBE 2 c₁) d)).length = d.length := by
    rw [length_patch (by simp; omega), hl₁]
  have htd : IPHeader.getTotalLength d = some t := by
    obtain ⟨t', ht', -⟩ := hd.total
    rw [IPHeader.getTotalLength, readShort, hsame 2 (by simp [addressField]; omega),
      hsame 3 (by simp [addressField]; omega)]
    exact ht
  refine ⟨_, b, hc, ?_, ?_, ?_, ?_, ?_, ?_, ?_, ?_⟩
  · rw [List.length_take, hl₂]
    omega
  · rw [IPHeader.getSourceIP, readInt_take (by omega), readInt_patch (by simp; omega) (by omega),
      readInt_patch (by simp; omega) (by simp)]
    exact hs
  · rw [IPHeader.getDestinationIP, readInt_take (by omega), readInt_patch (by simp; omega) (by omega),
      readInt_patch (by simp; omega) (by simp)]
    exact hd'
  · rw [TCPHeader.getSourcePort, readShort_take (by omega), readShort_patch (by simp; omega) (by omega),
      readShort_patch (by simp; omega) (by simp; omega)]
    exact hsp
  · rw [TCPHeader.getDestinationPort, readShort_take (by omega), readShort_patch (by simp; omega) (by omega),
      readShort_patch (by simp; omega) (by simp; omega)]
    exact hdp
  · rw [ipHeader, slice_take (by omega)]
    exact hip
  · intro total htotal
    obtain rfl : t = total := Option.some.inj (ht.symm.trans htotal)
    have := htcp t htd
    rwa [pseudoSegment, slice_take (by omega), slice_take (by omega)]
  · intro i hi ha hcf
    simp only [checksumField] at hcf
    rw [List.getElem?_take, if_pos hi, getElem?_patch_of_not (by simp; omega) (by simp; omega),
      getElem?_patch_of_not (by simp; omega) (by simp; omega)]
    exact hsame i ha

end TunProxy.Vpn
