import TunProxy.Native.Theorems.Checksum
import TunProxy.Vpn.Lemmas.Rewrite

/-!
# When a UDP checksum is sent as zero

Neither side replaces a computed zero by `0xFFFF`.
-/

namespace TunProxy.Vpn

open Native (Bytes UdpSession member udpBuffer udphdr udpBlocks Addressed)
open Lib.Bytes Lib.OnesComplement CommonMethods

/-- The words a UDP checksum is made of: those of the addresses, the protocol, the length, and those of the UDP header
and payload, with a checksum of zero. -/
def udpWords (addresses segment : Bytes) : Nat := wordSum addresses + 17 + segment.length + wordSum segment

theorem canon_udpWords {addresses segment : Bytes} :
    canon (udpWords addresses segment) = 65535 ↔ udpWords addresses segment % 65535 = 0 := by
  have hpos : 0 < udpWords addresses segment := by
    unfold udpWords
    omega
  rw [canon_eq_ones]
  exact and_iff_right hpos

/-! ## `write_udp` -/

section Native

variable {s : UdpSession} {data : Bytes}

/-- The checksum of a UDP packet, as it is in memory. -/
def udpCheck (version : Nat) (pkt : Bytes) : Bytes := slice ((if version = 4 then 20 else 40) + 6) 2 pkt

def answerAddresses (s : UdpSession) : Bytes := member s.version s.daddr ++ member s.version s.saddr

/-- The header and the payload, with a checksum of zero. -/
def answerSegment (s : UdpSession) (data : Bytes) : Bytes := udphdr s.dest s.source (8 + data.length) [0, 0] ++ data

theorem udpCheck_eq (h : Addressed s.version s.saddr s.daddr) :
    udpCheck s.version (udpBuffer s data) = Native.checkBytes (Native.chain 0 (udpBlocks s data)) := by
  have hlen : (Native.ipHeader s.version Native.IPPROTO_UDP (member s.version s.daddr) (member s.version s.saddr)
      (8 + data.length)).length = if s.version = 4 then 20 else 40 :=
    Native.length_ipHeader (Native.length_member h.2) (Native.length_member h.1)
  have hports : (toBE 2 s.dest.toNat ++ toBE 2 s.source.toNat ++ toBE 2 (8 + data.length)).length = 6 := by simp
  rw [udpCheck, udpBuffer, ← hlen, slice_append_right (Nat.le_add_right _ _), Nat.add_sub_cancel_left, udphdr,
    slice_append_left (by rw [List.length_append, hports]; rfl), slice_append_right (by rw [hports]), hports]
  exact slice_full rfl

theorem checkBytes_eq_zero {csum : Nat} (h : csum ≤ 65535) : Native.checkBytes csum = [0, 0] ↔ csum = 65535 := by
  constructor
  · intro hz
    have hw : wordSumLE (Native.checkBytes csum) = 0xFFFF - csum := Native.wordSumLE_checkBytes
    rw [hz] at hw
    simp only [wordSumLE] at hw
    simp at hw
    omega
  · rintro rfl
    rfl

theorem wordSum_pseudo {version len : Nat} {src dst : Bytes} (hs : src.length % 2 = 0) (hd : dst.length % 2 = 0)
    (hl : len < 65536) :
    wordSum (Native.pseudo version Native.IPPROTO_UDP src dst len) = wordSum (src ++ dst) + 17 + len := by
  have hk : wordSum (toBE 2 len) = len := by
    simp [toBE]
    omega
  unfold Native.pseudo
  split
  · rw [Native.ippseudo, wordSum_append (by simp; omega), wordSum_append (by simp; omega), hk]
    rfl
  · rw [Native.pseudoHeader, wordSum_append (by simp; omega), wordSum_append (by simp; omega),
      wordSum_append (l := dst) hd, wordSum_append (l := src) hs, wordSum_append (by simp), hk]
    simp only [wordSum_cons2, wordSum_nil]
    simp [Native.IPPROTO_UDP]
    omega

/-- Folding little-endian words gives all ones where folding big-endian ones does. -/
theorem canon_ones_le {l : Bytes} : canon (wordSumLE l) = 65535 ↔ canon (wordSum l) = 65535 := by
  have hle : canon (wordSumLE l) ≤ 65535 := canon_le
  rw [canon_wordSum]
  omega

def answerPseudo (s : UdpSession) (data : Bytes) : Bytes :=
  Native.pseudo s.version Native.IPPROTO_UDP (member s.version s.daddr) (member s.version s.saddr) (8 + data.length)

theorem length_udphdr_zero : (udphdr s.dest s.source (8 + data.length) [0, 0]).length = 8 := Native.length_udphdr rfl

theorem answerPseudo_even (h : Addressed s.version s.saddr s.daddr) : (answerPseudo s data).length % 2 = 0 := by
  rw [answerPseudo, Native.length_pseudo (Native.length_member h.2) (Native.length_member h.1)]
  split <;> rfl

/-- The sums over the three blocks, one after the other, are the sum over the whole. -/
theorem chain_udpBlocks (h : Addressed s.version s.saddr s.daddr) (hlen : 8 + data.length ≤ 65535) :
    Native.chain 0 (udpBlocks s data) = canon (wordSumLE (answerPseudo s data ++ answerSegment s data)) := by
  have hfit : Native.NoOverflow 0 (udpBlocks s data) := by
    apply Native.noOverflow_of_le (Nat.zero_le _)
    intro block hb
    simp only [udpBlocks, List.mem_cons, List.not_mem_nil, or_false] at hb
    rcases hb with rfl | rfl | rfl
    · rw [Native.length_pseudo (Native.length_member h.2) (Native.length_member h.1)]
      split <;> decide
    · rw [length_udphdr_zero]
      decide
    · omega
  rw [Native.chain_eq (Nat.zero_le _) hfit, Nat.zero_add, wordSumLE_append (answerPseudo_even h), answerSegment,
    wordSumLE_append (by rw [length_udphdr_zero])]
  simp [udpBlocks, answerPseudo]

theorem wordSum_answer (h : Addressed s.version s.saddr s.daddr) (hlen : 8 + data.length ≤ 65535) :
    wordSum (answerPseudo s data ++ answerSegment s data) = udpWords (answerAddresses s) (answerSegment s data) := by
  have heven := Native.length_even s.version
  have hseg : (answerSegment s data).length = 8 + data.length := by
    rw [answerSegment, List.length_append, length_udphdr_zero]
  rw [wordSum_append (answerPseudo_even h), answerPseudo, wordSum_pseudo (by rw [Native.length_member h.2]; exact heven)
    (by rw [Native.length_member h.1]; exact heven) (by omega), udpWords, hseg, answerAddresses]

theorem udpCheck_zero_iff (h : Addressed s.version s.saddr s.daddr) (hlen : 8 + data.length ≤ 65535) :
    udpCheck s.version (udpBuffer s data) = [0, 0] ↔
      udpWords (answerAddresses s) (answerSegment s data) % 65535 = 0 := by
  rw [udpCheck_eq h, chain_udpBlocks h hlen, checkBytes_eq_zero canon_le, canon_ones_le, wordSum_answer h hlen,
    canon_udpWords]

end Native

/-! ## `ComputeUDPChecksum` -/

section Java

variable {data : Bytes} {header total : Nat}

/-- An IP packet at the beginning of the array, which holds a whole UDP header behind its own of `header` bytes. -/
structure IsUdp (data : Bytes) (header total : Nat) : Prop where
  protocol : IPHeader.getProtocol data = some IPHeader.UDP
  headerLength : IPHeader.getHeaderLength data = some header
  minimal : 20 ≤ header
  totalLength : IPHeader.getTotalLength data = some total
  room : header + 8 ≤ total
  total_le : total ≤ data.length

/-- The UDP header and the payload, with a checksum of zero. -/
def blankSegment (data : Bytes) (header total : Nat) : Bytes :=
  slice header (total - header) (patch (header + 6) [0, 0] data)

theorem IsUdp.header_le (h : IsUdp data header total) : header + 8 ≤ data.length := h.room.trans h.total_le

theorem IsUdp.total_lt (h : IsUdp data header total) : total < 65536 := by
  have ht := h.totalLength
  rw [IPHeader.getTotalLength, readShort_eq (by have := h.minimal; have := h.header_le; omega)] at ht
  cases ht
  exact BitVec.isLt _

/-- The checksum of the IP header lies beside all that the UDP checksum depends on. -/
theorem IsUdp.patched {c : Nat} (h : IsUdp data header total) : IsUdp (patch 10 (toBE 2 c) data) header total := by
  have hle := h.header_le
  have hm := h.minimal
  have hb : 10 + (toBE 2 c).length ≤ data.length := by
    rw [length_toBE]
    omega
  obtain ⟨hp, hh, -, ht, hr, htl⟩ := h
  refine ⟨?_, ?_, hm, ?_, hr, by rwa [length_patch hb]⟩
  · rw [← hp, IPHeader.getProtocol, IPHeader.getProtocol, getElem?_patch_of_not hb (by omega)]
  · rw [← hh, IPHeader.getHeaderLength, IPHeader.getHeaderLength, getElem?_patch_of_not hb (by omega)]
  · rw [← ht, IPHeader.getTotalLength, IPHeader.getTotalLength, readShort_patch hb (by omega)]

theorem length_blankSegment (h : IsUdp data header total) :
    (blankSegment data header total).length = total - header := by
  have hle := h.header_le
  have htl := h.total_le
  have hr := h.room
  exact length_slice (by rw [length_patch (by simpa using hle)]; omega)

theorem computeUDPChecksum_zero_iff (h : IsUdp data header total) :
    ∃ data' ok crc, computeUDPChecksum data header = some (data', ok) ∧ UDPHeader.getCrc data' header = some crc ∧
      (crc = 0 ↔ udpWords (slice 12 8 data) (blankSegment data header total) % 65535 = 0) := by
  have hm := h.minimal
  have hle := h.header_le
  have htl := h.total_le
  have hr := h.room
  have hlt := h.total_lt
  obtain ⟨c, ok, hip, -⟩ := computeIPChecksum_of_header h.headerLength hm (by omega)
  have h₁ := h.patched (c := c)
  have hb : 10 + (toBE 2 c).length ≤ data.length := by
    rw [length_toBE]
    omega
  have hl₁ := length_patch hb
  have haddr : slice 12 8 (patch 10 (toBE 2 c) data) = slice 12 8 data :=
    slice_patch_of_disjoint hb (.inr (by simp))
  have hseg : blankSegment (patch 10 (toBE 2 c) data) header total = blankSegment data header total := by
    rw [blankSegment, blankSegment,
      slice_patch_inside (i := header + 6) (l := patch 10 (toBE 2 c) data) (by omega) (by omega) (by simp; omega),
      slice_patch_inside (i := header + 6) (l := data) (by omega) (by omega) (by simp; omega),
      slice_patch_of_disjoint hb (.inr (by simp; omega))]
  have hlen := length_blankSegment h₁
  generalize patch 10 (toBE 2 c) data = data₁ at *
  -- the sum is folded, and its complement stored
  have hcs : checksum (wordSum (slice 12 8 data₁) + IPHeader.UDP.toNat + (total - header))
      (patch (header + 6) (toBE 2 0) data₁) header (total - header) =
      some (BitVec.ofNat 16 (65535 - canon (udpWords (slice 12 8 data) (blankSegment data header total)))) := by
    rw [checksum_eq (by rw [length_patch (by simp; omega)]; omega), haddr, ← hseg, udpWords, hlen]
    rfl
  have hcv : (BitVec.ofNat 16 (65535 - canon (udpWords (slice 12 8 data) (blankSegment data header total)))).toNat =
      65535 - canon (udpWords (slice 12 8 data) (blankSegment data header total)) := by
    rw [BitVec.toNat_ofNat]
    omega
  generalize hcrc : BitVec.ofNat 16 (65535 - canon (udpWords (slice 12 8 data) (blankSegment data header total))) =
    crc at *
  have hrun : ∃ ok', computeUDPChecksum data header =
      some (patch (header + 6) (toBE 2 crc.toNat) data₁, ok') := by
    rw [computeUDPChecksum, hip]
    simp only [Option.bind_eq_bind, Option.bind_some]
    rw [h₁.totalLength, Option.bind_some, h₁.headerLength, Option.bind_some, if_neg (by omega)]
    rw [getsum_eq (by omega), Option.bind_some, h₁.protocol, Option.bind_some]
    simp only [UDPHeader.getCrc, UDPHeader.setCrc]
    rw [readShort_eq (by omega), Option.bind_some, writeShort_zero (by omega), Option.bind_some, hcs,
      Option.bind_some, writeShort_eq (by rw [length_patch (by simp; omega)]; omega),
      patch_patch (by simp; omega) (by simp)]
    exact ⟨_, rfl⟩
  obtain ⟨ok', hrun⟩ := hrun
  refine ⟨_, ok', crc, hrun, readShort_patch_self (by omega), ?_⟩
  have hle' : canon (udpWords (slice 12 8 data) (blankSegment data header total)) ≤ 65535 := canon_le
  rw [← canon_udpWords, ← BitVec.toNat_inj, hcv]
  simp only [BitVec.ofNat_eq_ofNat, BitVec.toNat_ofNat]
  omega

end Java

/-! ## Both -/

/-- A checksum is sent as zero exactly where the words of the pseudo header, of the UDP header without its checksum, and
of the payload add up to a multiple of 65535; in all other packets it is not. -/
theorem udp_checksum_nonzero_iff (s : UdpSession) (payload : Bytes) (hs : Addressed s.version s.saddr s.daddr)
    (hlen : 8 + payload.length ≤ 65535) (data : Bytes) (header total : Nat) (hdata : IsUdp data header total) :
    (udpCheck s.version (udpBuffer s payload) ≠ [0, 0] ↔
      udpWords (answerAddresses s) (answerSegment s payload) % 65535 ≠ 0) ∧
    ∃ data' ok crc, computeUDPChecksum data header = some (data', ok) ∧ UDPHeader.getCrc data' header = some crc ∧
      (crc ≠ 0 ↔ udpWords (slice 12 8 data) (blankSegment data header total) % 65535 ≠ 0) := by
  constructor
  · exact not_congr (udpCheck_zero_iff hs hlen)
  · obtain ⟨data', ok, crc, hrun, hcrc, hzero⟩ := computeUDPChecksum_zero_iff hdata
    exact ⟨data', ok, crc, hrun, hcrc, not_congr hzero⟩

/-- A packet for DNS with two bytes of payload. -/
def sampleDatagram (x y : UInt8) : Bytes :=
  [0x45, 0, 0, 30, 0, 0, 0, 0, 64, 17, 0, 0] ++ [10, 8, 0, 2] ++ [8, 8, 8, 8] ++
    [0x13, 0x88, 0, 53, 0, 10, 0, 0] ++ [x, y]

theorem sampleDatagram_udp (x y : UInt8) : IsUdp (sampleDatagram x y) 20 30 :=
  ⟨rfl, rfl, by decide, rfl, by decide, Nat.le_refl _⟩

theorem udp_checksum_nonzero_iff_sample :
    udpCheck 6 (udpBuffer Native.sampleUdpSession [0, 0]) ≠ [0, 0] ∧
    ∃ data' ok crc, computeUDPChecksum (sampleDatagram 0 0) 20 = some (data', ok) ∧
      UDPHeader.getCrc data' 20 = some crc ∧ crc ≠ 0 := by
  obtain ⟨hcheck, data', ok, crc, hrun, hcrc, h⟩ := udp_checksum_nonzero_iff Native.sampleUdpSession [0, 0]
    ⟨by decide, by decide⟩ (by decide) (sampleDatagram 0 0) 20 30 (sampleDatagram_udp 0 0)
  exact ⟨hcheck.2 (by decide +kernel), data', ok, crc, hrun, hcrc, h.2 (by decide +kernel)⟩

theorem udp_checksum_zero :
    udpCheck 6 (udpBuffer Native.sampleUdpSession [0xD4, 0x05]) = [0, 0] ∧
    ∃ data' ok, computeUDPChecksum (sampleDatagram 0xD2 0x03) 20 = some (data', ok) ∧
      UDPHeader.getCrc data' 20 = some 0 := by
  constructor
  · decide +kernel
  · obtain ⟨data', ok, crc, hrun, hcrc, h⟩ := computeUDPChecksum_zero_iff (sampleDatagram_udp 0xD2 0x03)
    obtain rfl := h.2 (by decide +kernel)
    exact ⟨data', ok, hrun, hcrc⟩

end TunProxy.Vpn
