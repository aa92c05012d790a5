import TunProxy.Native.Packet
import TunProxy.Native.Tcp.Step

/-!
# Packets for the client verify

What `calc_checksum` chains over little-endian words is what a receiver checks over big-endian ones.
-/

namespace TunProxy.Native

open Lib.Bytes Lib.OnesComplement

variable {version len start : Nat} {protocol : UInt8} {src dst check block seg data : Bytes} {blocks : List Bytes}
  {source dest : BitVec 16} {p : TunPacket}

/-! ## `calc_checksum` -/

theorem words_eq : calcChecksum.words block = wordSumLE block := by
  induction block using wordSumLE.induct with
  | case1 a b rest ih => rw [calcChecksum.words, wordSumLE, ih]
  | case2 a => rfl
  | case3 => rfl

/-- While the sum stays in 32 bits, it is folded to a number that stands for it. -/
theorem calcChecksum_eq (h : start + wordSumLE block < 2 ^ 32) :
    calcChecksum start block = canon (start + wordSumLE block) := by
  have hc : calcChecksum start block = fold (fold (start + wordSumLE block)) := by
    rw [calcChecksum, words_eq, Nat.mod_eq_of_lt h]
    rfl
  generalize start + wordSumLE block = n at h hc
  have hle : fold (fold n) ≤ 65535 := by
    unfold fold
    omega
  rw [hc, ← canon_of_le hle, canon_fold, canon_fold]

theorem chain_eq (hstart : start ≤ 65535) (h : NoOverflow start blocks) :
    chain start blocks = canon (start + (blocks.map wordSumLE).sum) := by
  induction blocks generalizing start with
  | nil => exact (canon_of_le hstart).symm
  | cons block blocks ih =>
      obtain ⟨hfit, hrest⟩ := h
      rw [words_eq] at hfit
      rw [calcChecksum_eq hfit] at hrest
      rw [chain, List.foldl_cons, calcChecksum_eq hfit, List.map_cons, List.sum_cons, ← Nat.add_assoc]
      exact (ih canon_le hrest).trans canon_canon_add

/-- Blocks of a packet are too short for an overflow. -/
theorem noOverflow_of_le (hstart : start ≤ 65535) (h : ∀ block ∈ blocks, block.length ≤ 65535) :
    NoOverflow start blocks := by
  induction blocks generalizing start with
  | nil => trivial
  | cons block blocks ih =>
      have hle := wordSumLE_le (l := block)
      have hlen := h block List.mem_cons_self
      have hfit : start + wordSumLE block < 2 ^ 32 := by omega
      refine ⟨words_eq ▸ hfit, ?_⟩
      rw [calcChecksum_eq hfit]
      exact ih canon_le fun b hb => h b (List.mem_cons_of_mem _ hb)

/-- The complement of a sum counts as its two bytes in memory. -/
theorem wordSumLE_checkBytes {csum : Nat} : wordSumLE (checkBytes csum) = 0xFFFF - csum := by
  simp only [checkBytes, u16Bytes, wordSumLE, UInt8.toNat_ofNat']
  omega

/-! ## What a receiver checks -/

/-- The sum over the header of IPv4. -/
def headerSum (pkt : Bytes) : Nat := sum16 (pkt.take 20)

/-- The sum over the pseudo header, for the addresses in the packet, and everything behind the IP header. -/
def segmentSum (version : Nat) (pkt : Bytes) : Nat :=
  if version = 4 then
    sum16 (pseudo4 (slice 12 4 pkt) (slice 16 4 pkt) (pkt.getD 9 0) (pkt.length - 20) ++ pkt.drop 20)
  else sum16 (pseudo6 (slice 8 16 pkt) (slice 24 16 pkt) (pkt.getD 6 0) (pkt.length - 40) ++ pkt.drop 40)

/-- The pseudo header of the standard. -/
def standardPseudo (version : Nat) (protocol : UInt8) (src dst : Bytes) (len : Nat) : Bytes :=
  if version = 4 then pseudo4 src dst protocol len else pseudo6 src dst protocol len

/-! ## Headers -/

/-- A checksum counts as its word. -/
theorem wordSumLE_iphdr (hc : check.length = 2) :
    wordSumLE (iphdr len protocol check src dst) =
      wordSumLE (iphdr len protocol [0, 0] src dst) + wordSumLE check := by
  obtain ⟨a, b, rfl⟩ := List.length_eq_two.1 hc
  simp only [iphdr, toBE, List.cons_append, List.nil_append, wordSumLE]
  simp
  omega

theorem wordSumLE_tcphdr (hc : check.length = 2) :
    wordSumLE (tcphdr source dest p check) = wordSumLE (tcphdr source dest p [0, 0]) + wordSumLE check := by
  obtain ⟨a, b, rfl⟩ := List.length_eq_two.1 hc
  simp only [tcphdr, toBE, List.cons_append, List.nil_append, wordSumLE]
  simp
  omega

theorem wordSumLE_udphdr (hc : check.length = 2) :
    wordSumLE (udphdr source dest len check) = wordSumLE (udphdr source dest len [0, 0]) + wordSumLE check := by
  obtain ⟨a, b, rfl⟩ := List.length_eq_two.1 hc
  simp only [udphdr, toBE, List.cons_append, List.nil_append, wordSumLE]
  simp
  omega

theorem length_even (version : Nat) : addrLen version % 2 = 0 := by
  unfold addrLen
  split <;> rfl

theorem length_ipHeader (hs : src.length = addrLen version) (hd : dst.length = addrLen version) :
    (ipHeader version protocol src dst len).length = if version = 4 then 20 else 40 := by
  unfold addrLen at hs hd
  unfold ipHeader
  split
  · rename_i hv
    rw [if_pos hv] at hs hd
    exact length_iphdr rfl hs hd
  · rename_i hv
    rw [if_neg hv] at hs hd
    exact length_ip6Hdr hs hd

theorem length_pseudo (hs : src.length = addrLen version) (hd : dst.length = addrLen version) :
    (pseudo version protocol src dst len).length = if version = 4 then 12 else 40 := by
  unfold addrLen at hs hd
  unfold pseudo
  split
  · rename_i hv
    rw [if_pos hv] at hs hd
    simp [ippseudo, hs, hd]
  · rename_i hv
    rw [if_neg hv] at hs hd
    simp [pseudoHeader, hs, hd]

/-- Neither the swapped addresses nor the place of the length change the sum. -/
theorem wordSumLE_pseudo (hs : src.length = addrLen version) (hd : dst.length = addrLen version) (hl : len < 65536) :
    wordSumLE (pseudo version protocol src dst len) = wordSumLE (standardPseudo version protocol src dst len) := by
  have hse : src.length % 2 = 0 := hs ▸ length_even version
  have hde : dst.length % 2 = 0 := hd ▸ length_even version
  unfold pseudo standardPseudo
  split
  · rfl
  · have hhi : len / 256 ^ 3 = 0 := by omega
    have hmid : len / 256 ^ 2 = 0 := by omega
    simp only [pseudoHeader, pseudo6, List.append_assoc, wordSumLE_append hse, wordSumLE_append hde, toBE, hhi, hmid,
      List.cons_append, List.nil_append, wordSumLE]
    simp
    omega

/-- The sum of a header of IPv4 does not depend on what follows it. -/
theorem headerSum_eq (hs : src.length = 4) (hd : dst.length = 4) :
    headerSum (ipHeader 4 protocol src dst len ++ seg) = sum16 (ipHeader 4 protocol src dst len) := by
  have hlen : (ipHeader 4 protocol src dst len).length = 20 := length_ipHeader hs hd
  rw [headerSum, List.take_left' hlen]

theorem ipBlocks_fit (hs : src.length = addrLen version) (hd : dst.length = addrLen version) :
    NoOverflow 0 (ipBlocks version protocol src dst len) := by
  unfold addrLen at hs hd
  unfold ipBlocks
  split
  · rename_i hv
    rw [if_pos hv] at hs hd
    have hlen : (blankHeader protocol src dst len).length = 20 := length_iphdr rfl hs hd
    apply noOverflow_of_le (Nat.zero_le _)
    intro block hb
    rw [List.mem_singleton.1 hb, hlen]
    decide
  · trivial

/-- The header of IPv4 verifies. -/
theorem ipHeader_verifies (hs : src.length = 4) (hd : dst.length = 4) :
    sum16 (ipHeader 4 protocol src dst len) = 0xFFFF := by
  have hfit : NoOverflow 0 (ipBlocks 4 protocol src dst len) := ipBlocks_fit hs hd
  have hsum := chain_eq (Nat.zero_le _) hfit
  have hblocks : ((ipBlocks 4 protocol src dst len).map wordSumLE).sum =
      wordSumLE (blankHeader protocol src dst len) := Nat.add_zero _
  rw [hblocks, Nat.zero_add] at hsum
  apply verifies_complement_le (s := wordSumLE (blankHeader protocol src dst len))
  rw [ipHeader, if_pos rfl, wordSumLE_iphdr rfl, wordSumLE_checkBytes, hsum]
  rfl

/-- The fields a receiver reads, in a packet with the addresses behind `head`. -/
theorem fields_of_head {head : Bytes} {n k : Nat} (seg : Bytes) (i : Nat) (hk : head.length = k) (hi : i < k)
    (hs : src.length = n)
    (hd : dst.length = n) :
    slice k n (head ++ (src ++ dst) ++ seg) = src ∧ slice (k + n) n (head ++ (src ++ dst) ++ seg) = dst ∧
      (head ++ (src ++ dst) ++ seg).getD i 0 = head.getD i 0 ∧
      (head ++ (src ++ dst) ++ seg).drop (k + 2 * n) = seg ∧
      (head ++ (src ++ dst) ++ seg).length - (k + 2 * n) = seg.length := by
  subst hk
  have hlen : (head ++ (src ++ dst)).length = head.length + 2 * n := by
    simp only [List.length_append]
    omega
  refine ⟨?_, ?_, ?_, List.drop_left' hlen, ?_⟩
  · rw [slice_append_left (by omega), slice_append_right (Nat.le_refl _), Nat.sub_self,
      slice_append_left (by omega), slice_full hs]
  · rw [slice_append_left (by omega), slice_append_right (by omega), Nat.add_sub_cancel_left,
      slice_append_right (by omega), hs, Nat.sub_self, slice_full hd]
  · rw [List.append_assoc, List.getD_eq_getElem?_getD, List.getElem?_append_left hi, List.getD_eq_getElem?_getD]
  · rw [List.length_append, hlen, Nat.add_sub_cancel_left]

theorem segmentSum_eq (hs : src.length = addrLen version) (hd : dst.length = addrLen version) (hl : seg.length = len) :
    segmentSum version (ipHeader version protocol src dst len ++ seg) =
      sum16 (standardPseudo version protocol src dst len ++ seg) := by
  subst hl
  unfold segmentSum standardPseudo ipHeader
  unfold addrLen at hs hd
  split
  · rename_i hv
    rw [if_pos hv] at hs hd
    obtain ⟨head, hk, hp, heq⟩ := iphdr_eq (20 + seg.length) protocol src dst
      (length_checkBytes (chain 0 (ipBlocks version protocol src dst seg.length)))
    obtain ⟨hsrc, hdst, hproto, hdrop, hrest⟩ := fields_of_head seg 9 hk (by omega) hs hd
    rw [heq, hsrc, hdst, hproto, hp, hdrop, hrest]
  · rename_i hv
    rw [if_neg hv] at hs hd
    obtain ⟨head, hk, hp, heq⟩ := ip6Hdr_eq seg.length protocol src dst
    obtain ⟨hsrc, hdst, hproto, hdrop, hrest⟩ := fields_of_head seg 6 hk (by omega) hs hd
    rw [heq, hsrc, hdst, hproto, hp, hdrop, hrest]

/-- What is behind the IP header verifies when it carries the complement of the sum of the rest. -/
theorem segment_verifies (rest : Nat) (hs : src.length = addrLen version) (hd : dst.length = addrLen version)
    (hl : seg.length = len) (hlen : len < 65536)
    (hseg : wordSumLE seg = rest + (0xFFFF - canon (wordSumLE (pseudo version protocol src dst len) + rest))) :
    segmentSum version (ipHeader version protocol src dst len ++ seg) = 0xFFFF := by
  have heven : (standardPseudo version protocol src dst len).length % 2 = 0 := by
    have he := length_even version
    unfold standardPseudo
    split
    · simp only [pseudo4, List.length_append, List.length_cons, List.length_nil, length_toBE]
      omega
    · simp only [pseudo6, List.length_append, List.length_cons, List.length_nil, length_toBE]
      omega
  rw [segmentSum_eq hs hd hl]
  apply verifies_complement_le (s := wordSumLE (pseudo version protocol src dst len) + rest)
  rw [wordSumLE_append heven, hseg, wordSumLE_pseudo hs hd hlen]
  omega

/-! ## The two writers -/

/-- The addresses of a session have the size of its version. -/
def Addressed (version : Nat) (saddr daddr : Bytes) : Prop :=
  addrLen version ≤ saddr.length ∧ addrLen version ≤ daddr.length

/-- Both sums of the packet are all ones; IPv6 has no sum of its header. -/
def Verifies (version : Nat) (pkt : Bytes) : Prop :=
  (version = 4 → headerSum pkt = 0xFFFF) ∧ segmentSum version pkt = 0xFFFF

/-- A header in which a checksum counts as its word. -/
def SumsCheck (hdr : Bytes → Bytes) : Prop :=
  ∀ check, check.length = 2 → (hdr check).length % 2 = 0 ∧
    wordSumLE (hdr check) = wordSumLE (hdr [0, 0]) + wordSumLE check

/-- A packet whose checksum is the complement of the sum of its pseudo header, its header and the blocks behind it. -/
theorem packet_verifies (protocol : UInt8) {hdr : Bytes → Bytes} {body : List Bytes} (hs : src.length = addrLen version)
    (hd : dst.length = addrLen version) (hhdr : SumsCheck hdr)
    (hbody : wordSumLE body.flatten = (body.map wordSumLE).sum)
    (hl : ∀ check, check.length = 2 → (hdr check ++ body.flatten).length = len) (hlen : len ≤ 65535) :
    let blocks := pseudo version protocol src dst len :: hdr [0, 0] :: body
    Verifies version (ipHeader version protocol src dst len ++ (hdr (checkBytes (chain 0 blocks)) ++ body.flatten)) ∧
      NoOverflow 0 (ipBlocks version protocol src dst len) ∧ NoOverflow 0 blocks := by
  intro blocks
  have hfit : NoOverflow 0 blocks := by
    have hblank := hl [0, 0] rfl
    rw [List.length_append] at hblank
    apply noOverflow_of_le (Nat.zero_le _)
    intro block hb
    rcases List.mem_cons.1 hb with rfl | hb
    · rw [length_pseudo hs hd]
      split <;> decide
    · rcases List.mem_cons.1 hb with rfl | hb
      · omega
      · have hle : block.length ≤ body.flatten.length := (List.sublist_flatten_of_mem hb).length_le
        omega
  refine ⟨⟨?_, ?_⟩, ipBlocks_fit hs hd, hfit⟩
  · intro hv
    subst hv
    rw [headerSum_eq hs hd]
    exact ipHeader_verifies hs hd
  · have hcheck := length_checkBytes (chain 0 blocks)
    have hsum := chain_eq (Nat.zero_le _) hfit
    apply segment_verifies (wordSumLE (hdr [0, 0]) + (body.map wordSumLE).sum) hs hd (hl _ hcheck) (by omega)
    rw [wordSumLE_append (hhdr _ hcheck).1, (hhdr _ hcheck).2, hbody, wordSumLE_checkBytes, hsum]
    simp only [blocks, List.map_cons, List.sum_cons, Nat.zero_add]
    omega

theorem tcphdr_sums : SumsCheck (tcphdr source dest p) := by
  intro check hc
  exact ⟨by rw [length_tcphdr hc], wordSumLE_tcphdr hc⟩

theorem udphdr_sums : SumsCheck (udphdr source dest len) := by
  intro check hc
  exact ⟨by rw [length_udphdr hc], wordSumLE_udphdr hc⟩

theorem tcpBuffer_verifies {s : TcpSession} (h : Addressed s.version s.saddr s.daddr)
    (hopt : p.options.length % 2 = 0) (hlen : (tcpBuffer s p).length ≤ 65535) :
    Verifies s.version (tcpBuffer s p) ∧
      NoOverflow 0 (ipBlocks s.version IPPROTO_TCP (member s.version s.daddr) (member s.version s.saddr) p.len) ∧
      NoOverflow 0 (tcpBlocks s p) := by
  have hl : ∀ check, check.length = 2 →
      (tcphdr s.dest s.source p check ++ [p.options, p.data].flatten).length = p.len := by
    intro check hc
    simp [length_tcphdr hc, TunPacket.len, Nat.add_assoc]
  have hbody : wordSumLE [p.options, p.data].flatten = ([p.options, p.data].map wordSumLE).sum := by
    simp [wordSumLE_append hopt]
  have hflat : p.options ++ p.data = [p.options, p.data].flatten := by simp
  rw [tcpBuffer, hflat] at hlen ⊢
  rw [List.length_append, hl _ (length_checkBytes _)] at hlen
  exact packet_verifies IPPROTO_TCP (length_member h.2) (length_member h.1) tcphdr_sums hbody hl (by omega)

theorem udpBuffer_verifies {s : UdpSession} (h : Addressed s.version s.saddr s.daddr)
    (hlen : (udpBuffer s data).length ≤ 65535) :
    Verifies s.version (udpBuffer s data) ∧
      NoOverflow 0 (ipBlocks s.version IPPROTO_UDP (member s.version s.daddr) (member s.version s.saddr)
        (8 + data.length)) ∧
      NoOverflow 0 (udpBlocks s data) := by
  have hl : ∀ check, check.length = 2 →
      (udphdr s.dest s.source (8 + data.length) check ++ [data].flatten).length = 8 + data.length := by
    intro check hc
    simp [length_udphdr hc]
  have hflat : data = [data].flatten := by simp
  rw [udpBuffer] at hlen ⊢
  rw [List.length_append, List.length_append, length_udphdr (length_checkBytes _)] at hlen
  have hv := packet_verifies IPPROTO_UDP (length_member h.2) (length_member h.1) udphdr_sums (by simp) hl
    (by omega)
  rwa [← hflat] at hv

/-- Every packet `write_tcp` or `write_udp` builds verifies, while it is no longer than a length can say; and no sum
overflows. -/
theorem emitted_verifies :
    (∀ (s : TcpSession) (data : Bytes) (syn ack fin rst : Bool), Addressed s.version s.saddr s.daddr →
      (tcpBuffer s (tunPacket s data syn ack fin rst)).length ≤ 65535 →
      Verifies s.version (tcpBuffer s (tunPacket s data syn ack fin rst)) ∧
        NoOverflow 0 (ipBlocks s.version IPPROTO_TCP (member s.version s.daddr) (member s.version s.saddr)
          (tunPacket s data syn ack fin rst).len) ∧
        NoOverflow 0 (tcpBlocks s (tunPacket s data syn ack fin rst))) ∧
    ∀ (s : UdpSession) (data : Bytes), Addressed s.version s.saddr s.daddr → (udpBuffer s data).length ≤ 65535 →
      Verifies s.version (udpBuffer s data) ∧
        NoOverflow 0 (ipBlocks s.version IPPROTO_UDP (member s.version s.daddr) (member s.version s.saddr)
          (8 + data.length)) ∧
        NoOverflow 0 (udpBlocks s data) := by
  constructor
  · intro s data syn ack fin rst h hlen
    have hopt : (tunPacket s data syn ack fin rst).options.length % 2 = 0 := by
      cases syn <;> simp [tunPacket, synOptions, u16Bytes]
    exact tcpBuffer_verifies h hopt hlen
  · intro s data h hlen
    exact udpBuffer_verifies h hlen

def sampleUdpSession : UdpSession :=
  { time := 0, version := 6, mss := UDP6_MAXMSG, sent := 0, received := 0, saddr := List.replicate 16 1, source := 5000
    daddr := List.replicate 16 2, dest := 53, state := .active, socket := 6, io := [] }

/-- A SYN with an odd payload, and a datagram of IPv6. -/
theorem emitted_verifies_sample :
    (Verifies 4 (tcpBuffer (sampleSession 80) (tunPacket (sampleSession 80) [97, 98, 99] true true false false)) ∧
      NoOverflow 0 (tcpBlocks (sampleSession 80) (tunPacket (sampleSession 80) [97, 98, 99] true true false false))) ∧
    Verifies 6 (udpBuffer sampleUdpSession [1, 2, 3]) := by
  have htcp := emitted_verifies.1 (sampleSession 80) [97, 98, 99] true true false false ⟨by decide, by decide⟩
    (by decide +kernel)
  have hudp := emitted_verifies.2 sampleUdpSession [1, 2, 3] ⟨by decide, by decide⟩ (by decide +kernel)
  exact ⟨⟨htcp.1, htcp.2.2⟩, hudp.1⟩

end TunProxy.Native
