import TunProxy.Native.Ip
import TunProxy.Native.Theorems.Checksum

/-!
# Packets given to the handlers

Which packets `handle_ip` gives to a handler, and where the handler then looks for options and data.
-/

namespace TunProxy.Native

open Lib.OnesComplement

variable {mem : Nat → UInt8} {pkt : Bytes} {length payload off rounds size words : Nat} {loglevel : Int}
  {protocol p : UInt8}

/-! ## Lengths that wrap around -/

theorem optLen_of_le (h : 5 ≤ words) (hw : words < 16) : 20 + optLen words = 4 * words := by
  unfold optLen
  omega

/-- A length of less than five words becomes a long one. -/
theorem optLen_of_lt (h : words < 5) : 20 + optLen words = 256 + 4 * words := by
  unfold optLen
  omega

theorem ihl_lt (mem : Nat → UInt8) : ihl mem < 16 := Nat.mod_lt _ (by decide)

theorem doff_lt (mem : Nat → UInt8) (payload : Nat) : doff mem payload < 16 := by
  have := (mem (payload + 12)).toNat_lt
  unfold doff
  omega

theorem optLen_lt (words : Nat) : optLen words < 256 := by
  unfold optLen
  omega

/-- The test for the length of a header: it lets pass what begins behind the packet. -/
theorem tooShort_iff (hl : length < 2 ^ 32) (hp : payload < 2 ^ 32) (hs : size < 2 ^ 32) :
    toSize ((length : Int) - payload) < size ↔ payload ≤ length ∧ length < payload + size := by
  unfold toSize
  omega

theorem headerSize_lt (h : headerSize protocol = some size) : size ≤ 28 := by
  unfold headerSize at h
  split at h
  · cases h
    decide
  · split at h
    · cases h
      decide
    · split at h
      · cases h
        decide
      · cases h

theorem headerSize_isSome (h : headerSize protocol = some size) : isUpperLayer protocol = true := by
  unfold headerSize at h
  split at h
  · rename_i hp
    rcases hp with rfl | rfl <;> rfl
  · split at h
    · rename_i hp
      subst hp
      rfl
    · split at h
      · rename_i hp
        subst hp
        rfl
      · cases h

/-! ## IPv6 -/

theorem not_upper_of_lower (h : isLowerLayer p = true) : isUpperLayer p = false := by
  simp only [isLowerLayer, List.mem_cons, List.not_mem_nil, or_false, decide_eq_true_eq] at h
  rcases h with rfl | rfl | rfl | rfl | rfl | rfl | rfl | rfl <;> rfl

/-- Only lower layers are taken from an extension header. -/
theorem skipExtensions_not_upper (h : isUpperLayer protocol = false)
    (hs : skipExtensions mem rounds protocol off = some (p, payload)) : isUpperLayer p = false := by
  induction rounds generalizing protocol off with
  | zero => cases hs
  | succ rounds ih =>
      simp only [skipExtensions] at hs
      split at hs
      · rename_i hlower
        exact ih (not_upper_of_lower hlower.1) hs
      · cases hs
        exact h

/-- A packet with extension headers has no handler. -/
theorem ip6Payload_upper (hp : isUpperLayer protocol = true) :
    ip6Payload mem length = some (protocol, payload) ↔ 40 ≤ length ∧ protocol = mem 6 ∧ payload = 40 := by
  unfold ip6Payload
  split
  · rename_i hshort
    constructor
    · intro h
      cases h
    · intro h
      omega
  · rename_i hlong
    split
    · simp only [Option.some.injEq, Prod.mk.injEq]
      constructor
      · rintro ⟨rfl, rfl⟩
        exact ⟨by omega, rfl, rfl⟩
      · rintro ⟨-, rfl, rfl⟩
        exact ⟨rfl, rfl⟩
    · rename_i hup
      have hup : isUpperLayer (mem 6) = false := by simpa using hup
      constructor
      · intro h
        split at h
        · cases h
        · rename_i q off hq
          rw [if_neg (by simp [skipExtensions_not_upper hup hq])] at h
          cases h
          rw [hup] at hp
          cases hp
      · rintro ⟨-, rfl, -⟩
        rw [hup] at hp
        cases hp

/-! ## IPv4 -/

/-- The sum of a header is not zero: the test for it drops nothing. -/
theorem header_sum_ne (h : ipVersion mem ≠ 0) : calcChecksum 0 (bytesAt mem 0 20) ≠ 0 := by
  have hlen : (bytesAt mem 0 20).length = 20 := by simp [bytesAt]
  have hle := wordSumLE_le (l := bytesAt mem 0 20)
  rw [calcChecksum_eq (by omega)]
  have hpos : 0 < wordSumLE (bytesAt mem 0 20) := by
    have h0 : 0 < (mem 0).toNat := by
      unfold ipVersion at h
      omega
    have hcons : bytesAt mem 0 20 = mem 0 :: mem 1 :: bytesAt mem 2 18 := rfl
    rw [hcons, wordSumLE]
    omega
  unfold canon
  split <;> omega

/-- The test for fragments reads another bit: one of the offset. -/
theorem fragOff_test : fragOff mem &&& IP_MF = 0 ↔ (mem 7).toNat.testBit 5 = false := by
  have hbit : (fragOff mem).getLsbD 13 = (mem 7).toNat.testBit 5 := by
    rw [fragOff, BitVec.getLsbD_append]
    rfl
  have hmf : IP_MF = BitVec.twoPow 16 13 := by decide
  rw [hmf, BitVec.and_twoPow, hbit]
  cases (mem 7).toNat.testBit 5 with
  | false => simp
  | true => simp [BitVec.twoPow]

theorem ip4Payload_iff (hv : ipVersion mem = 4) :
    ip4Payload mem length loglevel = some (protocol, payload) ↔
      20 ≤ length ∧ (mem 7).toNat.testBit 5 = false ∧ (ntohs mem 2).toNat = length ∧ protocol = mem 9 ∧
        payload = 20 + optLen (ihl mem) := by
  have hsum := @header_sum_ne mem (by omega)
  rw [← fragOff_test]
  unfold ip4Payload
  split
  · constructor
    · intro h
      cases h
    · intro h
      omega
  · split
    · rename_i hfrag
      constructor
      · intro h
        cases h
      · intro h
        exact absurd h.2.1 hfrag
    · split
      · rename_i htot
        constructor
        · intro h
          cases h
        · intro h
          exact absurd h.2.2.1 htot
      · rename_i hlong hfrag htot
        rw [if_neg (fun h => hsum h.2)]
        simp only [Option.some.injEq, Prod.mk.injEq]
        constructor
        · rintro ⟨rfl, rfl⟩
          exact ⟨by omega, by simpa using hfrag, by simpa using htot, rfl, rfl⟩
        · rintro ⟨-, -, -, rfl, rfl⟩
          exact ⟨rfl, rfl⟩

/-! ## Dispatch -/

theorem dispatch_iff : dispatch mem length loglevel = some (protocol, payload) ↔
    ipPayload mem length loglevel = some (protocol, payload) ∧
      ∃ size, headerSize protocol = some size ∧ ¬toSize ((length : Int) - payload) < size := by
  unfold dispatch
  cases hp : ipPayload mem length loglevel with
  | none =>
      constructor
      · intro h
        cases h
      · intro h
        cases h.1
  | some x =>
      obtain ⟨q, start⟩ := x
      simp only [Option.some.injEq, Prod.mk.injEq]
      cases hs : headerSize q with
      | none =>
          constructor
          · intro h
            cases h
          · rintro ⟨⟨rfl, rfl⟩, size, hsize, -⟩
            rw [hs] at hsize
            cases hsize
      | some size =>
          simp only []
          constructor
          · intro h
            split at h
            · cases h
            · rename_i hlong
              cases h
              exact ⟨⟨rfl, rfl⟩, size, hs, hlong⟩
          · rintro ⟨⟨rfl, rfl⟩, size', hsize, hlong⟩
            rw [hs] at hsize
            cases hsize
            rw [if_neg hlong]

/-- Where the header behind that of IPv4 is looked for. -/
def ip4Start (mem : Nat → UInt8) : Nat := if ihl mem < 5 then 256 + 4 * ihl mem else 4 * ihl mem

theorem ip4Start_eq : 20 + optLen (ihl mem) = ip4Start mem := by
  unfold ip4Start
  split
  · exact optLen_of_lt ‹_›
  · exact optLen_of_le (by omega) (ihl_lt mem)

theorem ip4Start_lt (mem : Nat → UInt8) : ip4Start mem < 276 := by
  rw [← ip4Start_eq]
  have := optLen_lt (ihl mem)
  omega

theorem dispatch4_iff (hv : ipVersion mem = 4) (hl : length < 2 ^ 32) :
    dispatch mem length loglevel = some (protocol, payload) ↔
      20 ≤ length ∧ (mem 7).toNat.testBit 5 = false ∧ (ntohs mem 2).toNat = length ∧ protocol = mem 9 ∧
        payload = ip4Start mem ∧
        ∃ size, headerSize (mem 9) = some size ∧ ¬(ip4Start mem ≤ length ∧ length < ip4Start mem + size) := by
  have hstart := ip4Start_lt mem
  rw [dispatch_iff, ipPayload, if_pos hv, ip4Payload_iff hv, ip4Start_eq]
  constructor
  · rintro ⟨⟨hlong, hbit, htot, rfl, rfl⟩, size, hs, hfit⟩
    have := headerSize_lt hs
    rw [tooShort_iff hl (by omega) (by omega)] at hfit
    exact ⟨hlong, hbit, htot, rfl, rfl, size, hs, hfit⟩
  · rintro ⟨hlong, hbit, htot, rfl, rfl, size, hs, hfit⟩
    have := headerSize_lt hs
    rw [← tooShort_iff hl (by omega) (by omega)] at hfit
    exact ⟨⟨hlong, hbit, htot, rfl, rfl⟩, size, hs, hfit⟩

theorem dispatch6_iff (hv : ipVersion mem = 6) (hl : length < 2 ^ 32) :
    dispatch mem length loglevel = some (protocol, payload) ↔
      protocol = mem 6 ∧ payload = 40 ∧ ∃ size, headerSize (mem 6) = some size ∧ 40 + size ≤ length := by
  rw [dispatch_iff, ipPayload, if_neg (by omega), if_pos hv]
  constructor
  · rintro ⟨hp, size, hs, hfit⟩
    have := headerSize_lt hs
    obtain ⟨hlong, rfl, rfl⟩ := (ip6Payload_upper (headerSize_isSome hs)).1 hp
    rw [tooShort_iff hl (by omega) (by omega)] at hfit
    exact ⟨rfl, rfl, size, hs, by omega⟩
  · rintro ⟨rfl, rfl, size, hs, hfit⟩
    have := headerSize_lt hs
    refine ⟨(ip6Payload_upper (headerSize_isSome hs)).2 ⟨by omega, rfl, rfl⟩, size, hs, ?_⟩
    rw [tooShort_iff hl (by omega) (by omega)]
    omega

theorem dispatch_version (h : dispatch mem length loglevel = some (protocol, payload)) :
    ipVersion mem = 4 ∨ ipVersion mem = 6 := by
  have hp := (dispatch_iff.1 h).1
  unfold ipPayload at hp
  split at hp
  · exact .inl ‹_›
  · split at hp
    · exact .inr ‹_›
    · cases hp

/-! ## Well-formed packets -/

/-- The packet is a fragment: more follow, or it is not the first. -/
def IsFragment (mem : Nat → UInt8) : Prop :=
  (mem 6).toNat.testBit 5 = true ∨ (mem 6).toNat % 32 * 256 + (mem 7).toNat ≠ 0

instance : Decidable (IsFragment mem) := inferInstanceAs (Decidable (_ ∨ _))

/-- What the handler of a packet relies on: nothing it computes wraps around, and what it reads is in the packet. -/
structure WellFormed (mem : Nat → UInt8) (length : Nat) (protocol : UInt8) (payload : Nat) : Prop where
  ihl : ipVersion mem = 4 → 5 ≤ ihl mem ∧ (optLen (ihl mem) : Int) = ((ihl mem : Int) - 5) * 4
  whole : ipVersion mem = 4 → ¬IsFragment mem
  start : (toSize ((length : Int) - payload) : Int) = (length : Int) - payload
  header : ∃ size, headerSize protocol = some size ∧ payload + size ≤ length
  tcp : protocol = IPPROTO_TCP →
    (tcpOptlen mem payload : Int) = ((doff mem payload : Int) - 5) * 4 ∧
      payload + 20 + tcpOptlen mem payload ≤ length ∧
      (tcpDatalen mem length payload : Int) = (length : Int) - tcpData mem payload ∧
      tcpData mem payload + tcpDatalen mem length payload ≤ length
  udp : protocol = IPPROTO_UDP →
    (udpDatalen length payload : Int) = (length : Int) - (payload + 8 : Nat) ∧
      payload + 8 + udpDatalen length payload ≤ length

/-- `handle_ip` calls the handler of the protocol. -/
def Calls (w : World) (mem : Nat → UInt8) (length : Nat) (a : IpArgs) (protocol : UInt8) (payload : Nat) : Prop :=
  dispatch mem length a.loglevel = some (protocol, payload) ∧
    ∃ p, ipPkt mem length a.loglevel = some p ∧ overLimit w a p = false

/-- The data offset says fewer words than the header has, or more than the packet has. -/
def BadOffset (mem : Nat → UInt8) (length payload : Nat) : Prop :=
  doff mem payload < 5 ∨ length < payload + 4 * doff mem payload

instance : Decidable (BadOffset mem length payload) := inferInstanceAs (Decidable (_ ∨ _))

/-- The packets `handle_ip` does not drop but should. -/
def Misread (mem : Nat → UInt8) (length : Nat) : Prop :=
  ipVersion mem = 4 ∧ 20 ≤ length ∧ (ntohs mem 2).toNat = length ∧ (mem 7).toNat.testBit 5 = false ∧
      (∃ size, headerSize (mem 9) = some size ∧
        (ihl mem < 5 ∧ ¬(256 + 4 * ihl mem ≤ length ∧ length < 256 + 4 * ihl mem + size) ∨
          5 ≤ ihl mem ∧ length < 4 * ihl mem ∨
          5 ≤ ihl mem ∧ 4 * ihl mem + size ≤ length ∧
            (IsFragment mem ∨ mem 9 = IPPROTO_TCP ∧ BadOffset mem length (4 * ihl mem)))) ∨
    ipVersion mem = 6 ∧ mem 6 = IPPROTO_TCP ∧ 60 ≤ length ∧ BadOffset mem length 40

/-! ## Where they are -/

/-- In a TCP packet with its fixed header, options and data are in the packet unless the data offset is bad. -/
theorem tcp_inside_iff (hl : length ≤ MTU) (hp : payload + 20 ≤ length) :
    ((tcpOptlen mem payload : Int) = ((doff mem payload : Int) - 5) * 4 ∧
      payload + 20 + tcpOptlen mem payload ≤ length ∧
      (tcpDatalen mem length payload : Int) = (length : Int) - tcpData mem payload ∧
      tcpData mem payload + tcpDatalen mem length payload ≤ length) ↔ ¬BadOffset mem length payload := by
  unfold MTU at hl
  unfold BadOffset tcpDatalen tcpData tcpOptlen optLen toSize
  have hd := doff_lt mem payload
  generalize doff mem payload = words at hd
  constructor
  · rintro ⟨hopt, hin, -, -⟩ hbad
    omega
  · intro hgood
    have hle : 5 ≤ words ∧ payload + 4 * words ≤ length := by omega
    refine ⟨?_, ?_, ?_, ?_⟩ <;> omega

theorem udp_inside (hl : length ≤ MTU) (hp : payload + 8 ≤ length) :
    (udpDatalen length payload : Int) = (length : Int) - (payload + 8 : Nat) ∧
      payload + 8 + udpDatalen length payload ≤ length := by
  unfold MTU at hl
  unfold udpDatalen toSize
  omega

theorem headerSize_tcp (hp : protocol = IPPROTO_TCP) (hs : headerSize protocol = some size) : size = 20 := by
  rw [hp] at hs
  cases hs
  rfl

theorem headerSize_udp (hp : protocol = IPPROTO_UDP) (hs : headerSize protocol = some size) : size = 8 := by
  rw [hp] at hs
  cases hs
  rfl

theorem misread4_iff (hv : ipVersion mem = 4) (hd : dispatch mem length loglevel = some (protocol, payload))
    (hl : length < 2 ^ 32) (hs : headerSize (mem 9) = some size) :
    ¬Misread mem length ↔ 5 ≤ ihl mem ∧ 4 * ihl mem + size ≤ length ∧ ¬IsFragment mem ∧
      (mem 9 = IPPROTO_TCP → ¬BadOffset mem length (4 * ihl mem)) := by
  obtain ⟨hlong, hbit, htot, -, -, size', hs', hfit⟩ := (dispatch4_iff hv hl).1 hd
  cases hs.symm.trans hs'
  constructor
  · intro hmis
    have hge : 5 ≤ ihl mem := by
      by_contra hlt
      have hstart : ip4Start mem = 256 + 4 * ihl mem := if_pos (by omega)
      rw [hstart] at hfit
      exact hmis (.inl ⟨hv, hlong, htot, hbit, size, hs, .inl ⟨by omega, hfit⟩⟩)
    have hstart : ip4Start mem = 4 * ihl mem := if_neg (by omega)
    rw [hstart] at hfit
    have hin : 4 * ihl mem + size ≤ length := by
      by_contra hout
      exact hmis (.inl ⟨hv, hlong, htot, hbit, size, hs, .inr (.inl ⟨hge, by omega⟩)⟩)
    have hrest : ¬(IsFragment mem ∨ mem 9 = IPPROTO_TCP ∧ BadOffset mem length (4 * ihl mem)) := fun h =>
      hmis (.inl ⟨hv, hlong, htot, hbit, size, hs, .inr (.inr ⟨hge, hin, h⟩)⟩)
    rw [not_or, not_and] at hrest
    exact ⟨hge, hin, hrest⟩
  · rintro ⟨hge, hin, hwhole, htcp⟩ hmis
    rcases hmis with ⟨-, -, -, -, size', hs', hmis⟩ | ⟨hv', -⟩
    · cases hs.symm.trans hs'
      rcases hmis with ⟨hlt, -⟩ | ⟨-, hlt⟩ | ⟨-, -, hfrag | ⟨hp, hbad⟩⟩
      · omega
      · omega
      · exact hwhole hfrag
      · exact htcp hp hbad
    · omega

theorem wellFormed4_iff (hv : ipVersion mem = 4) (hl : length ≤ MTU)
    (hd : dispatch mem length loglevel = some (protocol, payload)) :
    WellFormed mem length protocol payload ↔ ¬Misread mem length := by
  have hmtu : length < 2 ^ 32 := by
    unfold MTU at hl
    omega
  obtain ⟨-, -, -, rfl, rfl, size, hs, -⟩ := (dispatch4_iff hv hmtu).1 hd
  rw [misread4_iff hv hd hmtu hs]
  constructor
  · rintro ⟨hwords, hwhole, -, ⟨size', hs', hin⟩, htcp, -⟩
    obtain ⟨hge, -⟩ := hwords hv
    cases hs.symm.trans hs'
    have hstart : ip4Start mem = 4 * ihl mem := if_neg (by omega)
    rw [hstart] at htcp hin
    refine ⟨hge, hin, hwhole hv, fun hp => ?_⟩
    have := headerSize_tcp hp hs
    exact (tcp_inside_iff hl (by omega)).1 (htcp hp)
  · rintro ⟨hge, hin, hwhole, htcp⟩
    have hstart : ip4Start mem = 4 * ihl mem := if_neg (by omega)
    rw [hstart]
    refine ⟨fun _ => ⟨hge, ?_⟩, fun _ => hwhole, ?_, ⟨size, hs, hin⟩, fun hp => ?_, fun hp => ?_⟩
    · have := optLen_of_le hge (ihl_lt mem)
      omega
    · unfold toSize
      omega
    · have := headerSize_tcp hp hs
      exact (tcp_inside_iff hl (by omega)).2 (htcp hp)
    · have := headerSize_udp hp hs
      exact udp_inside hl (by omega)

theorem wellFormed6_iff (hv : ipVersion mem = 6) (hl : length ≤ MTU)
    (hd : dispatch mem length loglevel = some (protocol, payload)) :
    WellFormed mem length protocol payload ↔ ¬Misread mem length := by
  have hmtu : length < 2 ^ 32 := by
    unfold MTU at hl
    omega
  obtain ⟨rfl, rfl, size, hs, hin⟩ := (dispatch6_iff hv hmtu).1 hd
  constructor
  · rintro ⟨-, -, -, -, htcp, -⟩ hmis
    rcases hmis with ⟨hv', -⟩ | ⟨-, hp, hlong, hbad⟩
    · omega
    · exact (tcp_inside_iff hl (by omega)).1 (htcp hp) hbad
  · intro hmis
    refine ⟨fun hv' => by omega, fun hv' => by omega, ?_, ⟨size, hs, hin⟩, fun hp => ?_, fun hp => ?_⟩
    · unfold toSize
      omega
    · have := headerSize_tcp hp hs
      exact (tcp_inside_iff hl (by omega)).2 fun hbad => hmis (.inr ⟨hv, hp, by omega, hbad⟩)
    · have := headerSize_udp hp hs
      exact udp_inside hl (by omega)

theorem wellFormed_iff (hl : length ≤ MTU) (hd : dispatch mem length loglevel = some (protocol, payload)) :
    WellFormed mem length protocol payload ↔ ¬Misread mem length := by
  rcases dispatch_version hd with hv | hv
  · exact wellFormed4_iff hv hl hd
  · exact wellFormed6_iff hv hl hd

/-- A misread packet has a handler. -/
theorem dispatch_of_misread (hl : length < 2 ^ 32) (h : Misread mem length) (loglevel : Int) :
    ∃ protocol payload, dispatch mem length loglevel = some (protocol, payload) := by
  rcases h with ⟨hv, hlong, htot, hbit, size, hs, hmis⟩ | ⟨hv, hp, hlong, -⟩
  · refine ⟨mem 9, ip4Start mem, (dispatch4_iff hv hl).2 ⟨hlong, hbit, htot, rfl, rfl, size, hs, ?_⟩⟩
    unfold ip4Start
    rcases hmis with ⟨hlt, hfit⟩ | ⟨hge, hlt⟩ | ⟨hge, hin, -⟩
    · rwa [if_pos hlt]
    · rw [if_neg (by omega)]
      omega
    · rw [if_neg (by omega)]
      omega
  · refine ⟨mem 6, 40, (dispatch6_iff hv hl).2 ⟨rfl, rfl, 20, ?_, by omega⟩⟩
    rw [hp]
    rfl

/-- Below the limit every packet with a handler is given to it. -/
theorem calls_of_dispatch (w : World) (h : dispatch mem length loglevel = some (protocol, payload)) :
    Calls w mem length { loglevel, sessions := 0, maxsessions := 1 } protocol payload := by
  refine ⟨h, ?_⟩
  unfold ipPkt
  simp only [h]
  split
  · exact ⟨_, rfl, by simp [overLimit]⟩
  · split
    · exact ⟨_, rfl, by simp [overLimit]⟩
    · exact ⟨_, rfl, by simp [overLimit]⟩

/-- For a packet read from the tun: whatever the sessions are, the handlers get it only when it is well formed, exactly
if it is none of those `handle_ip` misreads. -/
theorem handlers_wellFormed_iff (pkt : Bytes) (heap : Nat → UInt8) (hlen : 1 ≤ pkt.length ∧ pkt.length ≤ MTU) :
    (∀ w a protocol payload, Calls w (memAt pkt heap) pkt.length a protocol payload →
        WellFormed (memAt pkt heap) pkt.length protocol payload) ↔
      ¬Misread (memAt pkt heap) pkt.length := by
  constructor
  · intro h hmis
    have hl : pkt.length < 2 ^ 32 := by
      have := hlen.2
      unfold MTU at this
      omega
    obtain ⟨protocol, payload, hd⟩ := dispatch_of_misread hl hmis ANDROID_LOG_WARN
    exact (wellFormed_iff hlen.2 hd).1 (h World.init _ _ _ (calls_of_dispatch World.init hd)) hmis
  · intro hmis w a protocol payload hcall
    exact (wellFormed_iff hlen.2 hcall.1).2 hmis

/-- A datagram without data. The byte `frag` is the first one of `frag_off`. -/
def sampleDatagram (frag : UInt8) : Bytes :=
  [0x45, 0, 0, 28, 0, 0, frag, 0, 64, 17, 0, 0, 10, 1, 10, 1, 8, 8, 8, 8, 0x13, 0x88, 0, 80, 0, 8, 0, 0]

/-- An ACK without options and data. The byte `offset` is that of the data offset. -/
def sampleAck (offset : UInt8) : Bytes :=
  [0x45, 0, 0, 40, 0, 0, 0, 0, 64, 6, 0, 0, 10, 1, 10, 1, 8, 8, 8, 8, 0x13, 0x88, 0, 80, 0, 0, 0, 1, 0, 0, 0, 1,
    offset, 16, 0, 0, 0, 0, 0, 0]

theorem handlers_wellFormed_iff_datagram :
    Calls World.init (memAt (sampleDatagram 0) fun _ => 0) 28 { sessions := 0, maxsessions := 1 } 17 20 ∧
      WellFormed (memAt (sampleDatagram 0) fun _ => 0) 28 17 20 := by
  have hd : dispatch (memAt (sampleDatagram 0) fun _ => 0) 28 ANDROID_LOG_WARN = some (17, 20) := by decide
  have hcall := calls_of_dispatch World.init hd
  refine ⟨hcall, ((handlers_wellFormed_iff (sampleDatagram 0) (fun _ => 0) ⟨by decide, by decide⟩).2 ?_) _ _ _ _ hcall⟩
  rintro (⟨-, -, -, -, size, hs, hmis⟩ | ⟨hv, -⟩)
  · have hsize : headerSize (memAt (sampleDatagram 0) (fun _ => 0) 9) = some 8 := by decide
    rw [hsize] at hs
    cases hs
    revert hmis
    decide
  · revert hv
    decide

/-- The first of several fragments is handled; and an ACK that claims 40 bytes of options it does not have is handled
with 65496 bytes of data behind the packet. -/
theorem handlers_get_misread :
    (∃ w a protocol payload, Calls w (memAt (sampleDatagram 0x20) fun _ => 0) 28 a protocol payload ∧
      ¬WellFormed (memAt (sampleDatagram 0x20) fun _ => 0) 28 protocol payload) ∧
    ∃ w a protocol payload, Calls w (memAt (sampleAck 0xF0) fun _ => 0) 40 a protocol payload ∧
      tcpDatalen (memAt (sampleAck 0xF0) fun _ => 0) 40 payload = 65496 ∧
      ¬WellFormed (memAt (sampleAck 0xF0) fun _ => 0) 40 protocol payload := by
  have hfrag : dispatch (memAt (sampleDatagram 0x20) fun _ => 0) 28 ANDROID_LOG_WARN = some (17, 20) := by decide
  have hack : dispatch (memAt (sampleAck 0xF0) fun _ => 0) 40 ANDROID_LOG_WARN = some (6, 20) := by decide
  refine ⟨⟨World.init, _, 17, 20, calls_of_dispatch World.init hfrag, fun h => ?_⟩,
    World.init, _, 6, 20, calls_of_dispatch World.init hack, by decide, fun h => ?_⟩
  · exact h.whole (by decide) (.inl (by decide))
  · have hdata := (h.tcp rfl).2.2.1
    revert hdata
    decide

end TunProxy.Native
