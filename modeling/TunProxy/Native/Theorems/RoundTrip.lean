import TunProxy.Native.Lemmas.Loop
import TunProxy.Native.Lemmas.Session
import TunProxy.Native.Tcp.Lemmas.Coherent
import TunProxy.Native.Tcp.Lemmas.Window

/-!
# Packets for the client, read by `handle_ip` and `handle_tcp`
-/

namespace TunProxy.Native

open Lib Lib.Bytes

variable {s : TcpSession} {p : TunPacket} {data pkt a b hdr rest src dst : Bytes} {heap : Nat → UInt8} {loglevel : Int}
  {syn ack fin rst : Bool} {pos len n i : Nat} {source dest : BitVec 16} {check : Bytes}

/-! ## The TCP header -/

/-- The flags of a packet for the client. -/
theorem tcpFlags_bits (p : TunPacket) :
    (tcpFlags p).toNat.testBit 1 = p.syn ∧ (tcpFlags p).toNat.testBit 4 = p.ack ∧
      (tcpFlags p).toNat.testBit 0 = p.fin ∧ (tcpFlags p).toNat.testBit 2 = p.rst ∧
      (tcpFlags p).toNat.testBit 3 = false ∧ (tcpFlags p).toNat.testBit 5 = false := by
  unfold tcpFlags
  cases p.syn <;> cases p.ack <;> cases p.fin <;> cases p.rst <;> decide

/-- What `handle_tcp` finds where `write_tcp` put its header. -/
structure HeaderRead (mem : Nat → UInt8) (payload : Nat) (source dest : BitVec 16) (p : TunPacket) : Prop where
  source : ntohs mem payload = source
  dest : ntohs mem (payload + 2) = dest
  seq : ntohl mem (payload + 4) = p.seq
  ackSeq : ntohl mem (payload + 8) = p.ackSeq
  doff : doff mem payload = (20 + p.options.length) / 4
  syn : tcpFlag mem payload 1 = p.syn
  ack : tcpFlag mem payload 4 = p.ack
  fin : tcpFlag mem payload 0 = p.fin
  rst : tcpFlag mem payload 2 = p.rst
  psh : tcpFlag mem payload 3 = false
  urg : tcpFlag mem payload 5 = false
  window : ntohs mem (payload + 14) = p.window

theorem headerRead (heap : Nat → UInt8) (source dest : BitVec 16) (rest : Bytes) (hn : a.length = n)
    (hc : check.length = 2) (hopt : p.options.length < 44) :
    HeaderRead (memAt (a ++ (tcphdr source dest p check ++ rest)) heap) n source dest p := by
  obtain ⟨x, y, rfl⟩ := List.length_eq_two.1 hc
  have hlen : (tcphdr source dest p [x, y] ++ rest).length = 20 + rest.length := by
    rw [List.length_append, length_tcphdr rfl]
  have hfield : ∀ pos len, pos + len ≤ 20 →
      bytesAt (memAt (a ++ (tcphdr source dest p [x, y] ++ rest)) heap) (n + pos) len =
        slice pos len (tcphdr source dest p [x, y]) := by
    intro pos len h
    rw [bytesAt_behind hn (by omega), slice_append_left (by rw [length_tcphdr rfl]; exact h)]
  have hflags : memAt (a ++ (tcphdr source dest p [x, y] ++ rest)) heap (n + 13) = tcpFlags p := by
    rw [memAt_behind hn (by omega)]
    rfl
  have hoff : memAt (a ++ (tcphdr source dest p [x, y] ++ rest)) heap (n + 12) =
      UInt8.ofNat ((20 + p.options.length) / 4 * 16) := by
    rw [memAt_behind hn (by omega)]
    rfl
  obtain ⟨hsyn, hack, hfin, hrst, hpsh, hurg⟩ := tcpFlags_bits p
  exact {
    source := ntohs_of_toBE (hfield 0 2 (by omega))
    dest := ntohs_of_toBE (hfield 2 2 (by omega))
    seq := ntohl_of_toBE (hfield 4 4 (by omega))
    ackSeq := ntohl_of_toBE (hfield 8 4 (by omega))
    doff := by
      rw [doff, hoff, UInt8.toNat_ofNat']
      omega
    syn := by rw [tcpFlag, hflags, hsyn]
    ack := by rw [tcpFlag, hflags, hack]
    fin := by rw [tcpFlag, hflags, hfin]
    rst := by rw [tcpFlag, hflags, hrst]
    psh := by rw [tcpFlag, hflags, hpsh]
    urg := by rw [tcpFlag, hflags, hurg]
    window := ntohs_of_toBE (hfield 14 2 (by omega)) }

/-! ## The IP header -/

/-- The length of the IP header, where the payload starts. -/
def ipLen (version : Nat) : Nat := if version = 4 then 20 else 40

/-- The length of a packet that its length field can say. -/
def maxLen (version : Nat) : Nat := if version = 4 then 65535 else 65535 + 40

/-- The length of the packet that its IP header says. -/
def lengthField (mem : Nat → UInt8) : Nat := if ipVersion mem = 4 then (ntohs mem 2).toNat else (ntohs mem 4).toNat + 40

/-- What `handle_ip` makes of a TCP packet for the client with `len` bytes behind the IP header. -/
structure IpRead (v : Nat) (src dst : Bytes) (len : Nat) (mem : Nat → UInt8) (loglevel : Int) : Prop where
  version : ipVersion mem = v
  saddr : srcAddr mem = src
  daddr : dstAddr mem = dst
  field : lengthField mem = ipLen v + len ↔ ipLen v + len ≤ maxLen v
  payload : ∀ {protocol start}, dispatch mem (ipLen v + len) loglevel = some (protocol, start) →
    protocol = IPPROTO_TCP ∧ start = ipLen v
  dispatched : ipLen v + len ≤ maxLen v → dispatch mem (ipLen v + len) loglevel = some (IPPROTO_TCP, ipLen v)

theorem ofBE_two (n : Nat) : (BitVec.ofNat 16 (ofBE (toBE 2 n))).toNat = n % 65536 := by
  rw [ofBE_toBE]
  simp

theorem ip4_read (hs : src.length = 4) (hd : dst.length = 4) (hlen : rest.length = len) (hlong : 20 ≤ len)
    (hshort : len < 2 ^ 17) :
    IpRead 4 src dst len (memAt (ipHeader 4 IPPROTO_TCP src dst len ++ rest) heap) loglevel := by
  have hip : (ipHeader 4 IPPROTO_TCP src dst len).length = 20 := length_ipHeader hs hd
  obtain ⟨head, hk, -, heq⟩ := iphdr_eq (20 + len) IPPROTO_TCP src dst
    (length_checkBytes (chain 0 (ipBlocks 4 IPPROTO_TCP src dst len)))
  obtain ⟨hsrc, hdst, -⟩ := fields_of_head rest 9 hk (by omega) hs hd
  rw [← heq] at hsrc hdst
  have h0 : memAt (ipHeader 4 IPPROTO_TCP src dst len ++ rest) heap 0 = 0x45 := rfl
  have h7 : memAt (ipHeader 4 IPPROTO_TCP src dst len ++ rest) heap 7 = 0 := rfl
  have h9 : memAt (ipHeader 4 IPPROTO_TCP src dst len ++ rest) heap 9 = IPPROTO_TCP := rfl
  have h2 : bytesAt (memAt (ipHeader 4 IPPROTO_TCP src dst len ++ rest) heap) 2 2 = toBE 2 (20 + len) := rfl
  have h12 : bytesAt (memAt (ipHeader 4 IPPROTO_TCP src dst len ++ rest) heap) 12 4 = src := by
    rw [bytesAt_memAt (by rw [List.length_append]; omega)]
    exact hsrc
  have h16 : bytesAt (memAt (ipHeader 4 IPPROTO_TCP src dst len ++ rest) heap) 16 4 = dst := by
    rw [bytesAt_memAt (by rw [List.length_append]; omega)]
    exact hdst
  generalize memAt (ipHeader 4 IPPROTO_TCP src dst len ++ rest) heap = mem at *
  have hv : ipVersion mem = 4 := by
    rw [ipVersion, h0]
    decide
  have hstart : ip4Start mem = 20 := by
    rw [ip4Start, ihl, h0]
    decide
  have htot : (ntohs mem 2).toNat = (20 + len) % 65536 := by rw [ntohs, h2, ofBE_two]
  have hl : ipLen 4 = 20 := rfl
  have hm : maxLen 4 = 65535 := rfl
  refine ⟨hv, ?_, ?_, ?_, ?_, ?_⟩
  · rw [srcAddr, if_pos hv, h12]
  · rw [dstAddr, if_pos hv, h16]
  · rw [lengthField, if_pos hv, htot]
    omega
  · intro protocol start hdis
    obtain ⟨-, -, -, rfl, rfl, -⟩ := (dispatch4_iff hv (by omega)).1 hdis
    exact ⟨h9, hstart⟩
  · intro hle
    refine (dispatch4_iff hv (by omega)).2 ⟨by omega, ?_, by omega, h9.symm, hstart.symm, 20, ?_, by omega⟩
    · rw [h7]
      decide
    · rw [h9]
      rfl

theorem ip6_read (hs : src.length = 16) (hd : dst.length = 16) (hlen : rest.length = len) (hlong : 20 ≤ len)
    (hshort : len < 2 ^ 17) :
    IpRead 6 src dst len (memAt (ipHeader 6 IPPROTO_TCP src dst len ++ rest) heap) loglevel := by
  have hip : (ipHeader 6 IPPROTO_TCP src dst len).length = 40 := length_ipHeader hs hd
  obtain ⟨head, hk, -, heq⟩ := ip6Hdr_eq len IPPROTO_TCP src dst
  obtain ⟨hsrc, hdst, -⟩ := fields_of_head rest 6 hk (by omega) hs hd
  rw [← heq] at hsrc hdst
  have h0 : memAt (ipHeader 6 IPPROTO_TCP src dst len ++ rest) heap 0 = 0x60 := rfl
  have h6 : memAt (ipHeader 6 IPPROTO_TCP src dst len ++ rest) heap 6 = IPPROTO_TCP := rfl
  have h4 : bytesAt (memAt (ipHeader 6 IPPROTO_TCP src dst len ++ rest) heap) 4 2 = toBE 2 len := rfl
  have h8 : bytesAt (memAt (ipHeader 6 IPPROTO_TCP src dst len ++ rest) heap) 8 16 = src := by
    rw [bytesAt_memAt (by rw [List.length_append]; omega)]
    exact hsrc
  have h24 : bytesAt (memAt (ipHeader 6 IPPROTO_TCP src dst len ++ rest) heap) 24 16 = dst := by
    rw [bytesAt_memAt (by rw [List.length_append]; omega)]
    exact hdst
  generalize memAt (ipHeader 6 IPPROTO_TCP src dst len ++ rest) heap = mem at *
  have hv : ipVersion mem = 6 := by
    rw [ipVersion, h0]
    decide
  have hplen : (ntohs mem 4).toNat = len % 65536 := by rw [ntohs, h4, ofBE_two]
  have hl : ipLen 6 = 40 := rfl
  have hm : maxLen 6 = 65575 := rfl
  refine ⟨hv, ?_, ?_, ?_, ?_, ?_⟩
  · rw [srcAddr, if_neg (by omega), h8]
  · rw [dstAddr, if_neg (by omega), h24]
  · rw [lengthField, if_neg (by omega), hplen]
    omega
  · intro protocol start hdis
    obtain ⟨rfl, rfl, -⟩ := (dispatch6_iff hv (by omega)).1 hdis
    exact ⟨h6, rfl⟩
  · intro hle
    refine (dispatch6_iff hv (by omega)).2 ⟨h6.symm, rfl, 20, ?_, by omega⟩
    rw [h6]
    rfl

theorem ip_read {version : Nat} (rest : Bytes) (hv : version = 4 ∨ version = 6) (hs : src.length = addrLen version)
    (hd : dst.length = addrLen version) (hlen : rest.length = len) (hlong : 20 ≤ len) (hshort : len < 2 ^ 17) :
    IpRead version src dst len (memAt (ipHeader version IPPROTO_TCP src dst len ++ rest) heap) loglevel := by
  rcases hv with rfl | rfl
  · exact ip4_read hs hd hlen hlong hshort
  · exact ip6_read hs hd hlen hlong hshort

/-! ## The packet -/

/-- The packets of `write_tcp`: the options are those of a SYN, or none. -/
structure Writable (p : TunPacket) : Prop where
  options : p.options.length = 0 ∨ p.options.length = 8
  data : p.data.length < 2 ^ 16

/-- The part of the buffer behind the IP header. -/
def segmentOf (s : TcpSession) (p : TunPacket) : Bytes :=
  tcphdr s.dest s.source p (checkBytes (chain 0 (tcpBlocks s p))) ++ (p.options ++ p.data)

theorem length_segmentOf : (segmentOf s p).length = p.len := by
  rw [segmentOf, List.length_append, length_tcphdr (length_checkBytes _), List.length_append,
    TunPacket.len, Nat.add_assoc]

theorem length_tcpBuffer (h : Sized s.version s.saddr s.daddr) : (tcpBuffer s p).length = ipLen s.version + p.len := by
  have hip : (ipHeader s.version IPPROTO_TCP (member s.version s.daddr) (member s.version s.saddr) p.len).length =
      ipLen s.version := length_ipHeader (length_member h.2.2.ge) (length_member h.2.1.ge)
  rw [tcpBuffer, List.length_append, hip]
  exact congrArg _ length_segmentOf

/-- What `handle_tcp` takes from a packet of `write_tcp`. -/
structure TcpRead (s : TcpSession) (p : TunPacket) (q : TcpPkt) : Prop where
  version : q.version = s.version
  saddr : q.saddr = member s.version s.daddr
  daddr : q.daddr = member s.version s.saddr
  source : q.source = s.dest
  dest : q.dest = s.source
  seq : q.seq = p.seq
  ackSeq : q.ackSeq = p.ackSeq
  syn : q.syn = p.syn
  ack : q.ack = p.ack
  fin : q.fin = p.fin
  rst : q.rst = p.rst
  psh : q.psh = false
  urg : q.urg = false
  window : q.window = p.window
  options : q.options = p.options
  data : q.data = p.data

theorem len_lt (hp : Writable p) : p.len < 2 ^ 17 := by
  have := hp.data
  rcases hp.options with hopt | hopt <;> rw [TunPacket.len, hopt] <;> omega

theorem buffer_read (heap : Nat → UInt8) (loglevel : Int) (h : Sized s.version s.saddr s.daddr) (hp : Writable p) :
    IpRead s.version (member s.version s.daddr) (member s.version s.saddr) p.len
    (memAt (tcpBuffer s p) heap) loglevel := by
  have hlong : 20 ≤ p.len := by
    unfold TunPacket.len
    omega
  exact ip_read (segmentOf s p) h.1 (length_member h.2.2.ge) (length_member h.2.1.ge) length_segmentOf hlong
    (len_lt hp)

theorem tcpOptlen_eq {mem : Nat → UInt8} {payload : Nat} (hp : Writable p)
    (hd : doff mem payload = (20 + p.options.length) / 4) : tcpOptlen mem payload = p.options.length := by
  rw [tcpOptlen, hd]
  rcases hp.options with hopt | hopt <;> rw [hopt] <;> decide

theorem tcp_read (heap : Nat → UInt8) (h : Sized s.version s.saddr s.daddr) (hp : Writable p) :
    TcpRead s p (tcpPkt (memAt (tcpBuffer s p) heap) (tcpBuffer s p).length (ipLen s.version)) := by
  have hlen := length_tcpBuffer (p := p) h
  have hread := buffer_read heap 0 h hp
  have hip : (ipHeader s.version IPPROTO_TCP (member s.version s.daddr) (member s.version s.saddr) p.len).length =
      ipLen s.version := length_ipHeader (length_member h.2.2.ge) (length_member h.2.1.ge)
  have hopt : p.options.length < 44 := by rcases hp.options with hopt | hopt <;> omega
  have hhead := headerRead heap s.dest s.source (p.options ++ p.data) hip
    (length_checkBytes (chain 0 (tcpBlocks s p))) hopt
  have hbuf :
    tcpBuffer s p = ipHeader s.version IPPROTO_TCP (member s.version s.daddr) (member s.version s.saddr) p.len ++
      segmentOf s p := rfl
  change HeaderRead (memAt (tcpBuffer s p) heap) _ _ _ _ at hhead
  have hoptlen := tcpOptlen_eq hp hhead.doff
  have hdata : tcpData (memAt (tcpBuffer s p) heap) (ipLen s.version) = ipLen s.version + (20 + p.options.length) := by
    rw [tcpData, hoptlen, Nat.add_assoc]
  have hdatalen : tcpDatalen (memAt (tcpBuffer s p) heap) (tcpBuffer s p).length (ipLen s.version) = p.data.length := by
    have := hp.data
    rw [tcpDatalen, hdata, hlen, TunPacket.len]
    unfold toSize
    omega
  have hbehind : ∀ pos len, pos + len ≤ p.len → bytesAt (memAt (tcpBuffer s p) heap) (ipLen s.version + pos) len =
      slice pos len (segmentOf s p) := by
    intro pos len hle
    rw [hbuf, bytesAt_behind hip (by rw [length_segmentOf]; exact hle)]
  have hh : (tcphdr s.dest s.source p (checkBytes (chain 0 (tcpBlocks s p)))).length = 20 := length_tcphdr rfl
  exact {
    version := hread.version
    saddr := hread.saddr
    daddr := hread.daddr
    source := hhead.source
    dest := hhead.dest
    seq := hhead.seq
    ackSeq := hhead.ackSeq
    syn := hhead.syn
    ack := hhead.ack
    fin := hhead.fin
    rst := hhead.rst
    psh := hhead.psh
    urg := hhead.urg
    window := hhead.window
    options := by
      simp only [tcpPkt]
      rw [hoptlen, hbehind _ _ (by rw [TunPacket.len]; omega), segmentOf, slice_append_right hh.le, hh, Nat.sub_self,
        slice_append_left (by omega), slice_full rfl]
    data := by
      simp only [tcpPkt]
      rw [hdata, hdatalen, hbehind _ _ (by rw [TunPacket.len]), segmentOf, slice_append_right (by omega), hh,
        Nat.add_sub_cancel_left, slice_append_right (Nat.le_refl _), Nat.sub_self, slice_full rfl] }

/-! ## Reachable sessions -/

/-- What `write_tcp` relies on. -/
structure Encodable (s : TcpSession) : Prop where
  sized : Sized s.version s.saddr s.daddr
  mss : s.mss < 2 ^ 16
  window : WindowFits s

theorem decodeOptions_lt {mem : Nat → UInt8} {rounds pos mss ws mss' ws' : Nat} {optlen : Int} (hm : mss < 2 ^ 16)
    (h : decodeOptions mem rounds optlen pos mss ws = some (mss', ws')) : mss' < 2 ^ 16 := by
  induction rounds generalizing optlen pos mss ws with
  | zero => cases h
  | succ rounds ih =>
      have hnew : (mem (pos + 2)).toNat * 256 + (mem (pos + 3)).toNat < 2 ^ 16 := by
        have := (mem (pos + 2)).toNat_lt
        have := (mem (pos + 3)).toNat_lt
        omega
      simp only [decodeOptions] at h
      split at h
      · split at h
        · cases h
          exact hm
        · split at h
          · refine ih ?_ h
            split
            · exact hnew
            · exact hm
          · refine ih ?_ h
            split
            · exact hnew
            · exact hm
      · cases h
        exact hm

theorem handleTcpNew_encodable {q : TcpPkt} {e : HandleEnv} (hq : Sized q.version q.saddr q.daddr)
    (h : handleTcpNew q e = some s) : Encodable s := by
  unfold handleTcpNew at h
  split at h
  · cases h
  · split at h
    · simp only [] at h
      split at h
      · cases h
      · rename_i mss ws hdec
        have hdefault : getDefaultMss q.version < 2 ^ 16 := by
          unfold getDefaultMss
          split <;> decide
        have hmss := decodeOptions_lt hdefault hdec
        split at h
        · cases h
        · cases h
          exact ⟨hq, hmss, getReceiveWindow_fits _ _⟩
    · cases h

theorem tcpStep_encodable (h : Encodable s) (op : TcpOp) : Encodable (tcpStep s op) := by
  have hfixed := tcpStep_fixed s op
  simp only [TcpSession.fixed, Prod.mk.injEq] at hfixed
  obtain ⟨hv, hm, -, -, -, -, hsa, -, hda, -⟩ := hfixed
  refine ⟨?_, hm ▸ h.mss, tcpStep_fits h.window op⟩
  rw [hv, hsa, hda]
  exact h.sized

/-- Every session the loop registers can be written. -/
theorem encodable_of_run {ok : Loop → LoopOp → Prop} {ops : List LoopOp} {l : Loop}
    (h : Run loopStep ok Loop.init ops l)
    (hs : .tcp s ∈ l.world.sessions) : Encodable s := by
  obtain ⟨ngOps, hrun⟩ := loop_run h
  have hall := forall_of_run (I := fun t => ∀ s, t = .tcp s → Encodable s) ?_ ?_ hrun
  · exact hall _ hs s rfl
  · intro op t hop hnew s ht
    cases hnew with
    | tcp hnew =>
        cases ht
        exact handleTcpNew_encodable hop hnew
    | icmp hnew => cases ht
    | udp hnew => cases ht
    | block => cases ht
  · intro op t t' hop hch hI s ht
    cases hch with
    | refl => exact hI s ht
    | tcpPacket hop' hb =>
        cases ht
        exact tcpStep_encodable (hI _ rfl) _
    | tcpOther op' hop' =>
        cases ht
        exact tcpStep_encodable (hI _ rfl) _
    | _ => cases ht

/-! ## The round trip -/

variable {q : TcpPkt} {behind : Nat → UInt8}

/-- The packet `q`, followed by the bytes `behind`, says what `write_tcp` was to say. -/
structure Restored (s : TcpSession) (data : Bytes) (syn ack fin rst : Bool) (q : TcpPkt) (behind : Nat → UInt8) :
    Prop where
  version : q.version = s.version
  saddr : q.saddr = s.daddr
  daddr : q.daddr = s.saddr
  source : q.source = s.dest
  dest : q.dest = s.source
  seq : q.seq = s.localSeq
  ackSeq : q.ackSeq = if ack then s.remoteSeq else 0
  flags : (q.syn, q.ack, q.fin, q.rst, q.psh, q.urg) = (syn, ack, fin, rst, false, false)
  window : q.window.toNat = (s.recvWindow >>> s.recvScale).toNat
  data : q.data = data
  options : syn = true →
    decodeOptions (memAt (q.options ++ q.data) behind) (q.options.length + 1) q.options.length 0
      (getDefaultMss q.version) 0 = some (getDefaultMss s.version, s.recvScale)

/-- The packet of `write_tcp`, in a buffer that goes on with `heap`, has the right length and is read as it was meant.
-/
def RoundTrip (s : TcpSession) (data : Bytes) (syn ack fin rst : Bool) (heap : Nat → UInt8) (loglevel : Int) : Prop :=
  let pkt := tcpBuffer s (tunPacket s data syn ack fin rst)
  lengthField (memAt pkt heap) = pkt.length ∧
    ∃ q behind, ipPkt (memAt pkt heap) pkt.length loglevel = some (.tcp q behind) ∧
      Restored s data syn ack fin rst q behind

theorem ipPkt_of_tcp {mem : Nat → UInt8} {length payload : Nat}
    (h : dispatch mem length loglevel = some (IPPROTO_TCP, payload)) : ipPkt mem length loglevel =
      some (.tcp (tcpPkt mem length payload)
        fun i => mem (tcpData mem payload + tcpDatalen mem length payload + i)) := by
  rw [ipPkt, h]
  rfl

theorem tunPacket_writable (hd : data.length < 2 ^ 16) : Writable (tunPacket s data syn ack fin rst) := by
  refine ⟨?_, hd⟩
  cases syn with
  | false => exact .inl rfl
  | true => exact .inr rfl

/-- A SYN is read with the bytes of the MSS swapped. -/
theorem decodeOptions_syn (d : Nat) : decodeOptions (memAt (synOptions s ++ data) behind) 9 8 0 d 0 =
    some (getDefaultMss s.version % 256 * 256 + getDefaultMss s.version / 256 % 256, s.recvScale % 256) := by
  simp [decodeOptions, memAt, synOptions, u16Bytes]

theorem swapped_ne (version : Nat) :
    getDefaultMss version % 256 * 256 + getDefaultMss version / 256 % 256 ≠ getDefaultMss version := by
  unfold getDefaultMss
  split <;> decide

theorem member_eq {version : Nat} {addr : Bytes} (h : addr.length = addrLen version) : member version addr = addr := by
  rw [member, List.take_of_length_le h.le]

theorem roundTrip_iff (h : Encodable s) (hd : data.length < 2 ^ 16) : RoundTrip s data syn ack fin rst heap loglevel ↔
    syn = false ∧ ipLen s.version + 20 + data.length ≤ maxLen s.version := by
  have hp : Writable (tunPacket s data syn ack fin rst) := tunPacket_writable hd
  have hlen := length_tcpBuffer (p := tunPacket s data syn ack fin rst) h.sized
  have hread := buffer_read heap loglevel h.sized hp
  have htcp := tcp_read heap h.sized hp
  unfold RoundTrip
  simp only []
  rw [hlen] at htcp ⊢
  constructor
  · rintro ⟨hfield, q, behind, hq, hres⟩
    have hle := hread.field.1 hfield
    rw [ipPkt_of_tcp (hread.dispatched hle)] at hq
    cases hq
    cases syn with
    | true =>
        have hopt := hres.options rfl
        rw [htcp.options] at hopt
        have hswap := (decodeOptions_syn (s := s) _).symm.trans hopt
        exact absurd (Prod.mk.inj (Option.some.inj hswap)).1 (swapped_ne s.version)
    | false =>
        have hl : (tunPacket s data false ack fin rst).len = 20 + data.length := rfl
        exact ⟨rfl, by omega⟩
  · rintro ⟨rfl, hle⟩
    have hl : (tunPacket s data false ack fin rst).len = 20 + data.length := rfl
    have hle' : ipLen s.version + (tunPacket s data false ack fin rst).len ≤ maxLen s.version := by omega
    refine ⟨hread.field.2 hle', _, _, ipPkt_of_tcp (hread.dispatched hle'), ?_⟩
    exact {
      version := htcp.version
      saddr := htcp.saddr.trans (member_eq h.sized.2.2)
      daddr := htcp.daddr.trans (member_eq h.sized.2.1)
      source := htcp.source
      dest := htcp.dest
      seq := htcp.seq
      ackSeq := htcp.ackSeq
      flags := by
        simp only [htcp.syn, htcp.ack, htcp.fin, htcp.rst, htcp.psh, htcp.urg]
        rfl
      window := by
        rw [htcp.window]
        exact (BitVec.toNat_setWidth ..).trans (Nat.mod_eq_of_lt h.window)
      data := htcp.data
      options := fun hsyn => absurd hsyn Bool.false_ne_true }

/-- For every session the loop can reach, and every payload up to its MSS: what `write_tcp` wrote is what `handle_ip`
and `handle_tcp` read, exactly if it is no SYN and not longer than a length can say. -/
theorem decoded_iff {ops : List LoopOp} {l : Loop} (h : Run loopStep (fun _ _ => True) Loop.init ops l)
    (hs : .tcp s ∈ l.world.sessions) (hd : data.length ≤ s.mss) (syn ack fin rst : Bool) (heap : Nat → UInt8)
    (loglevel : Int) :
    RoundTrip s data syn ack fin rst heap loglevel ↔
      syn = false ∧ ipLen s.version + 20 + data.length ≤ maxLen s.version := by
  have hencodable := encodable_of_run h hs
  have hmss := hencodable.mss
  exact roundTrip_iff hencodable (by omega)

/-- A SYN to port 80, as the tun has it. -/
def sampleSynBytes : Bytes :=
  [0x45, 0, 0, 40, 0, 0, 0, 0, 64, 6, 0, 0, 10, 1, 10, 1, 93, 184, 216, 34, 0x9C, 0x40, 0, 80, 0, 0, 3, 0xE8,
    0, 0, 0, 0, 0x50, 2, 0xFF, 0xFF, 0, 0, 0, 0]

/-- The loop starts, and the SYN arrives. -/
def sampleLoop : List LoopOp :=
  [.start 1000 fun _ => true,
    .tun sampleSynBytes (fun _ => 0) ANDROID_LOG_WARN false { tcp := { socket := 5, buf := ⟨1, 0⟩ } }]

theorem sampleLoop_session : .tcp (sampleSession 80) ∈ (sampleLoop.foldl loopStep Loop.init).world.sessions := by
  decide +kernel

theorem decoded_iff_data :
    .tcp (sampleSession 80) ∈ (sampleLoop.foldl loopStep Loop.init).world.sessions ∧
      RoundTrip (sampleSession 80) [97, 98, 99] false true false false (fun _ => 0) ANDROID_LOG_WARN :=
  ⟨sampleLoop_session,
    (decoded_iff (Run.ofList loopStep Loop.init sampleLoop) sampleLoop_session (by decide) false true false false
      (fun _ => 0) ANDROID_LOG_WARN).2 ⟨rfl, by decide⟩⟩

/-- The answer to that SYN offers an MSS of 59430 instead of 9960. -/
theorem syn_mss_swapped :
    .tcp (sampleSession 80) ∈ (sampleLoop.foldl loopStep Loop.init).world.sessions ∧
      ¬RoundTrip (sampleSession 80) [] true true false false (fun _ => 0) ANDROID_LOG_WARN ∧
      decodeOptions (memAt (synOptions (sampleSession 80)) fun _ => 0) 9 8 0 0 0 = some (59430, 0) := by
  have hencodable := encodable_of_run (Run.ofList loopStep Loop.init sampleLoop) sampleLoop_session
  refine ⟨sampleLoop_session, fun h => ?_, by decide⟩
  exact absurd ((roundTrip_iff hencodable (by decide)).1 h).1.symm Bool.false_ne_true

end TunProxy.Native
