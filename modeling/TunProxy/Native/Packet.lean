import TunProxy.Lib.OnesComplement
import TunProxy.Native.Icmp
import TunProxy.Native.Tcp.Write
import TunProxy.Native.Udp

/-!
# Packets for the client, byte by byte

The buffers `write_tcp`, `write_udp` and `write_icmp` build. A checksum is stored as the machine holds it, a length and
a port in network order.
-/

namespace TunProxy.Native

open Lib.Bytes Lib.OnesComplement

/-! ## Headers -/

def IPPROTO_ICMP : UInt8 := 1
def IPPROTO_TCP : UInt8 := 6
def IPPROTO_UDP : UInt8 := 17
def IPDEFTTL : UInt8 := 64

/-- The length of the member of an address union that `version` selects. -/
def addrLen (version : Nat) : Nat := if version = 4 then 4 else 16

/-- `saddr.ip4` or `saddr.ip6`. -/
def member (version : Nat) (addr : Bytes) : Bytes := addr.take (addrLen version)

/-- `struct iphdr`. -/
def iphdr (totLen : Nat) (protocol : UInt8) (check src dst : Bytes) : Bytes :=
  [0x45, 0] ++ toBE 2 totLen ++ [0, 0, 0, 0, IPDEFTTL, protocol] ++ check ++ src ++ dst

/-- `struct ip6_hdr`. -/
def ip6Hdr (plen : Nat) (nxt : UInt8) (src dst : Bytes) : Bytes :=
  [0x60, 0, 0, 0] ++ toBE 2 plen ++ [nxt, IPDEFTTL] ++ src ++ dst

/-- `struct ippseudo`. -/
def ippseudo (src dst : Bytes) (protocol : UInt8) (len : Nat) : Bytes := src ++ dst ++ [0, protocol] ++ toBE 2 len

/-- The byte of `struct tcphdr` that holds the flags. -/
def tcpFlags (p : TunPacket) : UInt8 :=
  (if p.fin then 1 else 0) + (if p.syn then 2 else 0) + (if p.rst then 4 else 0) + (if p.ack then 16 else 0)

/-- `struct tcphdr`. -/
def tcphdr (source dest : BitVec 16) (p : TunPacket) (check : Bytes) : Bytes :=
  toBE 2 source.toNat ++ toBE 2 dest.toNat ++ toBE 4 p.seq.toNat ++ toBE 4 p.ackSeq.toNat ++
    [UInt8.ofNat ((20 + p.options.length) / 4 * 16), tcpFlags p] ++ toBE 2 p.window.toNat ++ check ++ [0, 0]

/-- `struct udphdr`. -/
def udphdr (source dest : BitVec 16) (len : Nat) (check : Bytes) : Bytes :=
  toBE 2 source.toNat ++ toBE 2 dest.toNat ++ toBE 2 len ++ check

/-! ## Checksums -/

/-- `~csum`, in memory. -/
def checkBytes (csum : Nat) : Bytes := u16Bytes (0xFFFF - csum)

/-- The calls of `calc_checksum` for several blocks, each of which starts from the sum of those before. -/
def chain (start : Nat) (blocks : List Bytes) : Nat := blocks.foldl calcChecksum start

/-- The sum `calc_checksum` keeps in 32 bits stays in them, in each of the calls. -/
def NoOverflow : (start : Nat) → (blocks : List Bytes) → Prop
  | _, [] => True
  | start, block :: blocks => start + calcChecksum.words block < 2 ^ 32 ∧ NoOverflow (calcChecksum start block) blocks

/-! ## Packets -/

/-- The header of IPv4 with a checksum of zero. -/
def blankHeader (protocol : UInt8) (src dst : Bytes) (len : Nat) : Bytes := iphdr (20 + len) protocol [0, 0] src dst

/-- What is summed up for the IP header. -/
def ipBlocks (version : Nat) (protocol : UInt8) (src dst : Bytes) (len : Nat) : List Bytes :=
  if version = 4 then [blankHeader protocol src dst len] else []

/-- The IP header, for `len` bytes behind it. -/
def ipHeader (version : Nat) (protocol : UInt8) (src dst : Bytes) (len : Nat) : Bytes :=
  if version = 4 then iphdr (20 + len) protocol (checkBytes (chain 0 (ipBlocks version protocol src dst len))) src dst
  else ip6Hdr len protocol src dst

/-- The pseudo header. For IPv6 the addresses are swapped, and the 16 bits of the length are the first two bytes of
`ip6ph_len`. -/
def pseudo (version : Nat) (protocol : UInt8) (src dst : Bytes) (len : Nat) : Bytes :=
  if version = 4 then ippseudo src dst protocol len
  else pseudoHeader dst src (toBE 2 len ++ [0, 0]) protocol

/-- The length of the TCP segment. -/
def TunPacket.len (p : TunPacket) : Nat := 20 + p.options.length + p.data.length

/-- What `write_tcp` sums up. -/
def tcpBlocks (s : TcpSession) (p : TunPacket) : List Bytes :=
  [pseudo s.version IPPROTO_TCP (member s.version s.daddr) (member s.version s.saddr) p.len,
    tcphdr s.dest s.source p [0, 0], p.options, p.data]

/-- The buffer of `write_tcp`. -/
def tcpBuffer (s : TcpSession) (p : TunPacket) : Bytes :=
  ipHeader s.version IPPROTO_TCP (member s.version s.daddr) (member s.version s.saddr) p.len ++
    (tcphdr s.dest s.source p (checkBytes (chain 0 (tcpBlocks s p))) ++ (p.options ++ p.data))

/-- What `write_udp` sums up. -/
def udpBlocks (s : UdpSession) (data : Bytes) : List Bytes :=
  [pseudo s.version IPPROTO_UDP (member s.version s.daddr) (member s.version s.saddr) (8 + data.length),
    udphdr s.dest s.source (8 + data.length) [0, 0], data]

/-- The buffer of `write_udp`. -/
def udpBuffer (s : UdpSession) (data : Bytes) : Bytes :=
  ipHeader s.version IPPROTO_UDP (member s.version s.daddr) (member s.version s.saddr) (8 + data.length) ++
    (udphdr s.dest s.source (8 + data.length) (checkBytes (chain 0 (udpBlocks s data))) ++ data)

/-- The buffer of `write_icmp`. -/
def icmpBuffer (s : IcmpSession) (data : Bytes) : Bytes :=
  ipHeader s.version (if s.version = 4 then IPPROTO_ICMP else IPPROTO_ICMPV6) (member s.version s.daddr)
    (member s.version s.saddr) data.length ++ data

/-! ## Their lengths -/

variable {version len totLen : Nat} {protocol : UInt8} {src dst check : Bytes} {source dest : BitVec 16}
  {p : TunPacket}

theorem length_member {addr : Bytes} (h : addrLen version ≤ addr.length) :
    (member version addr).length = addrLen version := by
  rw [member, List.length_take]
  omega

@[simp] theorem length_checkBytes (csum : Nat) : (checkBytes csum).length = 2 := rfl

theorem length_iphdr (hc : check.length = 2) (hs : src.length = 4) (hd : dst.length = 4) :
    (iphdr totLen protocol check src dst).length = 20 := by
  simp [iphdr, hc, hs, hd]

theorem length_ip6Hdr (hs : src.length = 16) (hd : dst.length = 16) :
    (ip6Hdr len protocol src dst).length = 40 := by
  simp [ip6Hdr, hs, hd]

theorem length_tcphdr (hc : check.length = 2) : (tcphdr source dest p check).length = 20 := by
  simp [tcphdr, hc]

theorem length_udphdr (hc : check.length = 2) : (udphdr source dest len check).length = 8 := by
  simp [udphdr, hc]

/-! ## Where the addresses stand -/

theorem iphdr_eq (totLen : Nat) (protocol : UInt8) (src dst : Bytes) (hc : check.length = 2) :
    ∃ head, head.length = 12 ∧ head.getD 9 0 = protocol ∧
    iphdr totLen protocol check src dst = head ++ (src ++ dst) := by
  obtain ⟨a, b, rfl⟩ := List.length_eq_two.1 hc
  exact ⟨[0x45, 0] ++ toBE 2 totLen ++ [0, 0, 0, 0, IPDEFTTL, protocol] ++ [a, b], rfl, rfl, List.append_assoc ..⟩

theorem ip6Hdr_eq (len : Nat) (protocol : UInt8) (src dst : Bytes) :
    ∃ head, head.length = 8 ∧ head.getD 6 0 = protocol ∧
    ip6Hdr len protocol src dst = head ++ (src ++ dst) :=
  ⟨[0x60, 0, 0, 0] ++ toBE 2 len ++ [protocol, IPDEFTTL], rfl, rfl, List.append_assoc ..⟩

end TunProxy.Native
