import TunProxy.Native.Packet
import TunProxy.Native.Session

/-!
# Packets of the client, byte by byte (`ip.c`)

What `handle_ip` reads in the buffer with a packet of the tun, and what the handlers then take as headers, options and
data. The code reads through pointers and does not stop at the end of the packet, so the buffer is a memory `mem`, and
the packet is the first `length` bytes of it.
-/

namespace TunProxy.Native

open Lib.Bytes

def ANDROID_LOG_WARN : Int := 5
def IP_MF : BitVec 16 := 0x2000

/-! ## Fields -/

def ipVersion (mem : Nat → UInt8) : Nat := (mem 0).toNat / 16

def ihl (mem : Nat → UInt8) : Nat := (mem 0).toNat % 16

/-- `frag_off`, as the machine reads it: the code does not convert it. -/
def fragOff (mem : Nat → UInt8) : BitVec 16 := (mem 7).toBitVec ++ (mem 6).toBitVec

/-- `(uint8_t) ((words - 5) * 4)`, the length of the options in a header of so many words. -/
def optLen (words : Nat) : Nat := (((words : Int) - 5) * 4 % 256).toNat

def srcAddr (mem : Nat → UInt8) : Bytes := if ipVersion mem = 4 then bytesAt mem 12 4 else bytesAt mem 8 16

def dstAddr (mem : Nat → UInt8) : Bytes := if ipVersion mem = 4 then bytesAt mem 16 4 else bytesAt mem 24 16

/-! ## Protocol and payload -/

/-- The part of `handle_ip` for IPv4. -/
def ip4Payload (mem : Nat → UInt8) (length : Nat) (loglevel : Int) : Option (UInt8 × Nat) :=
  if length < 20 then none
  else if fragOff mem &&& IP_MF ≠ 0 then none
  else if (ntohs mem 2).toNat ≠ length then none
  else if loglevel < ANDROID_LOG_WARN ∧ calcChecksum 0 (bytesAt mem 0 20) = 0 then none
  else some (mem 9, 20 + optLen (ihl mem))

/-- `is_lower_layer`. -/
def isLowerLayer (protocol : UInt8) : Bool := protocol ∈ [0, 60, 43, 44, 51, 50, 60, 135]

/-- `is_upper_layer`. -/
def isUpperLayer (protocol : UInt8) : Bool := protocol ∈ [IPPROTO_TCP, IPPROTO_UDP, IPPROTO_ICMP, IPPROTO_ICMPV6]

/-- The loop over the extension headers. `off` is a `uint16_t`, so after `2 ^ 16 + 1` rounds the code is in a circle it
never leaves. -/
def skipExtensions (mem : Nat → UInt8) : (rounds : Nat) → (protocol : UInt8) → (off : Nat) → Option (UInt8 × Nat)
  | 0, _, _ => none
  | rounds + 1, protocol, off =>
      if isLowerLayer (mem off) ∧ ¬isUpperLayer protocol then
        skipExtensions mem rounds (mem off) ((off + (8 + (mem (off + 1)).toNat)) % 2 ^ 16)
      else some (protocol, off)

/-- The part of `handle_ip` for IPv6. -/
def ip6Payload (mem : Nat → UInt8) (length : Nat) : Option (UInt8 × Nat) :=
  if length < 40 then none
  else if isUpperLayer (mem 6) then some (mem 6, 40)
  else
    match skipExtensions mem (2 ^ 16 + 1) (mem 6) 40 with
    | none => none
    | some (protocol, off) => if isUpperLayer protocol then some (protocol, 40 + off) else some (mem 6, 40)

/-- The protocol, and the position of the payload. -/
def ipPayload (mem : Nat → UInt8) (length : Nat) (loglevel : Int) : Option (UInt8 × Nat) :=
  if ipVersion mem = 4 then ip4Payload mem length loglevel
  else if ipVersion mem = 6 then ip6Payload mem length
  else none

/-- `sizeof(struct icmp)`, `sizeof(struct udphdr)` or `sizeof(struct tcphdr)`. Other protocols have no handler. -/
def headerSize (protocol : UInt8) : Option Nat :=
  if protocol = IPPROTO_ICMP ∨ protocol = IPPROTO_ICMPV6 then some 28
  else if protocol = IPPROTO_UDP then some 8
  else if protocol = IPPROTO_TCP then some 20
  else none

/-- The protocol and the payload of a packet that has a handler and is not too short. The difference is that of
`size_t`. -/
def dispatch (mem : Nat → UInt8) (length : Nat) (loglevel : Int) : Option (UInt8 × Nat) :=
  match ipPayload mem length loglevel with
  | none => none
  | some (protocol, payload) =>
      match headerSize protocol with
      | none => none
      | some size => if toSize ((length : Int) - payload) < size then none else some (protocol, payload)

/-! ## What the handlers read -/

section Handlers

variable (mem : Nat → UInt8) (length payload : Nat)

/-- The code under "Get headers" of `handle_icmp`. -/
def icmpPkt : IcmpPkt :=
  { version := ipVersion mem
    saddr := srcAddr mem
    daddr := dstAddr mem
    plen := bytesAt mem 4 2
    nxt := mem 6
    message := bytesAt mem payload (toSize ((length : Int) - payload)) }

/-- `datalen` of `handle_udp`. -/
def udpDatalen : Nat := toSize ((length : Int) - (payload + 8 : Nat))

/-- The code under "Get headers" of `handle_udp`. -/
def udpPkt : UdpPkt :=
  { version := ipVersion mem
    saddr := srcAddr mem
    daddr := dstAddr mem
    source := ntohs mem payload
    dest := ntohs mem (payload + 2)
    data := bytesAt mem (payload + 8) (udpDatalen length payload) }

/-- `doff` of the TCP header. -/
def doff : Nat := (mem (payload + 12)).toNat / 16

def tcpOptlen : Nat := optLen (doff mem payload)

/-- The position of `data` in `handle_tcp`. -/
def tcpData : Nat := payload + 20 + tcpOptlen mem payload

/-- `datalen` of `handle_tcp`, a `uint16_t`. -/
def tcpDatalen : Nat := toSize ((length : Int) - tcpData mem payload) % 2 ^ 16

/-- A bit of the flags. -/
def tcpFlag (i : Nat) : Bool := (mem (payload + 13)).toNat.testBit i

/-- The code under "Get headers" of `handle_tcp`. -/
def tcpPkt : TcpPkt :=
  { version := ipVersion mem
    saddr := srcAddr mem
    daddr := dstAddr mem
    source := ntohs mem payload
    dest := ntohs mem (payload + 2)
    seq := ntohl mem (payload + 4)
    ackSeq := ntohl mem (payload + 8)
    urg := tcpFlag mem payload 5
    ack := tcpFlag mem payload 4
    psh := tcpFlag mem payload 3
    rst := tcpFlag mem payload 2
    syn := tcpFlag mem payload 1
    fin := tcpFlag mem payload 0
    window := ntohs mem (payload + 14)
    options := bytesAt mem (payload + 20) (tcpOptlen mem payload)
    data := bytesAt mem (tcpData mem payload) (tcpDatalen mem length payload)
    data_lt := by
      rw [bytesAt, List.length_map, List.length_range]
      exact Nat.mod_lt _ (by decide) }

end Handlers

/-- A packet for one of the handlers; for `handle_udp` and `handle_tcp` with the bytes of the buffer behind the data. -/
inductive IpPkt
  | icmp (p : IcmpPkt)
  | udp (p : UdpPkt) (behind : Nat → UInt8)
  | tcp (p : TcpPkt) (heap : Nat → UInt8)

/-- What `handle_ip` makes of a packet of the tun. -/
def ipPkt (mem : Nat → UInt8) (length : Nat) (loglevel : Int) : Option IpPkt :=
  match dispatch mem length loglevel with
  | none => none
  | some (protocol, payload) =>
      if protocol = IPPROTO_UDP then
        some (.udp (udpPkt mem length payload) fun i => mem (payload + 8 + udpDatalen length payload + i))
      else if protocol = IPPROTO_TCP then
        some (.tcp (tcpPkt mem length payload) fun i => mem (tcpData mem payload + tcpDatalen mem length payload + i))
      else some (.icmp (icmpPkt mem length payload))

/-! ## The limit, and the call of the handler -/

/-- `has_udp_session`. -/
def hasUdpSession (sessions : List NgSession) (fwd53 : Bool) (p : UdpPkt) : Bool :=
  let belongs : NgSession → Bool
    | .udp s => p.belongs s
    | _ => false
  (p.dest = 53 ∧ fwd53 = false) ∨ sessions.any belongs

/-- What `handle_ip` knows beside the packet: the arguments, and the number of sessions counted at the start of the
round. -/
structure IpArgs where
  loglevel : Int := ANDROID_LOG_WARN
  fwd53 : Bool := false
  sessions : Int
  maxsessions : Int

/-- The code under "Limit number of sessions". -/
def overLimit (w : World) (a : IpArgs) : IpPkt → Bool
  | .icmp _ => a.sessions ≥ a.maxsessions
  | .udp p _ => a.sessions ≥ a.maxsessions ∧ hasUdpSession w.sessions a.fwd53 p = false
  | .tcp p _ => a.sessions ≥ a.maxsessions ∧ p.syn = true

/-- What the environment answers during one call of a handler. -/
structure IpEnv where
  icmp : IcmpEnv := {}
  udp : UdpEnv := {}
  tcp : HandleEnv := {}

/-- The call of the handler. -/
def World.handle (w : World) (e : IpEnv) : IpPkt → World
  | .icmp p => w.handleIcmp p e.icmp
  | .udp p behind => w.handleUdp p { e.udp with behind }
  | .tcp p heap => w.handleTcp p { e.tcp with heap }

/-- `handle_ip`. -/
def World.handleIp (w : World) (mem : Nat → UInt8) (length : Nat) (a : IpArgs) (e : IpEnv) : World :=
  match ipPkt mem length a.loglevel with
  | none => w
  | some p => if overLimit w a p then w else w.handle e p

end TunProxy.Native
