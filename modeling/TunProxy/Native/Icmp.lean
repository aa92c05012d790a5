import TunProxy.Native.Util

/-!
# ICMP sessions (`icmp.c`)
-/

namespace TunProxy.Native

/-- `struct icmp_session`, with the field `socket` of its `ng_session` and the calls made for it. `id` holds the two
bytes of the identifier. -/
structure IcmpSession where
  time : Int
  version : Nat
  saddr : Bytes
  daddr : Bytes
  id : Bytes
  stop : Bool
  socket : Int
  io : List Io
  deriving DecidableEq, Repr

/-- An ICMP packet of the client: the message, and the two bytes of the payload length and the next header of IPv6. -/
structure IcmpPkt where
  version : Nat
  saddr : Bytes
  daddr : Bytes
  plen : Bytes
  nxt : UInt8
  message : Bytes

/-- What the environment answers during one call of `handle_icmp`. -/
structure IcmpEnv where
  now : Int := 0
  /-- What `open_icmp_socket` returns. -/
  socket : Int := -1
  /-- What `sendto` returns on an open descriptor. -/
  sendto : SendResult := .eagain

def ICMP_ECHO : UInt8 := 8
def IPPROTO_ICMPV6 : UInt8 := 58
def ICMP4_MAXMSG : Nat := 65535 - 20 - 8
def ICMP6_MAXMSG : Nat := 65535 - 40 - 8

/-- The message with another identifier, and the checksum for that: `start` is the sum of the pseudo header. -/
def setIcmpId (message : Bytes) (id : Bytes) (start : Nat) : Bytes :=
  let blank := message.take 2 ++ [0, 0] ++ id ++ message.drop 6
  let csum := 0xFFFF - calcChecksum start blank
  message.take 2 ++ [UInt8.ofNat csum, UInt8.ofNat (csum / 256)] ++ id ++ message.drop 6

/-- `struct ip6_hdr_pseudo`. -/
def pseudoHeader (src dst len : Bytes) (nxt : UInt8) : Bytes := src ++ dst ++ len ++ [0, 0, 0, nxt]

/-! ## Packets of the client -/

/-- Whether the lookup finds the session for the packet. -/
def IcmpPkt.belongs (p : IcmpPkt) (s : IcmpSession) : Bool :=
  s.stop = false ∧ s.version = p.version ∧ s.saddr = p.saddr ∧ s.daddr = p.daddr

/-- The packet is a request for an echo: all others are dropped. -/
def IcmpPkt.isEcho (p : IcmpPkt) : Bool := p.message.headD 0 = ICMP_ECHO

/-- The session `handle_icmp` registers, where the socket was opened. -/
def handleIcmpNew (p : IcmpPkt) (e : IcmpEnv) : Option IcmpSession :=
  if e.socket < 0 then none
  else
    some {
      time := e.now
      version := p.version
      saddr := p.saddr
      daddr := p.daddr
      id := (p.message.drop 4).take 2
      stop := false
      socket := e.socket
      io := [.open e.socket] }

/-- The rest of `handle_icmp`. -/
def handleIcmp (s : IcmpSession) (p : IcmpPkt) (e : IcmpEnv) : IcmpSession :=
  let id := ((p.message.drop 4).take 2).map (~~~ ·)
  let start := if p.version = 6 then calcChecksum 0 (pseudoHeader p.daddr p.saddr (p.plen ++ [0, 0]) p.nxt) else 0
  let message := setIcmpId p.message id start
  let ret := onSocket s.socket e.sendto.ret
  let s := { s with time := e.now, io := s.io ++ [.sendto message ret] }
  -- the comparison is that of `size_t`
  if toSize ret ≠ p.message.length ∧ e.sendto.errno ≠ .eintr ∧ e.sendto.errno ≠ .eagain then { s with stop := true }
  else s

/-! ## The socket and the checks -/

/-- The four bytes of a `uint32_t`, on a little-endian machine. -/
def u32Bytes (n : Nat) : Bytes :=
  [UInt8.ofNat n, UInt8.ofNat (n / 2 ^ 8), UInt8.ofNat (n / 2 ^ 16), UInt8.ofNat (n / 2 ^ 24)]

/-- The reply for the client: it gets the identifier back that the client used. -/
def icmpReply (s : IcmpSession) (bytes : Bytes) : Bytes :=
  let start :=
    if s.version = 6 then
      calcChecksum 0 (pseudoHeader s.daddr s.saddr (u32Bytes (toSize (bytes.length - 40) % 2 ^ 32)) IPPROTO_ICMPV6)
    else 0
  setIcmpId bytes s.id start

/-- `check_icmp_socket`. -/
def checkIcmpSocket (s : IcmpSession) (e : DatagramEnv) : IcmpSession :=
  if e.ev.err then { s with time := e.now, stop := true }
  else if e.ev.inp then
    let s := { s with time := e.now }
    match e.recv.upTo (if s.version = 4 then ICMP4_MAXMSG else ICMP6_MAXMSG) with
    | .fail errno => if errno ≠ .eintr ∧ errno ≠ .eagain then { s with stop := true } else s
    | .got [] => { s with stop := true }
    | .got bytes =>
        let s := { s with io := s.io ++ [.recv bytes] ++ [.datagram (icmpReply s bytes) e.writeOk] }
        if e.writeOk = false then { s with stop := true } else s
  else s

/-- `get_icmp_timeout`. -/
def getIcmpTimeout (sessions maxsessions : Int) : Int := scaleTimeout ICMP_TIMEOUT sessions maxsessions

/-- `check_icmp_session`: the session, and whether it is to be removed. -/
def checkIcmpSession (s : IcmpSession) (e : CheckEnv) : IcmpSession × Bool :=
  if s.stop = true ∨ s.time + getIcmpTimeout e.sessions e.maxsessions < e.now then
    ({ s with io := s.io ++ [.close s.socket], socket := -1 }, true)
  else (s, false)

/-- What `check_allowed` does to an ICMP session. -/
def stopIcmp (s : IcmpSession) : IcmpSession := { s with stop := true }

end TunProxy.Native
