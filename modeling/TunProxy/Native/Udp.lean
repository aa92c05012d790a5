import TunProxy.Native.Dns
import TunProxy.Native.Util

/-!
# UDP sessions (`udp.c`, `dhcp.c`)

What is read of DNS queries and responses is only logged; but the reading comes before the datagram is passed on, and it
does not always end.
-/

namespace TunProxy.Native

inductive UdpState
  | active | finishing | closed | blocked
  deriving DecidableEq, Repr

/-- `struct udp_session`, with the field `socket` of its `ng_session` and the calls made for it. -/
structure UdpSession where
  time : Int
  version : Nat
  mss : Nat
  sent : Nat
  received : Nat
  saddr : Bytes
  source : BitVec 16
  daddr : Bytes
  dest : BitVec 16
  state : UdpState
  socket : Int
  io : List Io
  deriving DecidableEq, Repr

structure UdpPkt where
  version : Nat
  saddr : Bytes
  daddr : Bytes
  source : BitVec 16
  dest : BitVec 16
  data : Bytes

/-- What the environment answers during one call of `handle_udp`. -/
structure UdpEnv where
  now : Int := 0
  /-- What `open_udp_socket` returns. -/
  socket : Int := -1
  /-- What `sendto` returns on an open descriptor. -/
  sendto : SendResult := .eagain
  /-- Whether the answer to a DHCP request is written. -/
  writeOk : Bool := true
  /-- What is in the buffer behind the data. -/
  behind : Nat → UInt8 := fun _ => 0

def UDP4_MAXMSG : Nat := 65535 - 20 - 8
def UDP6_MAXMSG : Nat := 65535 - 40 - 8

/-! ## DHCP -/

/-- `write_udp`. -/
def writeUdp (s : UdpSession) (data : Bytes) (ok : Bool) : UdpSession := { s with io := s.io ++ [.datagram data ok] }

/-- The answer, a block of 500 bytes: the request with other addresses, and zeros. -/
def dhcpResponse (request : Bytes) : Bytes :=
  let known := (request.drop 20).take 4 ≠ [0, 0, 0, 0]
  [if known then 4 else 2] ++ (request.drop 1).take 7 ++ List.replicate 8 0 ++ [10, 1, 10, 2] ++ [10, 1, 10, 1] ++
    List.replicate 4 0 ++ (request.drop 28).take 212 ++ List.replicate 260 0

/-- The options of the answer. The last byte of the lease time and the ones before it are in the machine's order. -/
def dhcpOptions (request : Bytes) : Bytes :=
  let known := (request.drop 20).take 4 ≠ [0, 0, 0, 0]
  [53, 1, if known then 5 else 2] ++ [1, 4, 255, 255, 255, 0] ++ [3, 4, 10, 1, 10, 1] ++ [51, 4, 0x10, 0x0E, 0, 0] ++
    [54, 4, 10, 1, 10, 1] ++ [6, 4, 8, 8, 8, 8] ++ [255]

/-- `check_dhcp`: none where it returns -1. It changes the address of the session. The options are to follow the 240
bytes of the `struct dhcp_packet`, but `response + 240` counts in these structures. -/
def checkDhcp (s : UdpSession) (data : Bytes) (writeOk : Bool) : Option UdpSession :=
  if data.length < 240 then none
  else if (data.drop 236).take 4 ≠ [0x63, 0x82, 0x53, 0x63] then none
  else if data.getD 1 0 ≠ 1 ∨ data.getD 2 0 ≠ 6 then none
  else if data.getD 0 0 = 1 then
    let s := { s with
      saddr := [10, 1, 10, 1] ++ s.saddr.drop 4, io := s.io ++ [.overrun 500 (240 * 240) (dhcpOptions data)] }
    some (writeUdp s (dhcpResponse data) writeOk)
  else some s

/-- The datagram is a request that `check_dhcp` answers. -/
def UdpPkt.isDhcpRequest (p : UdpPkt) : Bool :=
  (p.source = 68 ∨ p.dest = 67) ∧ 240 ≤ p.data.length ∧ (p.data.drop 236).take 4 = [0x63, 0x82, 0x53, 0x63] ∧
    p.data.getD 1 0 = 1 ∧ p.data.getD 2 0 = 6 ∧ p.data.getD 0 0 = 1

/-! ## Packets of the client -/

/-- Whether the lookup finds the session for the packet. -/
def UdpPkt.belongs (p : UdpPkt) (s : UdpSession) : Bool :=
  s.version = p.version ∧ s.source = p.source ∧ s.dest = p.dest ∧ s.saddr = p.saddr ∧ s.daddr = p.daddr

/-- The session `handle_udp` registers, where the socket was opened. -/
def handleUdpNew (p : UdpPkt) (e : UdpEnv) : Option UdpSession :=
  if e.socket < 0 then none
  else
    some {
      time := e.now
      version := p.version
      mss := if p.version = 4 then UDP4_MAXMSG else UDP6_MAXMSG
      sent := 0
      received := 0
      saddr := p.saddr
      source := p.source
      daddr := p.daddr
      dest := p.dest
      state := .active
      socket := e.socket
      io := [.open e.socket] }

/-- Whether the code under "Check for DNS" comes to its end. -/
def UdpPkt.isRead (p : UdpPkt) (behind : Nat → UInt8) : Bool :=
  p.dest ≠ 53 ∨ (getDnsQuery (memAt p.data behind) p.data.length QNAME_ROUNDS fun _ => 0).isSome

/-- The rest of `handle_udp`, for an active session. -/
def forwardUdp (s : UdpSession) (p : UdpPkt) (e : UdpEnv) : UdpSession :=
  if p.isRead e.behind = false then { s with io := s.io ++ [.hang] }
  else
    match if p.source = 68 ∨ p.dest = 67 then checkDhcp s p.data e.writeOk else none with
    | some s => s
    | none =>
        let ret := onSocket s.socket e.sendto.ret
        let s := { s with time := e.now, io := s.io ++ [.sendto p.data ret] }
        -- the comparison is that of `size_t`
        if toSize ret ≠ p.data.length then
          if e.sendto.errno ≠ .eintr ∧ e.sendto.errno ≠ .eagain then { s with state := .finishing } else s
        else { s with sent := (s.sent + p.data.length) % 2 ^ 64 }

/-- `handle_udp` on the session found for the packet. -/
def handleUdp (s : UdpSession) (p : UdpPkt) (e : UdpEnv) : UdpSession :=
  if s.state ≠ .active then s else forwardUdp s p e

/-- `block_udp`, on a block `memory` of which the fields `mss`, `sent` and `received` are not set. -/
def blockUdp (p : UdpPkt) (now : Int) (memory : UdpSession) : UdpSession :=
  { memory with
    time := now
    version := p.version
    saddr := p.saddr
    source := p.source
    daddr := p.daddr
    dest := p.dest
    state := .blocked
    socket := -1
    io := [] }

/-! ## The socket and the checks -/

/-- Whether the code under "Process DNS response" comes to its end. -/
def UdpSession.isRead (s : UdpSession) (bytes : Bytes) (behind : Nat → UInt8) : Bool :=
  s.dest ≠ 53 ∨ (parseDnsResponse (memAt bytes behind) bytes.length QNAME_ROUNDS fun _ => 0).isSome

/-- `check_udp_socket`. -/
def checkUdpSocket (s : UdpSession) (e : DatagramEnv) : UdpSession :=
  if e.ev.err then { s with time := e.now, state := .finishing }
  else if e.ev.inp then
    let s := { s with time := e.now }
    match e.recv.upTo s.mss with
    | .fail errno => if errno ≠ .eintr ∧ errno ≠ .eagain then { s with state := .finishing } else s
    | .got [] => { s with state := .finishing }
    | .got bytes =>
        let s := { s with received := (s.received + bytes.length) % 2 ^ 64, io := s.io ++ [.recv bytes] }
        if s.isRead bytes e.behind = false then { s with io := s.io ++ [.hang] }
        else
          let s := writeUdp s bytes e.writeOk
          if e.writeOk = false then { s with state := .finishing }
          -- "Prevent too many open files"
          else if s.dest = 53 then { s with state := .finishing }
          else s
  else s

/-- `get_udp_timeout`. -/
def getUdpTimeout (s : UdpSession) (sessions maxsessions : Int) : Int :=
  scaleTimeout (if s.dest = 53 then UDP_TIMEOUT_53 else UDP_TIMEOUT_ANY) sessions maxsessions

/-- The code under "Check session timeout". -/
def checkUdpTimeout (s : UdpSession) (e : CheckEnv) : UdpSession :=
  if s.state = .active ∧ s.time + getUdpTimeout s e.sessions e.maxsessions < e.now then
    { s with state := .finishing }
  else s

/-- The code under "Check finished sessions". -/
def checkUdpFinished (s : UdpSession) (e : CheckEnv) : UdpSession :=
  if s.state = .finishing then
    { s with io := s.io ++ [.close s.socket], socket := -1, time := e.now, state := .closed }
  else s

/-- `check_udp_session`: the session, and whether it is to be removed. -/
def checkUdpSession (s : UdpSession) (e : CheckEnv) : UdpSession × Bool :=
  let s := checkUdpFinished (checkUdpTimeout s e) e
  let s :=
    if s.state = .closed ∧ (s.sent ≠ 0 ∨ s.received ≠ 0) then { s with sent := 0, received := 0 } else s
  (s, (s.state = .closed ∨ s.state = .blocked) ∧ s.time + UDP_KEEP_TIMEOUT < e.now)

/-- What `check_allowed` does to a UDP session; a blocked one is removed. -/
def stopUdp (s : UdpSession) : UdpSession × Bool :=
  if s.state = .active then ({ s with state := .finishing }, false)
  else if s.state = .blocked then (s, true)
  else (s, false)

/-! ## One step -/

/-- What `handle_events` does on an event: `check_udp_socket` as long as the socket is readable. -/
def dispatchUdp (s : UdpSession) (ev : Epoll) (rounds : List DatagramEnv) : UdpSession :=
  if ev.err = false ∧ ev.inp = true then rounds.foldl (fun s e => checkUdpSocket s { e with ev }) s else s

/-- A call made for the session. -/
inductive UdpOp
  | packet (p : UdpPkt) (e : UdpEnv)
  | socket (ev : Epoll) (rounds : List DatagramEnv)
  | check (e : CheckEnv)

/-- The session after the call. A packet of another session leaves it alone; the socket has events only while it is
open. -/
def udpStep (s : UdpSession) : UdpOp → UdpSession
  | .packet p e => if p.belongs s then handleUdp s p e else s
  | .socket ev rounds => if s.socket ≥ 0 then dispatchUdp s ev rounds else s
  | .check e => (checkUdpSession s e).1

end TunProxy.Native
