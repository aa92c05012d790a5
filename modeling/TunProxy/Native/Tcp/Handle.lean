import TunProxy.Native.Http
import TunProxy.Native.Tls
import TunProxy.Native.Tcp.Queue
import TunProxy.Native.Tcp.Write

/-!
# Packets of the client (`handle_tcp`)
-/

namespace TunProxy.Native

/-- What the environment answers during one call. -/
structure HandleEnv where
  now : Int := 0
  /-- `rand()`. -/
  rand : U32 := 0
  /-- What `open_tcp_socket` returns, and the buffer of that socket. -/
  socket : Int := -1
  buf : SockBuf := ⟨0, 0⟩
  /-- What `send` of the CONNECT request returns on an open descriptor. -/
  connect : Int := -1
  /-- Whether the packet for the client is written. -/
  writeOk : Bool := true
  /-- The bytes behind the packet. -/
  heap : Nat → UInt8 := fun _ => 0
  /-- The name `parse_tls_header` finds when it reads past the payload. -/
  strayName : Bytes := []

/-! ## A new session -/

/-- The loop over the TCP options: the MSS and the window scale. A round that moves on makes `optlen` smaller, so
after `optlen + 1` rounds the code is at an option of length 0, which it never leaves. -/
def decodeOptions (mem : Nat → UInt8) : (rounds : Nat) → (optlen : Int) → (pos mss ws : Nat) → Option (Nat × Nat)
  | 0, _, _, _, _ => none
  | rounds + 1, optlen, pos, mss, ws =>
      if optlen > 0 then
        let kind := mem pos
        let len := (mem (pos + 1)).toNat
        if kind = 0 then some (mss, ws)
        else
          let mss := if kind = 2 ∧ len = 4 then (mem (pos + 2)).toNat * 256 + (mem (pos + 3)).toNat else mss
          let ws := if kind = 3 ∧ len = 3 then (mem (pos + 2)).toNat else ws
          if kind = 1 then decodeOptions mem rounds (optlen - 1) (pos + 1) mss ws
          else decodeOptions mem rounds (optlen - len) (pos + len) mss ws
      else some (mss, ws)

/-- The fields a SYN gives to the session, before the receive window is known. -/
def synSession (p : TcpPkt) (e : HandleEnv) (mss ws : Nat) : TcpSession :=
  { time := e.now
    version := p.version
    mss
    recvScale := ws
    sendScale := ws
    recvWindow := 0
    sendWindow := p.window.setWidth 32 <<< ws
    remoteSeq := p.seq
    localSeq := e.rand
    remoteStart := p.seq
    localStart := e.rand
    acked := 0
    lastKeepAlive := 0
    sent := 0
    received := 0
    saddr := p.saddr
    source := p.source
    daddr := p.daddr
    dest := p.dest
    state := .listen
    forward := if p.data ≠ [] then [p.segment] else []
    hostname := []
    connectSent := if p.dest = 80 then .established else .notSent
    socket := e.socket
    events := { err := true, inp := false, out := true }
    io := [.open e.socket] }

/-- `handle_tcp` where no session is found: the session it registers, if any. -/
def handleTcpNew (p : TcpPkt) (e : HandleEnv) : Option TcpSession :=
  if p.urg then none
  else if p.syn then
    let mem := memAt (p.options ++ p.data) e.heap
    match decodeOptions mem (p.options.length + 1) p.options.length 0 (getDefaultMss p.version) 0 with
    | none => none
    | some (mss, ws) =>
        let s := synSession p e mss ws
        if s.socket < 0 then none else some { s with recvWindow := getReceiveWindow s e.buf }
  else none

/-- The reset for a packet of no session, written for a session of zeros. -/
def unknownRst (p : TcpPkt) : TunPacket :=
  { seq := p.ackSeq, ackSeq := 0, syn := false, ack := false, fin := false, rst := true, window := 0,
    options := [], data := [] }

/-! ## A known session -/

/-- Whether the lookup finds the session for the packet. -/
def TcpPkt.belongs (p : TcpPkt) (s : TcpSession) : Bool :=
  s.version = p.version ∧ s.source = p.source ∧ s.dest = p.dest ∧ s.saddr = p.saddr ∧ s.daddr = p.daddr

/-- `inet_ntoa` of the first four bytes of the address. -/
def inetNtoa (addr : Bytes) : Bytes :=
  let octet i := ascii (Nat.repr (addr.getD i 0).toNat)
  octet 0 ++ ascii "." ++ octet 1 ++ ascii "." ++ octet 2 ++ ascii "." ++ octet 3

/-- The name for the CONNECT request: that of the client hello, or the address. It is never empty. -/
def serverName (s : TcpSession) (p : TcpPkt) (e : HandleEnv) : Bytes :=
  let hostname := (parseTlsHeader p.data).getD e.strayName
  if hostname ≠ [] then hostname else inetNtoa s.daddr

def connectRequest (hostname : Bytes) : Bytes :=
  ascii "CONNECT " ++ hostname ++ ascii ":443 HTTP/1.0\r\n\r\n"

/-- The code for port 443: the name, and the CONNECT request when it was not sent yet. -/
def connect443 (s : TcpSession) (p : TcpPkt) (e : HandleEnv) : TcpSession :=
  let s := { s with hostname := serverName s p e }
  if s.connectSent = .notSent then
    let request := connectRequest s.hostname
    let sent := onSocket s.socket e.connect
    let s := { s with io := s.io ++ [.connect request sent] }
    if sent < 0 then writeRst s e.writeOk
    else { s with connectSent := .sent, state := .listen }
  else s

/-- A FIN, on a packet without SYN. -/
def handleFin (s : TcpSession) (e : HandleEnv) : TcpSession :=
  match s.state with
  | .established =>
      if s.forward = [] then
        let s := writeAck { s with remoteSeq := s.remoteSeq + 1 } e.writeOk
        if e.writeOk then { s with state := .closeWait } else s
      else { s with state := .closeWait }
  | .finWait1 =>
      let s := writeAck { s with remoteSeq := s.remoteSeq + 1 } e.writeOk
      if e.writeOk then { s with state := .close } else s
  | _ => s

/-- An ACK of everything sent, on a packet without SYN and FIN. -/
def handleAck (s : TcpSession) (p : TcpPkt) : TcpSession :=
  let s := { s with acked := p.ackSeq }
  match s.state with
  | .synRecv => { s with state := .established }
  | .lastAck => { s with state := .closing }
  | _ => s

/-- Any other ACK: a keep alive, a repeated or previous one, one of the future. -/
def handleOtherAck (s : TcpSession) (p : TcpPkt) (e : HandleEnv) : TcpSession :=
  if p.ackSeq + 1 = s.localSeq then s
  else if compareU32 p.ackSeq s.localSeq < 0 then
    if compareU32 p.ackSeq s.acked ≤ 0 then s else { s with acked := p.ackSeq }
  else writeRst s e.writeOk

/-- The packet acknowledges nothing, or everything sent. -/
abbrev TcpPkt.current (p : TcpPkt) (s : TcpSession) : Prop := p.ack = false ∨ p.ackSeq = s.localSeq

/-- The flags, once the data is queued. -/
def handleFlags (s : TcpSession) (p : TcpPkt) (e : HandleEnv) : TcpSession :=
  if p.rst then { s with state := .closing }
  else if p.current s then
    if p.syn then s
    else if p.fin then handleFin s e
    else if p.ack then handleAck s p
    else s
  else handleOtherAck s p e

/-- The code under "Session found". -/
def handleOpen (s : TcpSession) (p : TcpPkt) (e : HandleEnv) : TcpSession :=
  if s.state = .closing ∨ s.state = .close then writeRst s e.writeOk
  else
    let s := { s with time := e.now, sendWindow := p.window.setWidth 32 <<< s.sendScale }
    if p.data ≠ [] then
      if s.socket < 0 then writeRst s e.writeOk
      else if s.state = .closeWait then writeRst s e.writeOk
      else handleFlags (queueTcp s p) p e
    else handleFlags s p e

/-- `handle_tcp` on the session found for the packet. -/
def handleTcp (s : TcpSession) (p : TcpPkt) (e : HandleEnv) : TcpSession :=
  if p.urg then s
  else
    let s := if p.dest = 443 then connect443 s p e else s
    if p.dest = 443 ∧ s.connectSent ≠ .established then queueTcp s p
    else handleOpen s p e

end TunProxy.Native
