import Mathlib.Data.List.AList
import TunProxy.Vpn.Host

/-!
# The NAT of the VPN service

`NatSession`, `NatSessionManager` and `LocalVpnService.onIPPacketReceived`: packets of the client are sent
back to the local proxy server as if their destination had sent them, and what the server answers is sent
back to the client. A packet whose handling throws ends the process.
-/

namespace TunProxy.Vpn

open Native (Bytes)

/-! ## Sessions -/

structure NatSession where
  remoteIP : BitVec 32
  remotePort : BitVec 16
  remoteHost : List Char
  bytesSent : BitVec 32
  packetSent : BitVec 32
  lastNanoTime : BitVec 64
  deriving DecidableEq, Repr

/-- The `SparseArray` of sessions. Its keys are ports, which are signed. -/
abbrev Sessions := AList fun _ : Int => NatSession

/-- What the service uses beside its own state: the charset and `DnsProxy.reverseLookup`. -/
structure Env where
  charset : Charset
  reverseLookup : BitVec 32 → Option (List Char)

/-- The values of `System.nanoTime()` in the order the handling of one packet reads them: in `getSession`,
`clearExpiredSessions`, `createSession` and for `LastNanoTime`. -/
structure Clock where
  get : BitVec 64
  clear : BitVec 64
  create : BitVec 64
  last : BitVec 64

def FAKE_NETWORK_MASK : BitVec 32 := 0xFFFF0000
def FAKE_NETWORK_IP : BitVec 32 := 0xAC190000

def isFakeIP (ip : BitVec 32) : Bool := ip &&& FAKE_NETWORK_MASK == FAKE_NETWORK_IP

namespace NatSessionManager

def MAX_SESSION_COUNT : Nat := 60
def SESSION_TIMEOUT_NS : Int := 60 * 1000000000

/-- The session is the object in the table. -/
def getSession (sessions : Sessions) (portKey : Int) (now : BitVec 64) : Sessions × Option NatSession :=
  match sessions.lookup portKey with
  | some session =>
      let session := { session with lastNanoTime := now }
      (sessions.insert portKey session, some session)
  | none => (sessions, none)

def clearExpiredSessions (sessions : Sessions) (now : BitVec 64) : Sessions where
  entries := sessions.entries.filter fun e => (now - e.2.lastNanoTime).toInt ≤ SESSION_TIMEOUT_NS
  nodupKeys := sessions.nodupKeys.sublist List.filter_sublist

def createSession (env : Env) (sessions : Sessions) (portKey : Int) (remoteIP : BitVec 32)
    (remotePort : BitVec 16) (clock : Clock) : Sessions × NatSession :=
  let sessions :=
    if sessions.keys.length > MAX_SESSION_COUNT then clearExpiredSessions sessions clock.clear else sessions
  let remoteHost := if isFakeIP remoteIP then env.reverseLookup remoteIP else none
  let session :=
    { remoteIP, remotePort, remoteHost := remoteHost.getD (CommonMethods.ipIntToString remoteIP)
      bytesSent := 0, packetSent := 0, lastNanoTime := clock.create }
  (sessions.insert portKey session, session)

end NatSessionManager

open CommonMethods NatSessionManager

/-! ## `LocalVpnService` -/

structure Service where
  localIP : BitVec 32
  /-- `m_TcpProxyServer.Port` -/
  port : BitVec 16
  sessions : Sessions

/-- A packet of the local server, whose TCP header is at `offset`. -/
def fromServer (s : Service) (data : Bytes) (size offset : Nat) (clock : Clock) :
    Option (Service × Option Bytes) := do
  let (sessions, session) := getSession s.sessions (← TCPHeader.getDestinationPort data offset).toInt clock.get
  let s := { s with sessions }
  match session with
  | none => return (s, none)
  | some session =>
      let data ← IPHeader.setSourceIP data (← IPHeader.getDestinationIP data)
      let data ← TCPHeader.setSourcePort data offset session.remotePort
      let data ← IPHeader.setDestinationIP data s.localIP
      let (data, _) ← computeTCPChecksum data offset
      return (s, some (data.take size))

/-- The session for a packet of the client, found or created, after the packet was counted. -/
def countPacket (env : Env) (sessions : Sessions) (portKey : Int) (ip : BitVec 32) (port : BitVec 16)
    (clock : Clock) : Sessions × NatSession :=
  let (sessions, found) := getSession sessions portKey clock.get
  let (sessions, session) :=
    match found with
    | some session =>
        if session.remoteIP ≠ ip ∨ session.remotePort ≠ port then
          createSession env sessions portKey ip port clock
        else (sessions, session)
    | none => createSession env sessions portKey ip port clock
  let session := { session with lastNanoTime := clock.last, packetSent := session.packetSent + 1 }
  (sessions.insert portKey session, session)

/-- The session after the search for a host name in the data of a packet. -/
def findHost (env : Env) (session : NatSession) (data : Bytes) (dataOffset : Nat) (tcpDataSize : Int) :
    NatSession :=
  if session.bytesSent = 0 ∧ tcpDataSize > 10 then
    match HttpHostHeaderParser.parseHost env.charset data dataOffset tcpDataSize.toNat with
    | some host => { session with remoteHost := host }
    | none => session
  else session

/-- A packet of a client. -/
def fromClient (env : Env) (s : Service) (data : Bytes) (size offset : Nat) (clock : Clock) :
    Option (Service × Option Bytes) := do
  let portKey := (← TCPHeader.getSourcePort data offset).toInt
  let ip ← IPHeader.getDestinationIP data
  let port ← TCPHeader.getDestinationPort data offset
  let (sessions, session) := countPacket env s.sessions portKey ip port clock
  let tcpDataSize : Int := (← IPHeader.getDataLength data) - (← TCPHeader.getHeaderLength data offset)
  if session.packetSent = 2 ∧ tcpDataSize = 0 then
    -- The handshake's ACK. The data will acknowledge too, so the host is known before the server accepts.
    return ({ s with sessions }, none)
  let session := findHost env session data (offset + (← TCPHeader.getHeaderLength data offset)) tcpDataSize
  let data ← IPHeader.setSourceIP data ip
  let data ← IPHeader.setDestinationIP data s.localIP
  let data ← TCPHeader.setDestinationPort data offset s.port
  let (data, _) ← computeTCPChecksum data offset
  let session := { session with bytesSent := session.bytesSent + BitVec.ofInt 32 tcpDataSize }
  return ({ s with sessions := sessions.insert portKey session }, some (data.take size))

/-- Of the array `data` the first `size` bytes were read from the tun; the others are left from packets before.
The second part of the result is what is written to the tun. -/
def onIPPacketReceived (env : Env) (s : Service) (data : Bytes) (size : Nat) (clock : Clock) :
    Option (Service × Option Bytes) := do
  if (← IPHeader.getProtocol data) = IPHeader.TCP then
    let offset ← IPHeader.getHeaderLength data
    if (← IPHeader.getSourceIP data) = s.localIP then
      if (← TCPHeader.getSourcePort data offset) = s.port then fromServer s data size offset clock
      else fromClient env s data size offset clock
    else return (s, none)
  else return (s, none)

/-- `TcpProxyServer.getDestAddress` for a connection accepted from `port`, up to the session it uses. -/
def getDestAddress (s : Service) (port : BitVec 16) (now : BitVec 64) : Service × Option NatSession :=
  let (sessions, session) := getSession s.sessions port.toInt now
  ({ s with sessions }, session)

/-! ## Runs -/

inductive Input
  | packet (data : Bytes) (size : Nat) (clock : Clock)
  | accepted (port : BitVec 16) (now : BitVec 64)

def react (env : Env) (s : Service) : Input → Option (Service × Option Bytes)
  | .packet data size clock => onIPPacketReceived env s data size clock
  | .accepted port now => some ((getDestAddress s port now).1, none)

/-- The service after one more input; none when the process has ended. -/
def step (env : Env) (s : Option Service) (i : Input) : Option Service := do
  return (← react env (← s) i).1

end TunProxy.Vpn
