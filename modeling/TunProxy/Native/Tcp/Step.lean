import TunProxy.Native.Tcp.Handle
import TunProxy.Native.Tcp.Socket

/-!
# Everything that happens to a TCP session

The checks of the event loop (`monitor_tcp_session`, `check_tcp_session`), the part of `check_allowed` for TCP, and
one step function over all of them.
-/

namespace TunProxy.Native

/-- What the environment answers during one call of `monitor_tcp_session`. -/
structure MonitorEnv where
  /-- `get_ms()`. -/
  ms : Int := 0
  buf : SockBuf := ⟨0, 0⟩
  writeOk : Bool := true
  /-- Whether `epoll_ctl` works. -/
  modOk : Bool := true

/-- The keep alive that asks for a new send window. -/
def keepAlive (s : TcpSession) (e : MonitorEnv) : TcpSession :=
  if e.ms - s.lastKeepAlive > EPOLL_MIN_CHECK then
    let s := { s with lastKeepAlive := e.ms, remoteSeq := s.remoteSeq - 1 }
    let s := writeAck s e.writeOk
    { s with remoteSeq := s.remoteSeq + 1 }
  else s

/-- Whether the first segment is next and fits into the buffer of the socket. -/
def canForward (s : TcpSession) (b : SockBuf) : Bool :=
  match s.forward with
  | [] => false
  | q :: _ => q.pos = s.remoteSeq ∧ q.left < BitVec.ofNat 32 (getReceiveBuffer s b)

/-- The events to wait for. -/
def waitFor (s : TcpSession) (b : SockBuf) : Epoll :=
  match s.state with
  | .listen =>
      if s.connectSent = .sent ∧ s.dest = 443 then { err := true, inp := true, out := false }
      else { err := true, inp := false, out := true }
  | .established | .closeWait => { err := true, inp := getSendWindow s > 0, out := canForward s b }
  | _ => { err := true, inp := false, out := false }

/-- `monitor_tcp_session`. -/
def monitorTcpSession (s : TcpSession) (e : MonitorEnv) : TcpSession :=
  let events := waitFor s e.buf
  let s :=
    if (s.state = .established ∨ s.state = .closeWait) ∧ getSendWindow s = 0 then keepAlive s e else s
  if events ≠ s.events then
    let s := { s with events }
    if e.modOk then s else { s with state := .closing }
  else s

/-- `get_tcp_timeout`. -/
def getTcpTimeout (s : TcpSession) (sessions maxsessions : Int) : Int :=
  let timeout :=
    match s.state with
    | .listen | .synRecv => TCP_INIT_TIMEOUT
    | .established => TCP_IDLE_TIMEOUT
    | _ => TCP_CLOSE_TIMEOUT
  scaleTimeout timeout sessions maxsessions

/-- The code under "Check session timeout". -/
def checkTimeout (s : TcpSession) (e : CheckEnv) : TcpSession :=
  if s.state ≠ .closing ∧ s.state ≠ .close ∧ s.time + getTcpTimeout s e.sessions e.maxsessions < e.now then
    if s.state = .listen then { s with state := .closing } else writeRst s e.writeOk
  else s

/-- The code under "Check closing sessions". -/
def checkClosing (s : TcpSession) (e : CheckEnv) : TcpSession :=
  if s.state = .closing then
    let s := if s.socket ≥ 0 then { s with io := s.io ++ [.close s.socket], socket := -1 } else s
    { s with time := e.now, state := .close }
  else s

/-- `check_tcp_session`: the session, and whether it is to be removed. -/
def checkTcpSession (s : TcpSession) (e : CheckEnv) : TcpSession × Bool :=
  let s := checkClosing (checkTimeout s e) e
  let s :=
    if (s.state = .closing ∨ s.state = .close) ∧ (s.sent ≠ 0 ∨ s.received ≠ 0) then
      { s with sent := 0, received := 0 }
    else s
  (s, s.state = .close ∧ s.time + TCP_KEEP_TIMEOUT < e.now)

/-- What `check_allowed` does to a TCP session. -/
def stopTcp (s : TcpSession) (writeOk : Bool) : TcpSession :=
  if s.state ≠ .closing ∧ s.state ≠ .close then writeRst s writeOk else s

/-! ## One step -/

/-- A call made for the session. -/
inductive TcpOp
  | packet (p : TcpPkt) (e : HandleEnv)
  | socket (e : SocketEnv)
  | monitor (e : MonitorEnv)
  | check (e : CheckEnv)
  | stop (writeOk : Bool)

/-- The session after the call. A packet of another session leaves it alone; the socket has events, and is monitored,
only while it is open. -/
def tcpStep (s : TcpSession) : TcpOp → TcpSession
  | .packet p e => if p.belongs s then handleTcp s p e else s
  | .socket e => if s.socket ≥ 0 then checkTcpSocket s e else s
  | .monitor e => if s.socket ≥ 0 then monitorTcpSession s e else s
  | .check e => (checkTcpSession s e).1
  | .stop writeOk => stopTcp s writeOk

theorem tcpStep_packet {s : TcpSession} {p : TcpPkt} {e : HandleEnv} (h : p.belongs s = true) :
    tcpStep s (.packet p e) = handleTcp s p e := by simp only [tcpStep, h, ↓reduceIte]

theorem tcpStep_other {s : TcpSession} {p : TcpPkt} {e : HandleEnv} (h : ¬p.belongs s = true) :
    tcpStep s (.packet p e) = s := by simp only [tcpStep, h, Bool.false_eq_true, ↓reduceIte]

/-- The number of the first byte of the data: a SYN takes a number itself. -/
def TcpPkt.dataSeq (p : TcpPkt) : U32 := if p.syn then p.seq + 1 else p.seq

/-! ## One client, for the runs on fixed inputs -/

def sampleSyn (port : BitVec 16) : TcpPkt :=
  { version := 4, saddr := [10, 1, 10, 1], daddr := [93, 184, 216, 34], source := 40000, dest := port
    seq := 1000, ackSeq := 0, urg := false, ack := false, psh := false, rst := false, syn := true, fin := false
    window := 65535, options := [], data := [] }

theorem nil_short : ([] : Bytes).length < 2 ^ 16 := by decide

theorem abc_short : ([97, 98, 99] : Bytes).length < 2 ^ 16 := by decide

/-- A later packet with ACK. -/
def samplePkt (port : BitVec 16) (seq ackSeq : U32) (data : Bytes)
    (h : data.length < 2 ^ 16 := by first | exact nil_short | exact abc_short | decide) : TcpPkt :=
  { sampleSyn port with seq, ackSeq, syn := false, ack := true, data, data_lt := h }

def sampleSession (port : BitVec 16) : TcpSession := synSession (sampleSyn port) { socket := 5 } 9960 0

theorem sampleSession_new (port : BitVec 16) :
    handleTcpNew (sampleSyn port) { socket := 5, buf := ⟨1, 0⟩ } = some (sampleSession port) := rfl

end TunProxy.Native
