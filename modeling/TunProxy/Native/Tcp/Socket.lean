import TunProxy.Native.Http
import TunProxy.Native.Tcp.Queue
import TunProxy.Native.Tcp.Write

/-!
# Events of the socket (`check_tcp_socket`)
-/

namespace TunProxy.Native

/-- The event, and what the environment answers during one call. The arguments of `send` and `heap` count the rounds
of the forward loop. -/
structure SocketEnv where
  ev : Epoll
  now : Int := 0
  /-- The buffer of the socket, at the forward loop and at the window. -/
  fwdBuf : SockBuf := ⟨0, 0⟩
  winBuf : SockBuf := ⟨0, 0⟩
  send : (round : Nat) → Bytes → SendResult := fun _ _ => .eagain
  /-- The bytes behind the data of the first segment. -/
  heap : (round : Nat) → Nat → UInt8 := fun _ _ => 0
  /-- `recv` of data, and of the proxy's answer in `TCP_LISTEN`. -/
  recv : RecvResult := .fail .eagain
  reply : RecvResult := .fail .eagain
  /-- `recv` of what is behind the first 12 bytes of the answer. After these results there is nothing to read. -/
  drain : List RecvResult := []
  /-- Whether the packets for the client are written: SYN/ACK or RST, the ACK of forwarded data, and the packet for
  what was read. -/
  writeOk : Bool := true
  ackOk : Bool := true
  readOk : Bool := true

/-! ## `TCP_LISTEN` -/

/-- The loop `while (recv(..) > 0) {}`: the calls that return bytes. -/
def drained : List RecvResult → List Io
  | [] => []
  | r :: rest =>
      match r.upTo 512 with
      | .fail _ => []
      | .got [] => []
      | .got bytes => .reply bytes :: drained rest

/-- The code for `TCP_LISTEN`: the answer to CONNECT, or the socket is connected. -/
def checkListen (s : TcpSession) (e : SocketEnv) : TcpSession :=
  if e.ev.inp then
    match e.reply.upTo 12 with
    | .fail _ => writeRst s e.writeOk
    | .got bytes =>
        let s := { s with io := s.io ++ [.reply bytes] }
        if s.connectSent = .sent then
          if bytes = ascii "HTTP/1.0 200" ∨ bytes = ascii "HTTP/1.1 200" then
            { s with connectSent := .established, io := s.io ++ drained e.drain, state := .synRecv }
          else writeRst s e.writeOk
        else s
  else
    let s := writeSynAck { s with remoteSeq := s.remoteSeq + 1 } e.writeOk
    if e.writeOk then { s with time := e.now, localSeq := s.localSeq + 1, state := .synRecv } else s

/-! ## The forward loop -/

/-- The bytes of the segment that were not sent. -/
def Segment.rest (q : Segment) : Bytes := (q.data.drop q.sent).take (q.len - q.sent)

/-- The bytes given to `send`: rewritten on port 80. None where the rewriting kills the process. -/
def offer (dest : BitVec 16) (q : Segment) (heap : Nat → UInt8) : Option Bytes :=
  if dest = 80 then
    match patchHttpUrl (memAt (q.data.drop q.sent) heap) (q.len - q.sent) with
    | .none => some q.rest
    | .some data => some data
    | .fault => none
  else some q.rest

/-- `if (sent > len) sent = len;` compares as `size_t`. -/
def clampSent (sent : Int) (len : Nat) : Int := if toSize sent > len then len else sent

/-- What is counted as sent is never more than the length. -/
theorem clampSent_le {ret : Int} {len : Nat} (hret : ret < 2 ^ 63) (h : ¬clampSent ret len < 0) :
    (clampSent ret len).toNat ≤ len := by
  unfold clampSent toSize at *
  split <;> split at h <;> omega

theorem onSocket_lt (socket : Int) (r : SendResult) : onSocket socket r.ret < 2 ^ 63 := by
  have := r.ret_lt
  unfold onSocket
  split <;> omega

/-- The segment after `n` more bytes of it. -/
def Segment.advance (q : Segment) (n : Nat) (h : n ≤ q.len - q.sent) : Segment :=
  { q with sent := q.sent + n, sent_le := by have := q.sent_le; omega }

/-- The forward loop, on the queue `forward`. The second result is `fwd`; there is none where the process died. -/
def forwardLoop (e : SocketEnv) : (forward : List Segment) → (round : Nat) → (bufferSize : U32) → (fwd : Bool) →
    (s : TcpSession) → TcpSession × Option Bool
  | [], _, _, fwd, s => ({ s with forward := [] }, some fwd)
  | q :: rest, round, bufferSize, fwd, s =>
      let s := { s with forward := q :: rest }
      if q.pos = s.remoteSeq ∧ q.left < bufferSize then
        match offer s.dest q (e.heap round) with
        | none => ({ s with io := s.io ++ [.fault] }, none)
        | some data =>
            let r := e.send round data
            let ret := onSocket s.socket r.ret
            let s := { s with io := s.io ++ [.send data ret] }
            let sent := clampSent ret (q.len - q.sent)
            if h : sent < 0 then
              if r.errno = .eintr ∨ r.errno = .eagain then (s, some fwd)
              else (writeRst s e.writeOk, some fwd)
            else
              let q := q.advance sent.toNat (clampSent_le (onSocket_lt ..) h)
              let s := { s with sent := (s.sent + sent.toNat) % 2 ^ 64, remoteSeq := q.pos }
              if q.len = q.sent then
                forwardLoop e rest (round + 1) (bufferSize - BitVec.ofInt 32 sent) true s
              else ({ s with forward := q :: rest }, some true)
      else (s, some fwd)

/-- The code under "Forward data". -/
def forwardData (s : TcpSession) (e : SocketEnv) : TcpSession × Option Bool :=
  forwardLoop e s.forward 0 (BitVec.ofNat 32 (getReceiveBuffer s e.fwdBuf)) false s

/-! ## After the loop -/

/-- The code under "Get receive window" and "Acknowledge forwarded data". -/
def acknowledge (s : TcpSession) (e : SocketEnv) (fwd : Bool) : TcpSession :=
  let window := getReceiveWindow s e.winBuf
  let prev := s.recvWindow
  let s := { s with recvWindow := window }
  if fwd ∨ (prev = 0 ∧ window > 0) then
    let s :=
      if fwd ∧ s.forward = [] ∧ s.state = .closeWait then { s with remoteSeq := s.remoteSeq + 1 } else s
    let s := writeAck s e.ackOk
    if e.ackOk then { s with time := e.now } else s
  else s

/-- The end of the stream: FIN to the client, or RST where data is still queued, and the socket is closed. -/
def readEof (s : TcpSession) (e : SocketEnv) : TcpSession :=
  let s :=
    if s.forward = [] then
      let s := writeFinAck s e.readOk
      let s := if e.readOk then { s with localSeq := s.localSeq + 1 } else s
      match s.state with
      | .established => { s with state := .finWait1 }
      | .closeWait => { s with state := .lastAck }
      | _ => s
    else writeRst s e.readOk
  { s with io := s.io ++ [.close s.socket], socket := -1 }

/-- The code under "Check socket read". -/
def readSocket (s : TcpSession) (e : SocketEnv) : TcpSession :=
  let sendWindow := getSendWindow s
  if e.ev.inp ∧ sendWindow > 0 then
    let s := { s with time := e.now }
    let bufferSize := if sendWindow.toNat > s.mss then s.mss else sendWindow.toNat
    match e.recv.upTo bufferSize with
    | .fail errno => if errno ≠ .eintr ∧ errno ≠ .eagain then writeRst s e.readOk else s
    | .got [] => readEof s e
    | .got bytes =>
        let s := { s with received := (s.received + bytes.length) % 2 ^ 64, io := s.io ++ [.recv bytes] }
        let s := writeData s bytes e.readOk
        if e.readOk then { s with localSeq := s.localSeq + BitVec.ofNat 32 bytes.length } else s
  else s

/-- `check_tcp_socket`. -/
def checkTcpSocket (s : TcpSession) (e : SocketEnv) : TcpSession :=
  if e.ev.err then writeRst { s with time := e.now } e.writeOk
  else if s.state = .listen then checkListen s e
  else
    match if e.ev.out then forwardData s e else (s, some false) with
    | (s, none) => s
    | (s, some fwd) =>
        let s := acknowledge s e fwd
        if s.state = .established ∨ s.state = .closeWait then readSocket s e else s

end TunProxy.Native
