import Mathlib.Logic.Relation
import TunProxy.Native.Tcp.Step

/-!
# The changes a call is made of

Every call of `tcpStep` is a chain of the changes listed here, each of which assigns the fields that belong together.
An invariant of the session is proved change by change.
-/

namespace TunProxy.Native

/-- How far a call has come: it has queued the data of its packet, its forward loop has sent something, or it has
confirmed the FIN after that. -/
inductive Phase
  | fresh | queued | forwarded | confirmed
  deriving DecidableEq, Repr

/-- Calls that neither carry data nor open or close the socket. -/
def Io.quiet : Io → Bool
  | .connect .. | .reply _ | .fault => true
  | _ => false

/-! ## What a call does to a session

Each of these is decided by the call and the session it starts with. -/

/-- The packet brings data to `queue_tcp`. -/
def TcpPkt.Queues (p : TcpPkt) (s : TcpSession) : Prop :=
  p.belongs s = true ∧ p.urg = false ∧
    if p.dest = 443 ∧ s.connectSent ≠ .established then True
    else p.data ≠ [] ∧ 0 ≤ s.socket ∧ s.state ≠ .closeWait ∧ s.state ≠ .closing ∧ s.state ≠ .close

/-- `remote_seq` when the packet is at `queue_tcp`: a CONNECT request that cannot be sent resets the session before. -/
def seqAtQueue (s : TcpSession) (p : TcpPkt) (e : HandleEnv) : U32 :=
  if p.dest = 443 ∧ s.connectSent = .notSent ∧ s.state = .listen ∧ onSocket s.socket e.connect < 0 then s.remoteSeq + 1
  else s.remoteSeq

/-- The queue when the flags of the packet are handled. -/
def queueAtFlags (s : TcpSession) (p : TcpPkt) : List Segment :=
  if p.data = [] ∨ p.dest = 443 ∧ s.connectSent ≠ .established then s.forward else (queueTcp s p).forward

/-- The proxy's answer to CONNECT cannot be read, or is not the code 200. -/
def refused (s : TcpSession) (e : SocketEnv) : Bool :=
  match e.reply.upTo 12 with
  | .fail _ => true
  | .got bytes => s.connectSent = .sent ∧ ¬(bytes = ascii "HTTP/1.0 200" ∨ bytes = ascii "HTTP/1.1 200")

/-- The packet acknowledges what was never sent. -/
def TcpPkt.AcksFuture (p : TcpPkt) (s : TcpSession) : Prop :=
  p.rst = false ∧ ¬p.current s ∧ p.ackSeq + 1 ≠ s.localSeq ∧ ¬compareU32 p.ackSeq s.localSeq < 0

/-- The call counts the SYN of the client in `remote_seq`: it resets a session in `TCP_LISTEN`, or answers the SYN. -/
def CountsSyn (s : TcpSession) (op : TcpOp) : Prop :=
  s.state = .listen ∧
    match op with
    | .packet p e =>
        p.belongs s = true ∧ p.urg = false ∧
          if p.dest = 443 ∧ s.connectSent ≠ .established then
            s.connectSent = .notSent ∧ onSocket s.socket e.connect < 0
          else p.AcksFuture s
    | .socket e => 0 ≤ s.socket ∧ (e.ev.err = true ∨ e.ev.inp = false ∨ refused s e = true)
    | .stop _ => True
    | .monitor _ | .check _ => False

/-- The queue when the call counts the SYN. -/
def queueAtCount (s : TcpSession) : TcpOp → List Segment
  | .packet p _ => queueAtFlags s p
  | _ => s.forward

/-- The packet is a FIN that the session takes. -/
def TcpPkt.Finishes (p : TcpPkt) (s : TcpSession) : Prop :=
  p.belongs s = true ∧ p.urg = false ∧ (p.dest = 443 → s.connectSent = .established) ∧
    (p.data = [] ∨ 0 ≤ s.socket) ∧ p.rst = false ∧ p.current s ∧ p.syn = false ∧ p.fin = true ∧
    (s.state = .established ∨ s.state = .finWait1)

/-- The call sends a keep alive. -/
def KeepsAlive (s : TcpSession) : TcpOp → Prop
  | .monitor e => 0 ≤ s.socket ∧ (s.state = .established ∨ s.state = .closeWait) ∧ getSendWindow s = 0 ∧
      e.ms - s.lastKeepAlive > EPOLL_MIN_CHECK
  | _ => False

variable {s : TcpSession} {p : TcpPkt}

instance : Decidable (p.Queues s) := inferInstanceAs (Decidable (_ ∧ _ ∧ _))

instance : Decidable (p.AcksFuture s) := inferInstanceAs (Decidable (_ ∧ _))

instance : Decidable (p.Finishes s) := inferInstanceAs (Decidable (_ ∧ _))

instance : (op : TcpOp) → Decidable (CountsSyn s op)
  | .packet _ _ => inferInstanceAs (Decidable (_ ∧ _ ∧ _ ∧ _))
  | .socket _ => inferInstanceAs (Decidable (_ ∧ _ ∧ _))
  | .stop _ => inferInstanceAs (Decidable (_ ∧ True))
  | .monitor _ | .check _ => inferInstanceAs (Decidable (_ ∧ False))

instance : (op : TcpOp) → Decidable (KeepsAlive s op)
  | .monitor _ => inferInstanceAs (Decidable (_ ∧ _))
  | .packet _ _ | .socket _ | .check _ | .stop _ => .isFalse id

/-! ## The changes -/

/-- The packet is handled under "Session found", and the session is not closed. -/
structure TcpSession.Takes (s : TcpSession) (p : TcpPkt) : Prop where
  dest : s.dest = p.dest
  urg : p.urg = false
  connected : s.dest = 443 → s.connectSent = .established
  notClosing : s.state ≠ .closing
  notClose : s.state ≠ .close

/-- The phase in which the flags of the packet are handled. -/
def TcpPkt.phase (p : TcpPkt) : Phase := if p.data = [] then .fresh else .queued

/-- An ACK without data of everything before `remoteSeq`. -/
def ackPacket (s : TcpSession) (remoteSeq : U32) : TunPacket :=
  tunPacket { s with remoteSeq } [] false true false false

/-- The state after an ACK of everything sent. -/
def TcpState.afterAck : TcpState → TcpState
  | .synRecv => .established
  | .lastAck => .closing
  | state => state

/-- The state after a FIN was sent. -/
def TcpState.afterEof : TcpState → TcpState
  | .established => .finWait1
  | .closeWait => .lastAck
  | state => state

/-- One change, in a call on the session `old`. -/
inductive Move (old : TcpSession) (op : TcpOp) : Phase × TcpSession → Phase × TcpSession → Prop
  | note {ph s} {time : Int} {recvWindow : U32} {hostname : Bytes} {lastKeepAlive : Int} {events : Epoll}
      {sent received : Nat} {io : List Io} (hio : ∃ calls, io = s.io ++ calls ∧ ∀ c ∈ calls, c.quiet = true) :
      Move old op (ph, s) (ph, { s with time, recvWindow, hostname, lastKeepAlive, events, sent, received, io })
  | window {ph s p e} (hop : op = .packet p e) :
      Move old op (ph, s) (ph, { s with sendWindow := p.window.setWidth 32 <<< s.sendScale })
  | rst {ph s} (ok : Bool)
      (hl : s.state = .listen → 0 ≤ s.socket →
        CountsSyn old op ∧ s.remoteSeq = old.remoteSeq ∧ s.forward = queueAtCount old op) :
      Move old op (ph, s) (ph, writeRst s ok)
  | drop {ph s} (h : s.state = .close → 0 ≤ s.socket) : Move old op (ph, s) (ph, { s with state := .closing })
  | connect {s p e} (hop : op = .packet p e) (hd : s.dest = p.dest) (hu : p.urg = false) (hp : p.dest = 443)
      (hn : s.connectSent = .notSent) (hs : 0 ≤ onSocket s.socket e.connect) :
      Move old op (.fresh, s) (.fresh, { s with connectSent := .sent, state := .listen })
  | early {s p e} (hop : op = .packet p e) (hu : p.urg = false) (hd : s.dest = 443)
      (hn : s.connectSent ≠ .established)
      (hq : p.Queues old ∧ s.remoteSeq = seqAtQueue old p e ∧ s.forward = old.forward) :
      Move old op (.fresh, s) (.queued, queueTcp s p)
  | queue {s p e} (hop : op = .packet p e) (ht : s.Takes p) (hdata : p.data ≠ []) (hs : 0 ≤ s.socket)
      (hw : s.state ≠ .closeWait) (hq : p.Queues old ∧ s.remoteSeq = seqAtQueue old p e ∧ s.forward = old.forward) :
      Move old op (.fresh, s) (.queued, queueTcp s p)
  | finQueued {s p e} (hop : op = .packet p e) (ht : s.Takes p) (hr : p.rst = false) (hc : p.current s)
      (hsyn : p.syn = false) (hfin : p.fin = true) (hs : s.state = .established) (hf : s.forward ≠ [])
      (hb : p.Finishes old ∧ s.remoteSeq = old.remoteSeq ∧ s.forward = queueAtFlags old p) :
      Move old op (p.phase, s) (p.phase, { s with state := .closeWait })
  | fin {s p e} (hop : op = .packet p e) (ht : s.Takes p) (hr : p.rst = false) (hc : p.current s)
      (hsyn : p.syn = false) (hfin : p.fin = true) (hs : s.state = .established) (hf : s.forward = [])
      (hb : p.Finishes old ∧ s.remoteSeq = old.remoteSeq ∧ s.forward = queueAtFlags old p) (ok : Bool) :
      Move old op (p.phase, s) (p.phase, { s with
        remoteSeq := s.remoteSeq + 1
        state := orClosing ok .closeWait
        io := s.io ++ [.tun (ackPacket s (s.remoteSeq + 1)) ok] })
  | lastFin {s p e} (hop : op = .packet p e) (ht : s.Takes p) (hr : p.rst = false) (hc : p.current s)
      (hsyn : p.syn = false) (hfin : p.fin = true) (hs : s.state = .finWait1)
      (hb : p.Finishes old ∧ s.remoteSeq = old.remoteSeq ∧ s.forward = queueAtFlags old p) (ok : Bool) :
      Move old op (p.phase, s) (p.phase, { s with
        remoteSeq := s.remoteSeq + 1
        state := orClosing ok .close
        io := s.io ++ [.tun (ackPacket s (s.remoteSeq + 1)) ok] })
  | ackAll {s p e} (hop : op = .packet p e) (ht : s.Takes p) (hr : p.rst = false) (ha : p.ack = true)
      (hc : p.ackSeq = s.localSeq) :
      Move old op (p.phase, s) (p.phase, { s with acked := s.localSeq, state := s.state.afterAck })
  | ackPrevious {s p e} (hop : op = .packet p e) (ht : s.Takes p) (ha : p.ack = true)
      (hl : compareU32 p.ackSeq s.localSeq < 0) (hp : 0 < compareU32 p.ackSeq s.acked) :
      Move old op (p.phase, s) (p.phase, { s with acked := p.ackSeq })
  | connected {s e} (hop : op = .socket e) (ho : 0 ≤ s.socket) (hs : s.state = .listen)
      (hb : CountsSyn old op ∧ s.remoteSeq = old.remoteSeq ∧ s.forward = queueAtCount old op) (ok : Bool) :
      Move old op (.fresh, s) (.fresh, { s with
        remoteSeq := s.remoteSeq + 1
        localSeq := if ok then s.localSeq + 1 else s.localSeq
        state := orClosing ok .synRecv
        io := s.io ++ [.tun (tunPacket { s with remoteSeq := s.remoteSeq + 1 } [] true true false false) ok] })
  | proxied {s e} (hop : op = .socket e) (ho : 0 ≤ s.socket) (hs : s.state = .listen) (hn : s.connectSent = .sent) :
      Move old op (.fresh, s) (.fresh, { s with connectSent := .established, state := .synRecv })
  | send {ph s e q rest data} {ret : Int} {n : Nat} (hop : op = .socket e) (ho : 0 ≤ s.socket)
      (hs : s.state ≠ .listen) (hf : s.forward = q :: rest) (hpos : q.pos = s.remoteSeq)
      (hdata : ∃ round, offer s.dest q (e.heap round) = some data ∧ ret = (e.send round data).ret)
      (hn : clampSent ret (q.len - q.sent) = n) (hle : n ≤ q.len - q.sent) :
      Move old op (ph, s) (.forwarded, { s with
        remoteSeq := (q.advance n hle).pos
        forward := if q.len = q.sent + n then rest else q.advance n hle :: rest
        io := s.io ++ [.send data ret] })
  | ack {ph s e} (hop : op = .socket e) (ho : 0 ≤ s.socket) (hs : s.state ≠ .listen)
      (hf : ph = .forwarded → s.state = .closeWait → s.forward ≠ []) (ok : Bool) :
      Move old op (ph, s) (ph, { s with
        state := orClosing ok s.state
        io := s.io ++ [.tun (ackPacket s s.remoteSeq) ok] })
  | confirmFin {s e} (hop : op = .socket e) (ho : 0 ≤ s.socket) (hs : s.state = .closeWait) (hf : s.forward = [])
      (ok : Bool) :
      Move old op (.forwarded, s) (.confirmed, { s with
        remoteSeq := s.remoteSeq + 1
        state := orClosing ok s.state
        io := s.io ++ [.tun (ackPacket s (s.remoteSeq + 1)) ok] })
  | data {ph s e bytes} (hop : op = .socket e) (ho : 0 ≤ s.socket) (hs : s.state = .established ∨ s.state = .closeWait)
      (hw : bytes.length ≤ (getSendWindow s).toNat) (hb : bytes ≠ []) (ok : Bool) :
      Move old op (ph, s) (ph, { s with
        localSeq := if ok then s.localSeq + BitVec.ofNat 32 bytes.length else s.localSeq
        state := orClosing ok s.state
        io := s.io ++ [.recv bytes] ++ [.tun (tunPacket s bytes false true false false) ok] })
  | eof {ph s e} (hop : op = .socket e) (ho : 0 ≤ s.socket) (hs : s.state = .established ∨ s.state = .closeWait)
      (hf : s.forward = []) (ok : Bool) :
      Move old op (ph, s) (ph, { s with
        localSeq := if ok then s.localSeq + 1 else s.localSeq
        state := orClosing ok s.state.afterEof
        io := s.io ++ [.tun (tunPacket s [] false true true false) ok] ++ [.close s.socket]
        socket := -1 })
  | eofQueued {ph s e} (hop : op = .socket e) (ho : 0 ≤ s.socket) (hs : s.state = .established ∨ s.state = .closeWait)
      (hf : s.forward ≠ []) (ok : Bool) :
      Move old op (ph, s) (ph, { s with
        state := .closing
        io := s.io ++ [.tun (tunPacket s [] false false false true) ok] ++ [.close s.socket]
        socket := -1 })
  | keepAlive {ph s e} (hop : op = .monitor e) (ho : 0 ≤ s.socket)
      (hs : s.state = .established ∨ s.state = .closeWait)
      (hb : KeepsAlive old op ∧ s.remoteSeq = old.remoteSeq) (ok : Bool) :
      Move old op (ph, s) (ph, { s with
        state := orClosing ok s.state
        io := s.io ++ [.tun (ackPacket s (s.remoteSeq - 1)) ok] })
  | close {ph s e} (hop : op = .check e) (hs : s.state = .closing) :
      Move old op (ph, s) (ph, { s with
        state := .close
        socket := if 0 ≤ s.socket then -1 else s.socket
        io := if 0 ≤ s.socket then s.io ++ [.close s.socket] else s.io })

/-- A chain of changes. -/
abbrev Moves (old : TcpSession) (op : TcpOp) : Phase × TcpSession → Phase × TcpSession → Prop :=
  Relation.ReflTransGen (Move old op)

end TunProxy.Native
