import TunProxy.Native.Util

/-!
# The queue of data for the socket, and the windows (`queue_tcp`, `get_send_window`, `get_receive_window`)
-/

namespace TunProxy.Native

/-- The segment `queue_tcp` makes of a packet. -/
def TcpPkt.segment (p : TcpPkt) : Segment :=
  { seq := p.seq, len := p.data.length, sent := 0, psh := p.psh, data := p.data, len_lt := p.data_lt
    sent_le := Nat.zero_le _, len_le := Nat.le_refl _ }

/-- The loop of `queue_tcp` over the list, and what it does at the place it finds. -/
def enqueue (p : TcpPkt) : List Segment → List Segment
  | [] => [p.segment]
  | q :: rest =>
      if compareU32 q.seq p.seq < 0 then q :: enqueue p rest
      else if compareU32 q.seq p.seq > 0 then p.segment :: q :: rest
      else if q.len = p.data.length then q :: rest
      -- the data is replaced, `len` is not
      else if h : q.len < p.data.length then { q with data := p.data, len_le := h.le } :: rest
      else q :: rest

/-- `queue_tcp`. -/
def queueTcp (s : TcpSession) (p : TcpPkt) : TcpSession :=
  if compareU32 p.seq s.remoteSeq < 0 then s else { s with forward := enqueue p s.forward }

/-- `get_send_window`. -/
def getSendWindow (s : TcpSession) : U32 :=
  let behind := if compareU32 s.acked s.localSeq ≤ 0 then s.localSeq - s.acked else s.acked
  if behind < s.sendWindow then s.sendWindow - behind else 0

/-- What the kernel says about the buffer of a socket: `SO_SNDBUF` and `SIOCOUTQ`, 0 where the call failed. -/
structure SockBuf where
  sendbuf : Nat
  unsent : Nat
  deriving DecidableEq, Repr

/-- `get_receive_buffer`. -/
def getReceiveBuffer (s : TcpSession) (b : SockBuf) : Nat :=
  if s.socket < 0 then 0
  else
    let sendbuf := if b.sendbuf = 0 then 16384 else b.sendbuf
    if b.unsent < sendbuf / 2 then sendbuf / 2 - b.unsent else 0

/-- `len - sent` of a segment, as the `uint32_t` it is compared and added as. -/
def Segment.left (q : Segment) : U32 := BitVec.ofNat 32 q.len - BitVec.ofNat 32 q.sent

/-- The number `seq + sent` of the first byte that was not sent. -/
def Segment.pos (q : Segment) : U32 := q.seq + BitVec.ofNat 32 q.sent

/-- `get_receive_window`. -/
def getReceiveWindow (s : TcpSession) (b : SockBuf) : U32 :=
  let toforward := s.forward.foldl (fun n q => n + q.left) 0
  let window := BitVec.ofNat 32 (getReceiveBuffer s b)
  let max := BitVec.ofNat 32 0xFFFF <<< s.recvScale
  let window := if window > max then max else window
  let window := if toforward < window then window - toforward else 0
  if window >>> s.recvScale = 0 then 0 else window

end TunProxy.Native
