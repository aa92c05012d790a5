import TunProxy.Lib.Linked
import TunProxy.Native.Tcp.Moves

/-!
# The queue in memory (`struct segment`)

The queue of a session is a linked list that begins at `forward`. Each segment has a block of its own for its data.
A function has no result where it reads, writes or frees a block that is not allocated, reads behind the end of the
data, or where its loop does not end. Only `patch_http_url`, on port 80, has a result where it reads behind the end of
the data: it finds there what `heap` holds.
-/

namespace TunProxy.Native

open Lib.Linked

/-- `struct segment`, without `next`. -/
structure SegmentBlock where
  seq : U32
  len : Nat
  sent : Nat
  psh : Bool
  data : Nat
  deriving DecidableEq, Repr

def SegmentBlock.left (q : SegmentBlock) : U32 := BitVec.ofNat 32 q.len - BitVec.ofNat 32 q.sent

def SegmentBlock.pos (q : SegmentBlock) : U32 := q.seq + BitVec.ofNat 32 q.sent

/-- The blocks allocated for a session, and its pointer `forward`. -/
structure Blocks where
  segments : Heap SegmentBlock
  datas : AList fun _ : Nat => Bytes
  forward : Option Nat

/-- `malloc`, as an address for every list of addresses that are in use. -/
structure Malloc where
  addr : List Nat → Nat
  addr_fresh : ∀ used, addr used ∉ used

/-- The addresses behind all that are in use. -/
def Malloc.next : Malloc where
  addr used := used.foldr max 0 + 1
  addr_fresh used h := by
    have hle : ∀ l : List Nat, ∀ a ∈ l, a ≤ l.foldr max 0 := by
      intro l
      induction l with
      | nil => simp
      | cons b l ih =>
          intro a ha
          rcases List.mem_cons.1 ha with rfl | ha
          · exact Nat.le_max_left _ _
          · exact (ih a ha).trans (Nat.le_max_right _ _)
    have := hle used _ h
    omega

/-- What `malloc` returns for a segment, and for its data. -/
structure Alloc where
  segment : Malloc
  data : Malloc

def Alloc.next : Alloc := ⟨.next, .next⟩

/-! ## `queue_tcp` -/

/-- `n = malloc(sizeof(struct segment))`, its fields, and its place in the list. -/
def Blocks.insert (m : Blocks) (p : TcpPkt) (a : Alloc) (prev s : Option Nat) : Option Blocks :=
  let n := a.segment.addr m.segments.keys
  let data := a.data.addr m.datas.keys
  let q := { seq := p.seq, len := p.data.length, sent := 0, psh := p.psh, data }
  match link m.segments m.forward n q prev s with
  | none => none
  | some (segments, forward) => some { segments, datas := m.datas.insert data p.data, forward }

/-- `free(s->data); s->data = malloc(datalen);` and the copy. -/
def Blocks.replace (m : Blocks) (p : TcpPkt) (a : Alloc) (s : Nat) (node : Node SegmentBlock) : Option Blocks :=
  match m.datas.lookup node.val.data with
  | none => none
  | some _ =>
      let datas := m.datas.erase node.val.data
      let data := a.data.addr datas.keys
      some { m with
        segments := m.segments.insert s { node with val := { node.val with data } }
        datas := datas.insert data p.data }

/-- `queue_tcp`. -/
def Blocks.queueTcp (m : Blocks) (remoteSeq : U32) (p : TcpPkt) (a : Alloc) : Option Blocks :=
  if compareU32 p.seq remoteSeq < 0 then some m
  else
    match seek m.segments (fun q => compareU32 q.seq p.seq < 0) (rounds m.segments) none m.forward with
    | none => none
    | some (prev, none) => m.insert p a prev none
    | some (prev, some s) =>
        match m.segments.lookup s with
        | none => none
        | some node =>
            if compareU32 node.val.seq p.seq > 0 then m.insert p a prev (some s)
            else if node.val.seq = p.seq then
              if node.val.len = p.data.length then some m
              else if node.val.len < p.data.length then m.replace p a s node
              else some m
            else some m

/-! ## The forward loop -/

/-- The bytes given to `send`, as `offer` says of the block `data` of the segment. On port 80 the bytes `heap` behind
the block are read too, and there is no result where `patch_http_url` kills the process. -/
def offerBlock (dest : BitVec 16) (q : SegmentBlock) (data : Bytes) (heap : Nat → UInt8) : Option Bytes :=
  let rest := (data.drop q.sent).take (q.len - q.sent)
  if dest = 80 then
    match patchHttpUrl (memAt (data.drop q.sent) heap) (q.len - q.sent) with
    | .none => some rest
    | .some data => some data
    | .fault => none
  else some rest

/-- `sent += n`, and a segment that was sent is unlinked and freed. -/
def Blocks.advance (m : Blocks) (s : Nat) (node : Node SegmentBlock) (n : Nat) : Option Blocks :=
  let q := { node.val with sent := node.val.sent + n }
  if q.len = q.sent then
    match m.datas.lookup q.data with
    | none => none
    | some _ => some { segments := m.segments.erase s, datas := m.datas.erase q.data, forward := node.next }
  else some { m with segments := m.segments.insert s { node with val := q } }

/-- The forward loop. The fields of `s` are those of the session, except `forward`. -/
def Blocks.forwardLoop (e : SocketEnv) : (rounds : Nat) → (m : Blocks) → (round : Nat) → (bufferSize : U32) →
    (fwd : Bool) → (s : TcpSession) → Option (Blocks × TcpSession × Option Bool)
  | 0, _, _, _, _, _ => none
  | rounds + 1, m, round, bufferSize, fwd, s =>
      match m.forward with
      | none => some (m, s, some fwd)
      | some a =>
          match m.segments.lookup a with
          | none => none
          | some node =>
              let q := node.val
              if q.pos = s.remoteSeq ∧ q.left < bufferSize then
                match m.datas.lookup q.data with
                | none => none
                | some block =>
                    if block.length < q.len then none
                    else
                      match offerBlock s.dest q block (e.heap round) with
                      | none => some (m, { s with io := s.io ++ [.fault] }, none)
                      | some data =>
                          let r := e.send round data
                          let ret := onSocket s.socket r.ret
                          let s := { s with io := s.io ++ [.send data ret] }
                          let sent := clampSent ret (q.len - q.sent)
                          if sent < 0 then
                            if r.errno = .eintr ∨ r.errno = .eagain then some (m, s, some fwd)
                            else some (m, writeRst s e.writeOk, some fwd)
                          else
                            match m.advance a node sent.toNat with
                            | none => none
                            | some m =>
                                let s := {
                                  s with
                                  sent := (s.sent + sent.toNat) % 2 ^ 64
                                  remoteSeq := q.seq + BitVec.ofNat 32 (q.sent + sent.toNat) }
                                if q.len = q.sent + sent.toNat then
                                  forwardLoop e rounds m (round + 1) (bufferSize - BitVec.ofInt 32 sent) true s
                                else some (m, s, some true)
              else some (m, s, some fwd)

/-! ## What reads the queue, and what frees it -/

/-- `get_receive_window`. -/
def Blocks.getReceiveWindow (m : Blocks) (s : TcpSession) (b : SockBuf) : Option U32 :=
  match fold (fun n q => n + SegmentBlock.left q) m.segments (rounds m.segments) 0 m.forward with
  | none => none
  | some toforward =>
      let window := BitVec.ofNat 32 (getReceiveBuffer s b)
      let max := BitVec.ofNat 32 0xFFFF <<< s.recvScale
      let window := if window > max then max else window
      let window := if toforward < window then window - toforward else 0
      some (if window >>> s.recvScale = 0 then 0 else window)

/-- What `monitor_tcp_session` asks of the first segment. -/
def Blocks.canForward (m : Blocks) (s : TcpSession) (b : SockBuf) : Option Bool :=
  match m.forward with
  | none => some false
  | some a =>
      match m.segments.lookup a with
      | none => none
      | some node =>
          some (node.val.pos = s.remoteSeq ∧ node.val.left < BitVec.ofNat 32 (getReceiveBuffer s b))

/-- `free(p->data)`. -/
def freeData (datas : AList fun _ : Nat => Bytes) (q : SegmentBlock) : Option (AList fun _ : Nat => Bytes) :=
  match datas.lookup q.data with
  | none => none
  | some _ => some (datas.erase q.data)

/-- `clear_tcp_data`. -/
def Blocks.clearTcpData (m : Blocks) : Option Blocks :=
  match freeEach freeData (rounds m.segments) m.segments m.datas m.forward with
  | none => none
  | some (segments, datas) => some { m with segments, datas }

/-! ## Calls -/

/-- The code under "SYN data", and nothing is allocated without it. -/
def Blocks.ofSyn (p : TcpPkt) (a : Alloc) : Option Blocks :=
  let m := { segments := ∅, datas := ∅, forward := none }
  if p.data ≠ [] then m.insert p a none none else some m

/-- What the call for the session does to its blocks. -/
def Blocks.call (m : Blocks) (s : TcpSession) (a : Alloc) : TcpOp → Option Blocks
  | .packet p e => if p.Queues s then m.queueTcp (seqAtQueue s p e) p a else some m
  | .socket e =>
      if 0 ≤ s.socket ∧ e.ev.err = false ∧ s.state ≠ .listen then
        let size := BitVec.ofNat 32 (getReceiveBuffer s e.fwdBuf)
        match if e.ev.out then m.forwardLoop e (rounds m.segments) 0 size false s else some (m, s, some false) with
        | none => none
        | some (m, _, none) => some m
        | some (m, s, some _) => (m.getReceiveWindow s e.winBuf).map fun _ => m
      else some m
  | .monitor e =>
      if 0 ≤ s.socket ∧ (s.state = .established ∨ s.state = .closeWait) then
        (m.canForward s e.buf).map fun _ => m
      else some m
  | .check _ | .stop _ => some m

/-- The session and its blocks after the calls. -/
def Blocks.run (m : Blocks) (s : TcpSession) : List (TcpOp × Alloc) → Option (Blocks × TcpSession)
  | [] => some (m, s)
  | (op, a) :: calls =>
      match m.call s a op with
      | none => none
      | some m => m.run (tcpStep s op) calls

end TunProxy.Native
