import TunProxy.Lib.Linked
import TunProxy.Lib.Run
import TunProxy.Native.Loop

/-!
# The thread in memory (`handle_events`)

The sessions are blocks of a linked list that begins at `ng_session`. The kernel keeps the set of descriptors that
`epoll_wait` watches, each with the address of its session, and these addresses come back with the events. A step has no
result where it reads a block that is not allocated, where it writes behind the end of a block, as `check_dhcp` does, or
where a loop over the list does not end.
-/

namespace TunProxy.Native

open Lib.Linked

/-- `ev.data.ptr`: the address of `ev_pipe`, `NULL` for the tun, or the address of a session. -/
inductive EventPtr
  | pipe
  | tun
  | session (a : Nat)
  deriving DecidableEq, Repr

/-- Where the thread is: not running, before "Count sessions", before `epoll_wait`, or in the loop over its events. -/
inductive Stage
  | exited | counts | waits | handles
  deriving DecidableEq, Repr

/-- The global variables of `session.c`, the memory they point to, the variables of `handle_events`, and the descriptors
of sessions that are in the set of `epoll_fd`. `ready` are the events not handled yet. -/
structure Thread where
  heap : Heap NgSession
  ngSession : Option Nat
  interest : List (Int × Nat)
  stage : Stage
  ready : List EventPtr
  maxsessions : Int
  sessions : Int
  lastCheck : Int
  io : List Io

/-- Before the first `jni_start`. -/
def Thread.init : Thread :=
  { heap := ∅, ngSession := none, interest := [], stage := .exited, ready := [], maxsessions := 0, sessions := 0
    lastCheck := 0, io := [] }

/-! ## The kernel and the allocator -/

/-- The calls a handler made. -/
def NgSession.callsSince (s old : NgSession) : List Io := s.io.drop old.io.length

/-- A descriptor that is closed leaves the set. -/
def watch (interest : List (Int × Nat)) (calls : List Io) : List (Int × Nat) :=
  interest.filter fun x => .close x.1 ∉ calls

/-- The address `malloc` returns for a session, and whether `EPOLL_CTL_ADD` works for its socket. -/
structure Block where
  addr : Nat
  added : Bool

/-- The session at `a` is given to a handler. -/
def Thread.modify (t : Thread) (a : Nat) (handle : NgSession → NgSession) : Option Thread :=
  match t.heap.lookup a with
  | none => none
  | some node =>
      let s := handle node.val
      some { t with
        heap := t.heap.insert a { node with val := s }, interest := watch t.interest (s.callsSince node.val) }

/-- As `modify`, for a handler that may write behind the end of a block. -/
def Thread.modifyWithin (t : Thread) (a : Nat) (handle : NgSession → NgSession) : Option Thread :=
  match t.heap.lookup a with
  | none => none
  | some node => if ((handle node.val).callsSince node.val).any Io.leavesBlock then none else t.modify a handle

/-- The code under "Register session" and "Monitor events". -/
def Thread.register (t : Thread) (s : NgSession) (b : Block) : Thread :=
  { t with
    heap := t.heap.insert b.addr { val := s, next := t.ngSession }
    ngSession := some b.addr
    interest := if b.added then (s.socket, b.addr) :: t.interest else t.interest }

/-- `while (cur != NULL && !test(cur)) cur = cur->next;` -/
def Thread.find (t : Thread) (test : NgSession → Bool) : Option (Option Nat) :=
  Lib.Linked.find t.heap test (rounds t.heap) t.ngSession

/-! ## Packets of the tun -/

/-- `handle_icmp`. -/
def Thread.handleIcmp (t : Thread) (p : IcmpPkt) (e : IcmpEnv) (b : Block) : Option Thread :=
  let belongs : NgSession → Bool
    | .icmp s => p.belongs s
    | _ => false
  let handle : NgSession → NgSession
    | .icmp s => .icmp (Native.handleIcmp s p e)
    | s => s
  if p.isEcho then
    match t.find belongs with
    | none => none
    | some (some a) => t.modify a handle
    | some none =>
        match handleIcmpNew p e with
        | some s => (t.register (.icmp s) b).modify b.addr handle
        | none => some t
  else some t

/-- `handle_udp`. -/
def Thread.handleUdp (t : Thread) (p : UdpPkt) (e : UdpEnv) (b : Block) : Option Thread :=
  let belongs : NgSession → Bool
    | .udp s => p.belongs s
    | _ => false
  let handle : NgSession → NgSession
    | .udp s => .udp (Native.handleUdp s p e)
    | s => s
  match t.find belongs with
  | none => none
  | some (some a) => t.modifyWithin a handle
  | some none =>
      match handleUdpNew p e with
      | some s => (t.register (.udp s) b).modifyWithin b.addr handle
      | none => some t

/-- `handle_tcp`. -/
def Thread.handleTcp (t : Thread) (p : TcpPkt) (e : HandleEnv) (b : Block) : Option Thread :=
  let belongs : NgSession → Bool
    | .tcp s => p.belongs s
    | _ => false
  let handle : NgSession → NgSession
    | .tcp s => .tcp (Native.handleTcp s p e)
    | s => s
  match t.find belongs with
  | none => none
  | some (some a) => t.modify a handle
  | some none =>
      match handleTcpNew p e with
      | some s => some (t.register (.tcp s) b)
      | none => some (if p.urg ∨ p.syn then t else { t with io := t.io ++ [.tun (unknownRst p) e.writeOk] })

/-- `has_udp_session`. -/
def Thread.hasUdpSession (t : Thread) (fwd53 : Bool) (p : UdpPkt) : Option Bool :=
  let belongs : NgSession → Bool
    | .udp s => p.belongs s
    | _ => false
  if p.dest = 53 ∧ fwd53 = false then some true else (t.find belongs).map Option.isSome

/-- The code under "Limit number of sessions". -/
def Thread.overLimit (t : Thread) (fwd53 : Bool) : IpPkt → Option Bool
  | .icmp _ => some (t.sessions ≥ t.maxsessions)
  | .udp p _ => if t.sessions ≥ t.maxsessions then (t.hasUdpSession fwd53 p).map (!·) else some false
  | .tcp p _ => some (t.sessions ≥ t.maxsessions ∧ p.syn = true)

/-- What `check_tun` reads: the packet, what is behind it in the buffer, and what the environment answers. -/
structure TunRead where
  pkt : Bytes
  behind : Nat → UInt8
  loglevel : Int
  fwd53 : Bool
  env : IpEnv
  block : Block

/-- `handle_ip`. -/
def Thread.handleIp (t : Thread) (r : TunRead) : Option Thread :=
  let buffer := r.pkt.take MTU
  match ipPkt (memAt buffer r.behind) buffer.length r.loglevel with
  | none => some t
  | some p =>
      match t.overLimit r.fwd53 p with
      | none => none
      | some true => some t
      | some false =>
          match p with
          | .icmp p => t.handleIcmp p r.env.icmp r.block
          | .udp p behind => t.handleUdp p { r.env.udp with behind } r.block
          | .tcp p heap => t.handleTcp p { r.env.tcp with heap } r.block

/-! ## The loops over the list -/

/-- The loop under "Count sessions". -/
def Thread.count (t : Thread) (e : Nat → MonitorEnv) : Option Thread :=
  let monitor (i : Nat) : NgSession → NgSession
    | .tcp s => if s.socket ≥ 0 then .tcp (monitorTcpSession s (e i)) else .tcp s
    | s => s
  let body (i : Nat) (s : NgSession) (sessions : Int) := (monitor i s, if s.isActive then sessions + 1 else sessions)
  match each body (rounds t.heap) 0 t.heap 0 t.ngSession with
  | none => none
  | some (heap, sessions) => some { t with heap, sessions }

/-- A loop that unlinks sessions. -/
def Thread.unlink (t : Thread) (check : Nat → NgSession → NgSession × Bool) : Option Thread :=
  let body (i : Nat) (s : NgSession) (interest : List (Int × Nat)) :=
    (check i s, watch interest ((check i s).1.callsSince s))
  match Lib.Linked.unlink body (rounds t.heap) 0 t.ngSession t.heap t.interest none t.ngSession with
  | none => none
  | some (ngSession, heap, interest) => some { t with ngSession, heap, interest }

/-- The code under "Count sessions" and "Check sessions". -/
def Thread.round (t : Thread) (e : RoundEnv) : Option Thread :=
  match t.count e.monitor with
  | none => none
  | some t =>
      if e.ms - t.lastCheck > EPOLL_MIN_CHECK then
        let check (i : Nat) (s : NgSession) :=
          checkSession s {
            now := e.now i, sessions := t.sessions, maxsessions := t.maxsessions, writeOk := e.writeOk i }
        { t with lastCheck := e.ms, stage := .waits }.unlink check
      else some { t with stage := .waits }

/-- The code before the loop: the epoll set is a new one, if it can be opened. -/
def Thread.start (t : Thread) (rlimCur : BitVec 64) (writeOk : Nat → Bool) (opened : Bool) : Option Thread :=
  { t with
    interest := []
    stage := if opened then .counts else .exited
    ready := []
    maxsessions := maxSessions rlimCur
    sessions := 0
    lastCheck := 0 }.unlink fun i s => stopSession s (writeOk i)

/-- `clear`. -/
def Thread.clear (t : Thread) : Option Thread :=
  match freeAll (rounds t.heap) t.heap t.ngSession with
  | none => none
  | some heap => some { Thread.init with heap }

/-! ## The loop over the events -/

/-- The code after the loop: closing `epoll_fd` ends the set. -/
def Thread.exit (t : Thread) : Thread := { t with stage := .exited, interest := [], ready := [] }

/-- The next event. -/
def Thread.next (t : Thread) : Thread :=
  let ready := t.ready.tail
  { t with ready, stage := if ready = [] then .counts else .handles }

/-- The handler of an event, as the protocol of its session says. -/
def eventHandler (e : Event) : NgSession → NgSession
  | .icmp s =>
      match e with
      | .datagram e => .icmp (checkIcmpSocket s e)
      | .tcp _ => .icmp s
  | .udp s =>
      match e with
      | .datagram e => .udp (checkUdpSocket s e)
      | .tcp _ => .udp s
  | .tcp s =>
      match e with
      | .datagram _ => .tcp s
      | .tcp e => .tcp (checkTcpSocket s e)

/-- The code under "Check downstream". The handler of a UDP session is called as long as there is something to read. -/
def Thread.downstream (t : Thread) (a : Nat) (e : Event) : Option Thread :=
  match t.heap.lookup a with
  | none => none
  | some node =>
      match node.val with
      | .udp s => if wakes (.udp s) e then t.modify a (eventHandler e) else some t
      | _ => (t.modify a (eventHandler e)).map Thread.next

/-- What happens to the thread. -/
inductive ThreadOp
  /-- `jni_start`. -/
  | start (rlimCur : BitVec 64) (writeOk : Nat → Bool) (opened : Bool)
  | round (e : RoundEnv)
  /-- `epoll_wait` returns events, or fails. -/
  | wait (events : Option (List EventPtr))
  /-- `check_tun` has read a packet, an empty one at the end of the file, or fails. -/
  | tun (read : Option TunRead)
  | socket (e : Event)
  /-- The event is handled: nothing is left to read. -/
  | next
  /-- `jni_stop`, once the thread has ended. -/
  | clear

def threadStep (t : Thread) : ThreadOp → Option Thread
  | .start rlimCur writeOk opened => if t.stage = .exited then t.start rlimCur writeOk opened else some t
  | .round e => if t.stage = .counts then t.round e else some t
  | .wait events =>
      if t.stage = .waits then
        match events with
        | none => some t.exit
        | some ready => some { t with ready, stage := if ready = [] then .counts else .handles }
      else some t
  | .tun read =>
      match t.ready with
      | .tun :: _ =>
          match read with
          | none => some t.exit
          | some r => if r.pkt.take MTU = [] then some t.exit else t.handleIp r
      | _ => some t
  | .socket e =>
      match t.ready with
      | .session a :: _ => t.downstream a e
      | _ => some t
  | .next =>
      match t.ready with
      | [] => some t
      | .pipe :: _ => some t.exit
      | _ => some t.next
  | .clear => if t.stage = .exited then t.clear else some t

/-! ## What the kernel promises -/

def EventPtr.session? : EventPtr → Option Nat
  | .session a => some a
  | _ => none

/-- No session has this descriptor, if it is one. -/
def Thread.Unused (t : Thread) (fd : Int) : Prop :=
  ∀ a node, t.heap.lookup a = some node → 0 ≤ fd → node.val.socket ≠ fd

/-- `epoll_wait` returns at most one event for each descriptor of the set. `malloc` returns a block that is not in use,
and `socket` a descriptor that is not open. -/
def Thread.Allows (t : Thread) : ThreadOp → Prop
  | .wait (some events) => (events.filterMap EventPtr.session?).Subperm (t.interest.map Prod.snd)
  | .tun (some r) =>
      t.heap.lookup r.block.addr = none ∧ t.Unused r.env.icmp.socket ∧ t.Unused r.env.udp.socket ∧
        t.Unused r.env.tcp.socket
  | _ => True

/-- A step, where nothing has failed before. -/
def runStep (t : Option Thread) (op : ThreadOp) : Option Thread := t.bind fun t => threadStep t op

/-- A run of the thread: the kernel keeps its promises at every step. -/
abbrev ThreadRun (ops : List ThreadOp) (t : Option Thread) : Prop :=
  Lib.Run runStep (fun t op => ∀ t', t = some t' → t'.Allows op) (some Thread.init) ops t

end TunProxy.Native
