import TunProxy.Native.Ip

/-!
# The event loop (`handle_events`)

Between two polls the loop counts and checks the sessions. After a poll it handles the packets of the tun and the
events of the sockets, with the count it made before.
-/

namespace TunProxy.Native

def SESSION_LIMIT : BitVec 64 := 40

/-- The sessions under "Count sessions". -/
def NgSession.isActive : NgSession → Bool
  | .icmp s => !s.stop
  | .udp s => s.state = .active
  | .tcp s => s.state ≠ .closing ∧ s.state ≠ .close

def World.active (w : World) : Nat := w.sessions.countP NgSession.isActive

/-- The code under "Get max sessions": `rlim_t` has 64 bits, and the quotient becomes an `int`. -/
def maxSessions (rlimCur : BitVec 64) : Int :=
  let maxsessions := (BitVec.ofNat 32 ((rlimCur * SESSION_LIMIT).toNat / 100)).toInt
  if maxsessions > 1000 then 1000 else maxsessions

/-- The list, and the variables of `handle_events`: `sessions` is the last count. -/
structure Loop where
  world : World
  maxsessions : Int
  sessions : Int
  lastCheck : Int

/-- The loop at `init`. -/
def Loop.init : Loop := { world := .init, maxsessions := 0, sessions := 0, lastCheck := 0 }

/-- What the environment answers while the sessions are counted and checked. -/
structure RoundEnv where
  /-- `get_ms()`. -/
  ms : Int
  monitor : Nat → MonitorEnv := fun _ => {}
  /-- `time(NULL)` when a session is checked, and whether its packet is written. -/
  now : Nat → Int
  writeOk : Nat → Bool := fun _ => true

/-- The code before the loop. -/
def Loop.start (l : Loop) (rlimCur : BitVec 64) (writeOk : Nat → Bool) : Loop :=
  { world := l.world.checkAllowed writeOk, maxsessions := maxSessions rlimCur, sessions := 0, lastCheck := 0 }

/-- What the environment answers when the session with the number `i` is checked. -/
def Loop.checkEnv (l : Loop) (e : RoundEnv) (i : Nat) : CheckEnv :=
  { now := e.now i, sessions := l.sessions, maxsessions := l.maxsessions, writeOk := e.writeOk i }

/-- The code under "Count sessions" and "Check sessions". -/
def Loop.round (l : Loop) (e : RoundEnv) : Loop :=
  let l := { l with sessions := l.world.active, world := l.world.monitor e.monitor }
  if e.ms - l.lastCheck > EPOLL_MIN_CHECK then
    { l with lastCheck := e.ms, world := l.world.sweep (l.checkEnv e) }
  else l

/-- `check_tun`, on the packet to be read: `read` takes `get_mtu()` bytes of it. `heap` holds the rest of the buffer. -/
def Loop.checkTun (l : Loop) (pkt : Bytes) (heap : Nat → UInt8) (loglevel : Int) (fwd53 : Bool) (e : IpEnv) : Loop :=
  let buffer := pkt.take MTU
  if buffer = [] then l
  else
    let args := { loglevel, fwd53, sessions := l.sessions, maxsessions := l.maxsessions }
    { l with world := l.world.handleIp (memAt buffer heap) buffer.length args e }

/-- Whether the code under "Check downstream" calls the handler of the event. -/
def wakes (s : NgSession) (e : Event) : Bool :=
  match s, e with
  | .udp _, .datagram e => !e.ev.err && e.ev.inp
  | _, _ => true

/-- The code under "Check downstream", for an event of the session with the number `i`. -/
def Loop.downstream (l : Loop) (i : Nat) (e : Event) : Loop :=
  match l.world.sessions[i]? with
  | none => l
  | some s => if wakes s e then { l with world := l.world.event i e } else l

inductive LoopOp
  | start (rlimCur : BitVec 64) (writeOk : Nat → Bool)
  | round (e : RoundEnv)
  | tun (pkt : Bytes) (heap : Nat → UInt8) (loglevel : Int) (fwd53 : Bool) (e : IpEnv)
  | downstream (i : Nat) (e : Event)

def loopStep (l : Loop) : LoopOp → Loop
  | .start rlimCur writeOk => l.start rlimCur writeOk
  | .round e => l.round e
  | .tun pkt heap loglevel fwd53 e => l.checkTun pkt heap loglevel fwd53 e
  | .downstream i e => l.downstream i e

end TunProxy.Native
