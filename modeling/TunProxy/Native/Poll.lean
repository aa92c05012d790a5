import TunProxy.Native.Loop

/-!
# How long the loop sleeps (`handle_events`)

The last argument of `epoll_wait`: until the first session may time out, or a moment where something is to be checked
again.
-/

namespace TunProxy.Native

def EPOLL_TIMEOUT : Int := 3600

/-- `time` and the timeout of the session. -/
def NgSession.ends (s : NgSession) (sessions maxsessions : Int) : Int :=
  match s with
  | .icmp s => s.time + getIcmpTimeout sessions maxsessions
  | .udp s => s.time + getUdpTimeout s sessions maxsessions
  | .tcp s => s.time + getTcpTimeout s sessions maxsessions

/-- `stimeout`: the `time_t` becomes an `int`. -/
def NgSession.stimeout (s : NgSession) (sessions maxsessions now : Int) : Int :=
  (BitVec.ofInt 32 (s.ends sessions maxsessions - now + 1)).toInt

/-- What `monitor_tcp_session` returns. -/
def tcpRecheck (s : TcpSession) (e : MonitorEnv) : Bool :=
  match s.state with
  | .established | .closeWait => getSendWindow s = 0 ∨ s.forward ≠ [] ∧ canForward s e.buf = false
  | _ => false

/-- `recheck` after the loop under "Count sessions". -/
def World.recheck (w : World) (e : Nat → MonitorEnv) : Bool :=
  let recheck (i : Nat) : NgSession → Bool
    | .tcp s => s.socket ≥ 0 ∧ tcpRecheck s (e i) = true
    | _ => false
  (w.sessions.mapIdx recheck).any id

/-- `timeout` after the loop under "Check sessions", which has checked these sessions and removes some. -/
def pollTimeout (stimeout : NgSession → Int) : (checked : List (NgSession × Bool)) → (timeout : Int) → Int
  | [], timeout => timeout
  | (s, del) :: rest, timeout =>
      if s.isActive = true ∧ del = false ∧ stimeout s > 0 ∧ stimeout s < timeout then
        pollTimeout stimeout rest (stimeout s)
      else pollTimeout stimeout rest timeout

/-- The sessions and the count that are checked in a round. -/
def Loop.counted (l : Loop) (e : RoundEnv) : Loop :=
  { l with sessions := l.world.active, world := l.world.monitor e.monitor }

/-- The milliseconds `epoll_wait` is called with. `now` is `time(NULL)` before the sessions are checked. -/
def Loop.wait (l : Loop) (e : RoundEnv) (now : Int) : Int :=
  let counted := l.counted e
  if e.ms - l.lastCheck > EPOLL_MIN_CHECK ∧ l.world.recheck e.monitor = false then
    let checked := counted.world.sessions.mapIdx fun i s => checkSession s (counted.checkEnv e i)
    pollTimeout (·.stimeout counted.sessions counted.maxsessions now) checked EPOLL_TIMEOUT * 1000
  else EPOLL_MIN_CHECK

end TunProxy.Native
