import TunProxy.Native.Icmp
import TunProxy.Native.Tcp.Step
import TunProxy.Native.Udp

/-!
# The list of sessions (`session.c`)

The event loop `handle_events` gives packets of the tun and events of the sockets to the handlers, and checks all
sessions between two polls.
-/

namespace TunProxy.Native

/-- `struct ng_session`: the union by `protocol`. -/
inductive NgSession
  | icmp (s : IcmpSession)
  | udp (s : UdpSession)
  | tcp (s : TcpSession)
  deriving DecidableEq, Repr

def NgSession.socket : NgSession → Int
  | .icmp s => s.socket
  | .udp s => s.socket
  | .tcp s => s.socket

/-- The calls made for the session. -/
def NgSession.io : NgSession → List Io
  | .icmp s => s.io
  | .udp s => s.io
  | .tcp s => s.io

/-- The list `ng_session`, the sessions freed so far, and the calls made for no session. -/
structure World where
  sessions : List NgSession
  freed : List NgSession
  io : List Io

/-- The world at `init`. -/
def World.init : World := { sessions := [], freed := [], io := [] }

/-! ## Packets -/

/-- The search for a session, and what the handler does to the first one found. -/
def updateFirst (handle : NgSession → Option NgSession) : List NgSession → Option (List NgSession)
  | [] => none
  | s :: rest =>
      match handle s with
      | some s' => some (s' :: rest)
      | none => (updateFirst handle rest).map (s :: ·)

/-- `handle_icmp`. -/
def World.handleIcmp (w : World) (p : IcmpPkt) (e : IcmpEnv) : World :=
  if p.isEcho then
    let handle : NgSession → Option NgSession
      | .icmp s => if p.belongs s then some (.icmp (Native.handleIcmp s p e)) else none
      | _ => none
    match updateFirst handle w.sessions with
    | some sessions => { w with sessions }
    | none =>
        match handleIcmpNew p e with
        | some s => { w with sessions := .icmp (Native.handleIcmp s p e) :: w.sessions }
        | none => w
  else w

/-- `handle_udp`. -/
def World.handleUdp (w : World) (p : UdpPkt) (e : UdpEnv) : World :=
  let handle : NgSession → Option NgSession
    | .udp s => if p.belongs s then some (.udp (Native.handleUdp s p e)) else none
    | _ => none
  match updateFirst handle w.sessions with
  | some sessions => { w with sessions }
  | none =>
      match handleUdpNew p e with
      | some s => { w with sessions := .udp (Native.handleUdp s p e) :: w.sessions }
      | none => w

/-- `handle_tcp`. A packet of no session is answered with RST unless it is a SYN. -/
def World.handleTcp (w : World) (p : TcpPkt) (e : HandleEnv) : World :=
  let handle : NgSession → Option NgSession
    | .tcp s => if p.belongs s then some (.tcp (tcpStep s (.packet p e))) else none
    | _ => none
  match updateFirst handle w.sessions with
  | some sessions => { w with sessions }
  | none =>
      match handleTcpNew p e with
      | some s => { w with sessions := .tcp s :: w.sessions }
      | none => if p.urg ∨ p.syn then w else { w with io := w.io ++ [.tun (unknownRst p) e.writeOk] }

/-! ## Events -/

/-- An event of a socket, and what the environment answers. -/
inductive Event
  | datagram (e : DatagramEnv)
  | tcp (e : SocketEnv)

/-- `check_icmp_socket`, `check_udp_socket` or `check_tcp_socket`. The socket has events only while it is open. -/
def checkSocket (s : NgSession) (e : Event) : NgSession :=
  if s.socket < 0 then s
  else
    match s, e with
    | .icmp s, .datagram e => .icmp (checkIcmpSocket s e)
    | .udp s, .datagram e => .udp (checkUdpSocket s e)
    | .tcp s, .tcp e => .tcp (tcpStep s (.socket e))
    | s, _ => s

/-- The session with the number `i` has an event. -/
def World.event (w : World) (i : Nat) (e : Event) : World :=
  { w with sessions := w.sessions.modify i (checkSocket · e) }

/-! ## The loop of `handle_events` -/

/-- The loop under "Count sessions": `monitor_tcp_session` for each TCP session with an open socket. -/
def World.monitor (w : World) (e : Nat → MonitorEnv) : World :=
  let monitor (i : Nat) : NgSession → NgSession
    | .tcp s => .tcp (tcpStep s (.monitor (e i)))
    | s => s
  { w with sessions := w.sessions.mapIdx monitor }

/-- `check_icmp_session`, `check_udp_session` or `check_tcp_session`. -/
def checkSession (s : NgSession) (e : CheckEnv) : NgSession × Bool :=
  match s with
  | .icmp s => (.icmp (checkIcmpSession s e).1, (checkIcmpSession s e).2)
  | .udp s => (.udp (checkUdpSession s e).1, (checkUdpSession s e).2)
  | .tcp s => (.tcp (checkTcpSession s e).1, (checkTcpSession s e).2)

/-- What `check_allowed` does to a session, and whether it is removed. -/
def stopSession (s : NgSession) (writeOk : Bool) : NgSession × Bool :=
  match s with
  | .icmp s => (.icmp (stopIcmp s), false)
  | .udp s => (.udp (stopUdp s).1, (stopUdp s).2)
  | .tcp s => (.tcp (tcpStep s (.stop writeOk)), false)

/-- The loops that go through the list and unlink sessions. `passed` is the list up to the pointer `sl`, to which the
rest is linked when a session is removed. The second result are the sessions freed. -/
def unlink (check : Nat → NgSession → NgSession × Bool) : (i : Nat) → (passed : List NgSession) → List NgSession →
    List NgSession × List NgSession
  | _, passed, [] => (passed, [])
  | i, passed, s :: rest =>
      let (s, del) := check i s
      if del then
        let (sessions, freed) := unlink check (i + 1) passed rest
        (sessions, s :: freed)
      else unlink check (i + 1) (passed ++ [s]) rest

/-- The loop under "Check sessions". -/
def World.sweep (w : World) (e : Nat → CheckEnv) : World :=
  let (sessions, freed) := unlink (fun i s => checkSession s (e i)) 0 [] w.sessions
  { w with sessions, freed := w.freed ++ freed }

/-- `check_allowed`. -/
def World.checkAllowed (w : World) (writeOk : Nat → Bool) : World :=
  let (sessions, freed) := unlink (fun i s => stopSession s (writeOk i)) 0 [] w.sessions
  { w with sessions, freed := w.freed ++ freed }

/-! ## One step -/

inductive NgOp
  | icmp (p : IcmpPkt) (e : IcmpEnv)
  | udp (p : UdpPkt) (e : UdpEnv)
  | tcp (p : TcpPkt) (e : HandleEnv)
  | block (p : UdpPkt) (now : Int) (memory : UdpSession)
  | event (i : Nat) (e : Event)
  | monitor (e : Nat → MonitorEnv)
  | sweep (e : Nat → CheckEnv)
  | allowed (writeOk : Nat → Bool)

def ngStep (w : World) : NgOp → World
  | .icmp p e => w.handleIcmp p e
  | .udp p e => w.handleUdp p e
  | .tcp p e => w.handleTcp p e
  | .block p now memory => { w with sessions := .udp (blockUdp p now memory) :: w.sessions }
  | .event i e => w.event i e
  | .monitor e => w.monitor e
  | .sweep e => w.sweep e
  | .allowed writeOk => w.checkAllowed writeOk

end TunProxy.Native
