import TunProxy.Native.Session

/-!
# Opening sockets (`open_tcp_socket`, `open_udp_socket`, `open_icmp_socket` and `clear`)

For the handlers the descriptor of a new session is an answer of the environment. Here it is what these functions make
of the answers of the system, and the calls of a set-up that fails are kept although its session is freed.
-/

namespace TunProxy.Native

/-- `struct allowed`: the proxy. -/
structure Allowed where
  raddr : List Char
  rport : BitVec 16
  deriving DecidableEq, Repr

/-- The protocol families `PF_INET` and `PF_INET6`. -/
inductive Family
  | inet | inet6
  deriving DecidableEq, Repr

def family (version : Nat) : Family := if version = 4 then .inet else .inet6

/-- What a `sockaddr` is filled with: an address of the packet, or the text for `inet_pton`. -/
inductive Address
  | bytes (addr : Bytes)
  | text (raddr : List Char)
  deriving DecidableEq, Repr

/-- Where `connect` goes to. -/
structure Target where
  version : Nat
  address : Address
  port : BitVec 16
  deriving DecidableEq, Repr

/-- The proxy for the two ports of the web, else the destination of the packet. -/
def tcpTarget (version : Nat) (daddr : Bytes) (dest : BitVec 16) (redirect : Allowed) : Target :=
  if dest = 80 ∨ dest = 443 then
    { version := if ':' ∈ redirect.raddr then 6 else 4
      address := .text redirect.raddr
      port := redirect.rport }
  else { version, address := .bytes daddr, port := dest }

/-- What the system and the service answer while a socket is set up. -/
structure SetupEnv where
  redirect : Allowed
  socket : Family → Int
  isProtected : Bool
  getfl : Int
  setfl : Int
  connect : Target → Int
  /-- `errno` of `connect` is `EINPROGRESS`. -/
  inProgress : Bool

/-- `open_icmp_socket`: what it returns, and the descriptors it opens and closes. -/
def openIcmpSocket (version : Nat) (e : SetupEnv) : Int × List Io :=
  let sock := e.socket (family version)
  if sock < 0 then (-1, [])
  else if !e.isProtected then (-1, [.open sock])
  else (sock, [.open sock])

/-- `open_udp_socket`, called without a redirection. What `setsockopt` returns for a broadcast is only logged. -/
def openUdpSocket (version : Nat) (e : SetupEnv) : Int × List Io :=
  let sock := e.socket (family version)
  if sock < 0 then (-1, [])
  else if !e.isProtected then (-1, [.open sock])
  else (sock, [.open sock])

/-- `open_tcp_socket`. -/
def openTcpSocket (version : Nat) (daddr : Bytes) (dest : BitVec 16) (e : SetupEnv) : Int × List Io :=
  let target := tcpTarget version daddr dest e.redirect
  let sock := e.socket (family target.version)
  if sock < 0 then (-1, [])
  else if !e.isProtected then (-1, [.open sock])
  else if e.getfl < 0 ∨ e.setfl < 0 then (-1, [.open sock])
  else if e.connect target < 0 ∧ !e.inProgress then (-1, [.open sock])
  else (sock, [.open sock])

/-! ## The handlers with it -/

/-- Whether the lookup of a handler finds the session. -/
def NgOp.owns : NgOp → NgSession → Bool
  | .icmp p _, .icmp s => p.belongs s
  | .udp p _, .udp s => p.belongs s
  | .tcp p _, .tcp s => p.belongs s
  | _, _ => false

/-- Whether the handler gets as far as opening a socket. -/
def World.opens (w : World) (op : NgOp) : Bool :=
  !w.sessions.any op.owns &&
    match op with
    | .icmp p _ => p.isEcho
    | .udp _ _ => true
    | .tcp p e =>
        !p.urg && p.syn && (decodeOptions (memAt (p.options ++ p.data) e.heap) (p.options.length + 1) p.options.length 0
          (getDefaultMss p.version) 0).isSome
    | _ => false

def openSocket (e : SetupEnv) : NgOp → Int × List Io
  | .icmp p _ => openIcmpSocket p.version e
  | .udp p _ => openUdpSocket p.version e
  | .tcp p _ => openTcpSocket p.version p.daddr p.dest e
  | _ => (-1, [])

/-- The packet, where opening a socket returns `fd`. -/
def NgOp.withSocket (fd : Int) : NgOp → NgOp
  | .icmp p e => .icmp p { e with socket := fd }
  | .udp p e => .udp p { e with socket := fd }
  | .tcp p e => .tcp p { e with socket := fd }
  | op => op

/-- `close` in `clear`; the session is freed after that. -/
def NgSession.clear (s : NgSession) : NgSession :=
  if s.socket < 0 then s
  else
    match s with
    | .icmp s => .icmp { s with socket := -1, io := s.io ++ [.close s.socket] }
    | .udp s => .udp { s with socket := -1, io := s.io ++ [.close s.socket] }
    | .tcp s => .tcp { s with socket := -1, io := s.io ++ [.close s.socket] }

/-- The sessions, and the calls made for sessions that were never registered. -/
structure Process where
  world : World
  failed : List Io

def Process.init : Process := { world := .init, failed := [] }

inductive ProcOp
  | loop (op : NgOp) (e : SetupEnv)
  | clear

def procStep (s : Process) : ProcOp → Process
  | .loop op e =>
      if s.world.opens op then
        let (fd, io) := openSocket e op
        { world := ngStep s.world (op.withSocket fd), failed := if fd < 0 then s.failed ++ io else s.failed }
      else { s with world := ngStep s.world op }
  | .clear =>
      { s with
        world := { s.world with sessions := [], freed := s.world.freed ++ s.world.sessions.map NgSession.clear } }

end TunProxy.Native
