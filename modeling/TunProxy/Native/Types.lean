import Mathlib.Algebra.Group.Int.Defs
import Mathlib.Algebra.Group.Nat.Defs
import Mathlib.Data.List.Basic

/-!
# Data of the native side

The structures of `tun2http.h` that TCP handling reads and writes. Numbers the source keeps in network
notation are in host notation here. Addresses are the bytes of the unions `saddr` and `daddr`
(4 for IPv4, 16 for IPv6).
-/

namespace TunProxy.Native

/-- `uint32_t`: sequence numbers and windows. -/
abbrev U32 := BitVec 32

abbrev Bytes := List UInt8

/-! ## Constants -/

def EPOLL_MIN_CHECK : Int := 100
def ICMP_TIMEOUT : Int := 15
def UDP_TIMEOUT_53 : Int := 15
def UDP_TIMEOUT_ANY : Int := 300
def UDP_KEEP_TIMEOUT : Int := 60
def TCP_INIT_TIMEOUT : Int := 30
def TCP_IDLE_TIMEOUT : Int := 3600
def TCP_CLOSE_TIMEOUT : Int := 30
def TCP_KEEP_TIMEOUT : Int := 300
def MTU : Nat := 10000

/-- The values the code gives to the field `state`. -/
inductive TcpState
  | listen | synRecv | established | finWait1 | closeWait | lastAck | closing | close
  deriving DecidableEq, Repr

/-- `TCP_CONNECT_NOT_SENT`, `TCP_CONNECT_SENT` and `TCP_CONNECT_ESTABLISHED`. -/
inductive ConnectState
  | notSent | sent | established
  deriving DecidableEq, Repr

/-- `errno`, as far as the code tells its values apart. -/
inductive Errno
  | eintr | eagain | other
  deriving DecidableEq, Repr

/-- The mask of an `epoll_event`. -/
structure Epoll where
  err : Bool
  inp : Bool
  out : Bool
  deriving DecidableEq, Repr

/-! ## Packets -/

/-- A TCP packet of the client as `handle_tcp` sees it: addresses, header, the `tcpoptlen` bytes of options
and the payload, whose length the code keeps in a `uint16_t`. -/
structure TcpPkt where
  version : Nat
  saddr : Bytes
  daddr : Bytes
  source : BitVec 16
  dest : BitVec 16
  seq : U32
  ackSeq : U32
  urg : Bool
  ack : Bool
  psh : Bool
  rst : Bool
  syn : Bool
  fin : Bool
  window : BitVec 16
  options : Bytes
  data : Bytes
  data_lt : data.length < 2 ^ 16 := by decide

/-- What `write_tcp` puts into a packet for the client beside the addresses and checksums. -/
structure TunPacket where
  seq : U32
  ackSeq : U32
  syn : Bool
  ack : Bool
  fin : Bool
  rst : Bool
  window : BitVec 16
  options : Bytes
  data : Bytes
  deriving DecidableEq, Repr

/-! ## System calls -/

/-- A call made for a session, with its outcome. -/
inductive Io
  /-- `send` of the CONNECT request and its return value. -/
  | connect (request : Bytes) (ret : Int)
  /-- `send` of queued data: the bytes offered and the return value. -/
  | send (data : Bytes) (ret : Int)
  /-- `recv` of the proxy's answer in `TCP_LISTEN`. -/
  | reply (bytes : Bytes)
  /-- `recv` of data for the client. -/
  | recv (bytes : Bytes)
  /-- `write` of a TCP packet to the tun, and whether all of it was written. -/
  | tun (packet : TunPacket) (ok : Bool)
  /-- `sendto` of a datagram, and its return value. -/
  | sendto (data : Bytes) (ret : Int)
  /-- `write` of a datagram's payload to the tun by `write_udp` or `write_icmp`. -/
  | datagram (data : Bytes) (ok : Bool)
  | open (fd : Int)
  | close (fd : Int)
  /-- The process dies: a `memcpy` with a negative length. -/
  | fault
  /-- `get_qname` goes round in a circle for ever. -/
  | hang
  /-- A write at `pos` from the start of a block of `size` bytes, behind its end. Whatever lies there is changed. -/
  | overrun (size pos : Nat) (bytes : Bytes)
  deriving DecidableEq, Repr

/-- Whether the call is a write behind the end of a block. -/
def Io.leavesBlock : Io → Bool
  | .overrun _ _ _ => true
  | _ => false

/-- What `recv` returns: -1 and `errno`, or a number of bytes, none at the end of the stream. -/
inductive RecvResult
  | fail (errno : Errno)
  | got (bytes : Bytes)
  deriving DecidableEq, Repr

/-- What `send` returns: -1 and `errno`, or a number of bytes. -/
structure SendResult where
  ret : Int
  errno : Errno
  ret_ge : -1 ≤ ret := by decide
  ret_lt : ret < 2 ^ 63 := by decide
  deriving DecidableEq, Repr

/-- The outcome where a test does not say another one: nothing could be sent yet. -/
def SendResult.eagain : SendResult := { ret := -1, errno := .eagain }

/-! ## Sessions -/

/-- `struct segment`. `len` and `sent` are `uint16_t`; the block `data` is at least `len` bytes long. -/
structure Segment where
  seq : U32
  len : Nat
  sent : Nat
  psh : Bool
  data : Bytes
  len_lt : len < 2 ^ 16 := by decide
  sent_le : sent ≤ len := by decide
  len_le : len ≤ data.length := by decide
  deriving DecidableEq, Repr

/-- `struct tcp_session`, with the fields `socket` and `ev.events` of its `ng_session`. `io` is the list of
the calls made for the session so far, the oldest first. -/
structure TcpSession where
  time : Int
  version : Nat
  mss : Nat
  recvScale : Nat
  sendScale : Nat
  recvWindow : U32
  sendWindow : U32
  remoteSeq : U32
  localSeq : U32
  remoteStart : U32
  localStart : U32
  acked : U32
  lastKeepAlive : Int
  sent : Nat
  received : Nat
  saddr : Bytes
  source : BitVec 16
  daddr : Bytes
  dest : BitVec 16
  state : TcpState
  forward : List Segment
  hostname : Bytes
  connectSent : ConnectState
  socket : Int
  events : Epoll
  io : List Io
  deriving DecidableEq, Repr

/-- What the environment answers during a check of a session in `handle_events`. -/
structure CheckEnv where
  now : Int := 0
  sessions : Int := 0
  maxsessions : Int := 1
  writeOk : Bool := true

/-- An event of the socket of a UDP or ICMP session, and what the environment answers. -/
structure DatagramEnv where
  ev : Epoll
  now : Int := 0
  recv : RecvResult := .fail .eagain
  writeOk : Bool := true
  /-- What is in memory behind the bytes received. -/
  behind : Nat → UInt8 := fun _ => 0

end TunProxy.Native
