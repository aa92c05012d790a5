import TunProxy.Native.Util

/-!
# Packets for the client (`write_tcp` and its callers)

Each function takes `ok`, whether `write` wrote the whole packet. The callers return 0 exactly when it did.
-/

namespace TunProxy.Native

/-- `get_default_mss`: the MTU without the IP header and the TCP header. -/
def getDefaultMss (version : Nat) : Nat := if version = 4 then MTU - 20 - 20 else MTU - 40 - 20

/-- The bytes of a `uint16_t` in memory, on a little-endian machine. -/
def u16Bytes (n : Nat) : Bytes := [UInt8.ofNat n, UInt8.ofNat (n / 256)]

/-- The options of a SYN: the MSS and the window scale, with the end and padding byte. -/
def synOptions (s : TcpSession) : Bytes :=
  [2, 4] ++ u16Bytes (getDefaultMss s.version) ++ [3, 3, UInt8.ofNat s.recvScale, 0]

/-- The packet `write_tcp` builds. -/
def tunPacket (s : TcpSession) (data : Bytes) (syn ack fin rst : Bool) : TunPacket :=
  { seq := s.localSeq
    ackSeq := if ack then s.remoteSeq else 0
    syn, ack, fin, rst
    window := (s.recvWindow >>> s.recvScale).setWidth 16
    options := if syn then synOptions s else []
    data }

/-- `write_tcp`. -/
def writeTcp (s : TcpSession) (data : Bytes) (syn ack fin rst ok : Bool) : TcpSession :=
  { s with io := s.io ++ [.tun (tunPacket s data syn ack fin rst) ok] }

/-- The packets other than RST: the session is closing when the packet could not be written. -/
def writeOrClose (s : TcpSession) (data : Bytes) (syn fin ok : Bool) : TcpSession :=
  let s := writeTcp s data syn true fin false ok
  if ok then s else { s with state := .closing }

/-- `write_syn_ack`. -/
def writeSynAck (s : TcpSession) (ok : Bool) : TcpSession := writeOrClose s [] true false ok

/-- `write_ack`. -/
def writeAck (s : TcpSession) (ok : Bool) : TcpSession := writeOrClose s [] false false ok

/-- `write_data`. -/
def writeData (s : TcpSession) (data : Bytes) (ok : Bool) : TcpSession := writeOrClose s data false false ok

/-- `write_fin_ack`. -/
def writeFinAck (s : TcpSession) (ok : Bool) : TcpSession := writeOrClose s [] false true ok

/-- `write_rst`. Only a session in `TCP_LISTEN` acknowledges: the SYN it has not answered. -/
def writeRst (s : TcpSession) (ok : Bool) : TcpSession :=
  let ack := decide (s.state = .listen)
  let s := if s.state = .listen then { s with remoteSeq := s.remoteSeq + 1 } else s
  let s := writeTcp s [] false ack false true ok
  if s.state ≠ .close then { s with state := .closing } else s

/-! ## What they change -/

variable {s : TcpSession} {data : Bytes} {syn fin ok : Bool}

/-- The state after a packet was to be written. -/
def orClosing (ok : Bool) (state : TcpState) : TcpState := if ok then state else .closing

/-- Only `state` and the calls made change. -/
theorem writeOrClose_eq : writeOrClose s data syn fin ok =
    { s with
      state := orClosing ok s.state
      io := s.io ++ [.tun (tunPacket s data syn true fin false) ok] } := by
  cases ok <;> rfl

/-- `remoteSeq` once a reset counted the SYN. -/
def rstSeq (s : TcpSession) : U32 := if s.state = .listen then s.remoteSeq + 1 else s.remoteSeq

/-- Only `state`, `remoteSeq` and the calls made change. -/
theorem writeRst_eq : writeRst s ok =
    { s with
      state := if s.state = .close then .close else .closing
      remoteSeq := rstSeq s
      io := s.io ++ [.tun (tunPacket { s with remoteSeq := rstSeq s } [] false (decide (s.state = .listen)) false
        true) ok] } := by
  unfold writeRst rstSeq
  cases h : s.state <;> simp [writeTcp, h] <;> rfl

theorem writeRst_of_ne (hl : s.state ≠ .listen) (hc : s.state ≠ .close) : writeRst s ok =
    { s with
      state := .closing
      io := s.io ++ [.tun (tunPacket s [] false false false true) ok] } := by
  simp [writeRst_eq, rstSeq, hl, hc]

end TunProxy.Native
