import TunProxy.Lib.Throws
import TunProxy.Native.Http
import TunProxy.Relay.Buffer

/-!
# Tunnels (`Tunnel.java`, `RawTunnel.java`, `HttpConnectTunnel.java`)

A pair of brother tunnels, the keys of their channels, and the callbacks of the selector loop.
-/

namespace TunProxy.Relay

open Lib
open Native (Bytes ascii)

/-- The two tunnels of a connection: `localTunnel` and `remoteTunnel` of `onAccepted`. -/
inductive Side
  | localTunnel | remoteTunnel
  deriving DecidableEq, Repr

/-- `m_BrotherTunnel`. -/
def Side.brother : Side → Side
  | .localTunnel => .remoteTunnel
  | .remoteTunnel => .localTunnel

/-- The interest sets that are registered. Each holds one operation. -/
inductive Ops
  | connect | read | write
  deriving DecidableEq, Repr

/-- The `SelectionKey` of a channel. A cancelled key stays until the next `select`. -/
inductive Key
  | absent
  | valid (interest : Ops)
  | cancelled
  deriving DecidableEq, Repr

/-- `key.isValid()`. -/
def Key.isValid : Key → Bool
  | .valid _ => true
  | _ => false

/-- `key.cancel()`. -/
def Key.cancel : Key → Key
  | .valid _ => .cancelled
  | key => key

/-- The class of a tunnel; `established` is `m_TunnelEstablished`. -/
inductive Kind
  | raw
  | httpConnect (established : Bool)
  deriving DecidableEq, Repr

/-- A tunnel with its channel. The last three fields record what was done: the CONNECT request of the tunnel, what was
read from the channel while the tunnel was established, and all that was written to it. -/
structure Tunnel where
  kind : Kind
  key : Key
  /-- `m_SendRemainBuffer`. -/
  remain : Option ByteBuffer
  disposed : Bool
  request : Bytes
  received : Bytes
  written : Bytes
  deriving DecidableEq, Repr

def Tunnel.isTunnelEstablished (u : Tunnel) : Bool :=
  match u.kind with
  | .raw => true
  | .httpConnect established => established

/-- The two tunnels, `GL_BUFFER`, and the selected keys that are still to be handled, each with its ready set. -/
structure Pair where
  tunnel : Side → Tunnel
  buffer : ByteBuffer
  selected : List (Side × Ops)

def Pair.update (w : Pair) (t : Side) (f : Tunnel → Tunnel) : Pair :=
  { w with tunnel := Function.update w.tunnel t (f (w.tunnel t)) }

/-- The methods. They throw into the `try` block of the callback. -/
abbrev Method := EStateM Unit Pair

/-- `String.format` arguments of the CONNECT request. -/
structure ConnectArgs where
  hostName : Bytes
  port : Nat
  userAgent : Bytes
  appInstallID : Bytes

/-- What `read` of a channel returns. -/
inductive ReadResult
  | fail
  | eof
  | got (bytes : Bytes)

/-- What the environment answers during one callback. -/
structure CallbackEnv where
  /-- `finishConnect`: none where it throws. -/
  finishConnect : Option Bool := some true
  connect : ConnectArgs := ⟨[], 0, [], []⟩
  read : ReadResult := .got []
  /-- `isIsolateHttpHostHeader`. -/
  isolate : Bool := false
  /-- What `write` of the channel returns, for the part of the header and for the rest: none where it throws. At the end
  of the list it returns 0. -/
  header : List (Option Nat) := []
  writes : List (Option Nat) := []

/-! ## `Tunnel` -/

/-- `m_InnerChannel.register`. It throws for a cancelled key. -/
def register (t : Side) (ops : Ops) : Method Unit := do
  let w ← get
  if (w.tunnel t).key = .cancelled then throw ()
  else modify (·.update t fun u => { u with key := .valid ops })

def beginReceive (t : Side) : Method Unit := register t .read

def cancel (t : Side) : Method Unit := modify (·.update t fun u => { u with key := u.key.cancel })

/-- The loop of `write`. -/
def writeLoop (t : Side) : (returns : List (Option Nat)) → (buffer : ByteBuffer) → Method ByteBuffer
  | [], buffer => pure buffer
  | bytesSent :: returns, buffer =>
      if buffer.hasRemaining then
        match bytesSent with
        | none => throw ()
        | some n =>
            if n = 0 then pure buffer
            else do
              modify (·.update t fun u => { u with written := u.written ++ buffer.rest.take n })
              writeLoop t returns (buffer.advance n)
      else pure buffer

/-- `m_SendRemainBuffer` after the rest of `buffer` was copied: none where `put` throws. -/
def copyRemain (remain : Option ByteBuffer) (buffer : ByteBuffer) : Option ByteBuffer :=
  ((remain.getD (.allocate buffer.capacity)).clear.put buffer.rest).map (·.flip)

/-- `write`: the buffer, and whether all of it was written. -/
def write (t : Side) (buffer : ByteBuffer) (copyRemainData : Bool) (returns : List (Option Nat)) :
    Method (ByteBuffer × Bool) := do
  let buffer ← writeLoop t returns buffer
  if buffer.hasRemaining then
    if copyRemainData then
      let w ← get
      match copyRemain (w.tunnel t).remain buffer with
      | none => throw ()
      | some remain =>
          modify (·.update t fun u => { u with remain := some remain })
          register t .write
          pure (buffer.advance buffer.remaining, false)
    else pure (buffer, false)
  else pure (buffer, true)

def onTunnelEstablished (t : Side) : Method Unit := do
  beginReceive t
  beginReceive t.brother

/-- `disposeInternal` without the brother. -/
def Tunnel.disposeInternal (u : Tunnel) : Tunnel :=
  if u.disposed then u else { u with key := u.key.cancel, remain := none, disposed := true }

/-- `dispose`. -/
def Pair.dispose (w : Pair) (t : Side) : Pair :=
  if (w.tunnel t).disposed then w
  else (w.update t.brother Tunnel.disposeInternal).update t Tunnel.disposeInternal

/-! ## `HttpConnectTunnel` -/

/-- The text of the CONNECT request. -/
def connectRequest (c : ConnectArgs) : Bytes :=
  ascii "CONNECT " ++ c.hostName ++ ascii ":" ++ ascii (toString c.port) ++
    ascii " HTTP/1.0\r\nProxy-Connection: keep-alive\r\nUser-Agent: " ++ c.userAgent ++
    ascii "\r\nX-App-Install-ID: " ++ c.appInstallID ++ ascii "\r\n\r\n"

/-- One of two letters. -/
def isLetter (upper lower : UInt8) (rest : Bytes) : Option Bytes :=
  match rest with
  | c :: rest => if c = upper ∨ c = lower then some rest else none
  | [] => none

/-- Whether the bytes, decoded as UTF-8 and in upper case, begin with `GET /` or `POST /`. The long s has the upper case
S, and the two ligatures of s and t have ST. -/
def isRequest (bytes : Bytes) : Bool :=
  let afterST (rest : Bytes) : Option Bytes :=
    match rest with
    | 0xC5 :: 0xBF :: rest => isLetter 0x54 0x74 rest
    | 0xEF :: 0xAC :: 0x85 :: rest | 0xEF :: 0xAC :: 0x86 :: rest => some rest
    | rest => isLetter 0x53 0x73 rest >>= isLetter 0x54 0x74
  let get := isLetter 0x47 0x67 bytes >>= isLetter 0x45 0x65 >>= isLetter 0x54 0x74
  let post := isLetter 0x50 0x70 bytes >>= isLetter 0x4F 0x6F >>= afterST
  let found (rest : Option Bytes) : Bool := (rest.map (·.take 2)) = some [0x20, 0x2F]
  found get || found post

/-- `trySendPartOfHeader`. -/
def trySendPartOfHeader (t : Side) (buffer : ByteBuffer) (returns : List (Option Nat)) : Method ByteBuffer :=
  if buffer.remaining > 10 ∧ isRequest (buffer.rest.take 10) = true then
    match buffer.setLimit (buffer.position + 10) with
    | none => throw ()
    | some part => do
        let (part, _) ← write t part false returns
        match part.setLimit buffer.limit with
        | none => throw ()
        | some buffer => pure buffer
  else pure buffer

/-- Whether the twelve bytes match `^HTTP/1.[01] 200$`. The dot matches any character but the ends of lines; a byte over
127 is a character of its own here. -/
def isResponse (response : Bytes) : Bool :=
  response.take 6 = ascii "HTTP/1" ∧ response.getD 6 0x0A ≠ 0x0A ∧ response.getD 6 0x0D ≠ 0x0D ∧
    (response.getD 7 0 = 0x30 ∨ response.getD 7 0 = 0x31) ∧ response.drop 8 = ascii " 200"

/-! ## The methods that the classes override -/

/-- `onConnected`. -/
def onConnected (t : Side) (e : CallbackEnv) : Method Unit := do
  let w ← get
  match (w.tunnel t).kind with
  | .raw => onTunnelEstablished t
  | .httpConnect _ =>
      let request := connectRequest e.connect
      match w.buffer.clear.put request with
      | none => throw ()
      | some buffer =>
          modify fun w => { w.update t fun u => { u with request } with buffer }
          let (_, sent) ← write t buffer.flip true e.writes
          if sent then beginReceive t else pure ()

/-- `beforeSend`. -/
def beforeSend (t : Side) (buffer : ByteBuffer) (e : CallbackEnv) : Method ByteBuffer := do
  let w ← get
  match (w.tunnel t).kind with
  | .raw => pure buffer
  | .httpConnect _ => if e.isolate then trySendPartOfHeader t buffer e.header else pure buffer

/-- `afterReceived`. -/
def afterReceived (t : Side) (buffer : ByteBuffer) : Method ByteBuffer := do
  let w ← get
  match (w.tunnel t).kind with
  | .raw => pure buffer
  | .httpConnect true => pure buffer
  | .httpConnect false =>
      -- the bytes of the array, however many of them were read
      let response := (buffer.array.drop buffer.position).take 12
      if isResponse response then
        match buffer.setLimit buffer.position with
        | none => throw ()
        | some buffer =>
            modify (·.update t fun u => { u with kind := .httpConnect true })
            onTunnelEstablished t
            pure buffer
      else throw ()

/-! ## The callbacks

Each is the method named after it, within a `try` block that disposes the pair. -/

def connectable (t : Side) (e : CallbackEnv) : Method Unit := do
  match e.finishConnect with
  | none => throw ()
  | some true => onConnected t e
  | some false => modify (·.dispose t)

/-- `onConnectable`. -/
def onConnectable (t : Side) (e : CallbackEnv) : Pair → Pair :=
  attempt (connectable t e) (·.dispose t)

/-- What `onReadable` does with the bytes that were read. -/
def forward (t : Side) (buffer : ByteBuffer) (e : CallbackEnv) : Method Unit := do
  let buffer ← afterReceived t buffer
  let w ← get
  if (w.tunnel t).isTunnelEstablished ∧ buffer.hasRemaining then
    let buffer ← beforeSend t.brother buffer e
    let (_, sent) ← write t.brother buffer true e.writes
    if sent then pure () else cancel t
  else pure ()

def Tunnel.receive (u : Tunnel) (bytes : Bytes) : Tunnel :=
  if u.isTunnelEstablished then { u with received := u.received ++ bytes } else u

def readable (t : Side) (e : CallbackEnv) : Method Unit := do
  match e.read with
  | .fail => throw ()
  | .eof => modify (·.dispose t)
  | .got bytes =>
      let w ← get
      let bytes := bytes.take w.buffer.clear.remaining
      match w.buffer.clear.put bytes with
      | none => throw ()
      | some buffer =>
          modify fun w => { w.update t (·.receive bytes) with buffer }
          if bytes.length > 0 then forward t buffer.flip e else pure ()

/-- `onReadable`. -/
def onReadable (t : Side) (e : CallbackEnv) : Pair → Pair :=
  attempt (readable t e) (·.dispose t)

def writable (t : Side) (e : CallbackEnv) : Method Unit := do
  let w ← get
  match (w.tunnel t).remain with
  | none => throw ()
  | some buffer =>
      let buffer ← beforeSend t buffer e
      let (buffer, sent) ← write t buffer false e.writes
      modify (·.update t fun u => { u with remain := some buffer })
      if sent then
        cancel t
        let w ← get
        if (w.tunnel t).isTunnelEstablished then beginReceive t.brother else beginReceive t
      else pure ()

/-- `onWritable`. -/
def onWritable (t : Side) (e : CallbackEnv) : Pair → Pair :=
  attempt (writable t e) (·.dispose t)

/-! ## The loop of `TcpProxyServer.run` -/

/-- `select`: the cancelled keys are gone, and of the valid ones those of `ready` are selected, each ready for what it
is registered for. -/
def Pair.select (w : Pair) (ready : List Side) : Pair :=
  let deregister (u : Tunnel) : Tunnel := if u.key = .cancelled then { u with key := .absent } else u
  let select (t : Side) : Option (Side × Ops) :=
    match (w.tunnel t).key with
    | .valid ops => some (t, ops)
    | _ => none
  { w with tunnel := fun t => deregister (w.tunnel t), selected := ready.dedup.filterMap select }

/-- The next selected key. The ready set is that of `select`. -/
def Pair.dispatch (w : Pair) (e : CallbackEnv) : Pair :=
  match w.selected with
  | [] => w
  | (t, ready) :: selected =>
      let w := { w with selected }
      if (w.tunnel t).key.isValid then
        match ready with
        | .read => onReadable t e w
        | .write => onWritable t e w
        | .connect => onConnectable t e w
      else w

/-- What happens to a pair: `select`, the next callback, or a callback of other tunnels, which leaves bytes in
`GL_BUFFER`. -/
inductive Op
  | select (ready : List Side)
  | callback (e : CallbackEnv)
  | others (bytes : Bytes)

def step (w : Pair) : Op → Pair
  | .select ready => if w.selected = [] then w.select ready else w
  | .callback e => w.dispatch e
  | .others bytes => { w with buffer := (w.buffer.clear.put bytes).getD w.buffer }

/-- The pair of `onAccepted`, when the remote tunnel connects. `array` are the bytes of `GL_BUFFER`. -/
def accepted (kind : Kind) (array : Bytes) : Pair :=
  let tunnel (kind : Kind) (key : Key) : Tunnel :=
    { kind, key, remain := none, disposed := false, request := [], received := [], written := [] }
  { tunnel := fun t =>
      match t with
      | .localTunnel => tunnel .raw .absent
      | .remoteTunnel => tunnel kind (.valid .connect)
    buffer := { array, position := 0, limit := array.length, position_le := by omega, limit_le := by omega }
    selected := [] }

end TunProxy.Relay
