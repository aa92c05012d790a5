import TunProxy.Relay.Tunnel

/-!
# The tunnels of the server (`TcpProxyServer.java`, `TunnelFactory.java`)

All the tunnels that were constructed, as objects that refer to each other. Here a reference can be null, every call of
a channel can fail, and the callbacks come in any order.
-/

namespace TunProxy.Relay.Objects

open Lib
open Native (Bytes)

/-- A reference to a tunnel: its place among those that were constructed. -/
abbrev Ref := Nat

/-- What the environment answers to a call: it throws, or it returns. Each call reads the field of what it returns. -/
structure Answer where
  throws : Bool := false
  /-- `finishConnect`, `protect`. -/
  flag : Bool := true
  /-- `write`. -/
  count : Nat := 0
  /-- `read`: none at the end of the stream. -/
  bytes : Option Bytes := some []

structure Channel where
  blocking : Bool
  key : Key
  written : Bytes
  deriving DecidableEq, Repr

structure InetSocketAddress where
  hostName : Bytes
  port : Nat
  unresolved : Bool
  deriving DecidableEq, Repr

/-- `none` is the null reference. `disposals` counts the calls of `onDispose`. -/
structure Tunnel where
  kind : Kind
  innerChannel : Option Channel
  remain : Option ByteBuffer := none
  brother : Option Ref := none
  disposed : Bool := false
  destAddress : Option InetSocketAddress := none
  disposals : Nat := 0
  deriving DecidableEq, Repr

def Tunnel.isTunnelEstablished (u : Tunnel) : Bool :=
  match u.kind with
  | .raw => true
  | .httpConnect established => established

/-- `paired` are the arguments of all calls of `setBrotherTunnel`. `answers` are those to the calls to come. -/
structure Heap where
  tunnels : List Tunnel
  sessionCount : Int
  buffer : ByteBuffer
  paired : List (Ref × Ref)
  answers : List Answer

abbrev Method := EStateM Unit Heap

def this (t : Ref) : Method Tunnel := do
  match (← get).tunnels[t]? with
  | none => throw ()
  | some u => return u

def update (t : Ref) (f : Tunnel → Tunnel) : Method Unit := modify fun s => { s with tunnels := s.tunnels.modify t f }

/-- The answer to the next call. -/
def call : Method Answer := do
  match (← get).answers with
  | [] => throw ()
  | answer :: answers =>
      modify fun s => { s with answers }
      if answer.throws then throw () else return answer

/-- A reference that must not be null. -/
def deref {α : Type} : Option α → Method α
  | none => throw ()
  | some x => return x

def innerChannel (t : Ref) : Method Channel := do deref (← this t).innerChannel

def updateChannel (t : Ref) (f : Channel → Channel) : Method Unit :=
  update t fun u => { u with innerChannel := u.innerChannel.map f }

/-! ## `Tunnel` -/

/-- The constructors, which count the tunnel last. -/
def construct (kind : Kind) (channel : Option Channel) : Method Ref := do
  let t := (← get).tunnels.length
  modify fun s => { s with
    tunnels := s.tunnels ++ [{ kind, innerChannel := channel }], sessionCount := s.sessionCount + 1 }
  return t

def setBrotherTunnel (t brotherTunnel : Ref) : Method Unit := do
  update t fun u => { u with brother := some brotherTunnel }
  modify fun s => { s with paired := (t, brotherTunnel) :: s.paired }

/-- `m_InnerChannel.register`. It throws for a cancelled key. -/
def register (t : Ref) (ops : Ops) : Method Unit := do
  let channel ← innerChannel t
  let _ ← call
  if channel.key = .cancelled then throw ()
  updateChannel t fun c => { c with key := .valid ops }

def connect (t : Ref) (destAddress : InetSocketAddress) : Method Unit := do
  let _ ← innerChannel t
  if (← call).flag then
    update t fun u => { u with destAddress := some destAddress }
    register t .connect
    let _ ← innerChannel t
    let _ ← call
  else throw ()

def beginReceive (t : Ref) : Method Unit := do
  let channel ← innerChannel t
  if channel.blocking then
    let _ ← call
    updateChannel t fun c => { c with blocking := false }
  register t .read

/-- `key.cancel()` for the key of the channel. -/
def cancel (t : Ref) : Method Unit := updateChannel t fun c => { c with key := c.key.cancel }

/-- The loop of `write`, which goes on for at most `n` rounds: one for each byte that remains is enough. -/
def writeLoop (t : Ref) : (n : Nat) → (buffer : ByteBuffer) → Method ByteBuffer
  | 0, buffer => return buffer
  | n + 1, buffer => do
      if buffer.hasRemaining then
        let _ ← innerChannel t
        let bytesSent := (← call).count
        if bytesSent = 0 then return buffer
        updateChannel t fun c => { c with written := c.written ++ buffer.rest.take bytesSent }
        writeLoop t n (buffer.advance bytesSent)
      else return buffer

/-- `write`: the buffer, and whether all of it was written. -/
def write (t : Ref) (buffer : ByteBuffer) (copyRemainData : Bool) : Method (ByteBuffer × Bool) := do
  let buffer ← writeLoop t buffer.remaining buffer
  if buffer.hasRemaining then
    if copyRemainData then
      let remain ← deref (copyRemain (← this t).remain buffer)
      update t fun u => { u with remain := some remain }
      register t .write
      return (buffer.advance buffer.remaining, false)
    return (buffer, false)
  return (buffer, true)

def onTunnelEstablished (t : Ref) : Method Unit := do
  beginReceive t
  beginReceive (← deref (← this t).brother)

/-- What `disposeInternal` leaves of the fields. -/
def Tunnel.clear (u : Tunnel) : Tunnel :=
  { u with innerChannel := none, remain := none, brother := none, disposed := true, disposals := u.disposals + 1 }

/-- The body of `disposeInternal`; `disposeBrother` is the call for the brother. -/
def disposeBody (disposeBrother : Ref → Heap → Heap) (t : Ref) (s : Heap) : Heap :=
  match s.tunnels[t]? with
  | none => s
  | some u =>
      if u.disposed then s
      else
        let s := match u.brother with
          | none => s
          | some brother => disposeBrother brother s
        { s with tunnels := s.tunnels.modify t Tunnel.clear, sessionCount := s.sessionCount - 1 }

def disposeInternal : (disposeBrother : Bool) → Ref → Heap → Heap
  | false => disposeBody fun _ s => s
  | true => disposeBody (disposeBody fun _ s => s)

def dispose (t : Ref) : Heap → Heap := disposeInternal true t

/-! ## The methods that the classes override -/

/-- What the methods read of `ProxyConfig`. -/
structure ProxyConfig where
  userAgent : Bytes
  appInstallID : Bytes
  isolateHttpHostHeader : Bool

def onConnected (t : Ref) (config : ProxyConfig) : Method Unit := do
  let u ← this t
  match u.kind with
  | .raw => onTunnelEstablished t
  | .httpConnect _ =>
      let dest ← deref u.destAddress
      let request := connectRequest ⟨dest.hostName, dest.port, config.userAgent, config.appInstallID⟩
      let buffer ← deref ((← get).buffer.clear.put request)
      modify fun s => { s with buffer }
      let (_, sent) ← write t buffer.flip true
      if sent then beginReceive t

def trySendPartOfHeader (t : Ref) (buffer : ByteBuffer) : Method ByteBuffer := do
  if buffer.remaining > 10 ∧ isRequest (buffer.rest.take 10) = true then
    let part ← deref (buffer.setLimit (buffer.position + 10))
    let (part, _) ← write t part false
    deref (part.setLimit buffer.limit)
  else return buffer

def beforeSend (t : Ref) (buffer : ByteBuffer) (config : ProxyConfig) : Method ByteBuffer := do
  match (← this t).kind with
  | .raw => return buffer
  | .httpConnect _ => if config.isolateHttpHostHeader then trySendPartOfHeader t buffer else return buffer

def afterReceived (t : Ref) (buffer : ByteBuffer) : Method ByteBuffer := do
  match (← this t).kind with
  | .raw => return buffer
  | .httpConnect true => return buffer
  | .httpConnect false =>
      if isResponse ((buffer.array.drop buffer.position).take 12) then
        let buffer ← deref (buffer.setLimit buffer.position)
        update t fun u => { u with kind := .httpConnect true }
        onTunnelEstablished t
        return buffer
      else throw ()

/-! ## The callbacks

Each is the method named after it, within a `try` block that disposes the tunnel. -/

def connectable (t : Ref) (config : ProxyConfig) : Method Unit := do
  let _ ← innerChannel t
  if (← call).flag then onConnected t config
  else modify (dispose t)

def onConnectable (t : Ref) (config : ProxyConfig) : Heap → Heap := attempt (connectable t config) (dispose t)

/-- What `onReadable` does with the bytes that were read. -/
def forward (t : Ref) (buffer : ByteBuffer) (config : ProxyConfig) : Method Unit := do
  let buffer ← afterReceived t buffer
  if (← this t).isTunnelEstablished ∧ buffer.hasRemaining then
    let brother ← deref (← this t).brother
    let buffer ← beforeSend brother buffer config
    let (_, sent) ← write brother buffer true
    if ¬sent then cancel t

def readable (t : Ref) (config : ProxyConfig) : Method Unit := do
  modify fun s => { s with buffer := s.buffer.clear }
  let _ ← innerChannel t
  match (← call).bytes with
  | none => modify (dispose t)
  | some bytes =>
      let bytes := bytes.take (← get).buffer.remaining
      let buffer ← deref ((← get).buffer.put bytes)
      modify fun s => { s with buffer }
      if bytes.length > 0 then forward t buffer.flip config

def onReadable (t : Ref) (config : ProxyConfig) : Heap → Heap := attempt (readable t config) (dispose t)

def writable (t : Ref) (config : ProxyConfig) : Method Unit := do
  -- a null buffer throws in `beforeSend` or at the beginning of `write`
  let buffer ← deref (← this t).remain
  let buffer ← beforeSend t buffer config
  let (buffer, sent) ← write t buffer false
  update t fun u => { u with remain := some buffer }
  if sent then
    cancel t
    if (← this t).isTunnelEstablished then beginReceive (← deref (← this t).brother)
    else beginReceive t

def onWritable (t : Ref) (config : ProxyConfig) : Heap → Heap := attempt (writable t config) (dispose t)

/-! ## `onAccepted` -/

/-- What `onAccepted` finds: the channel, which may be null, the session of its port, whether it is for the proxy, the
address of the other end, and whether the configured tunnel is an HTTP proxy. -/
structure Acceptance where
  channel : Option Channel
  session : Option (Bytes × Nat)
  needProxy : Bool
  inetAddress : Bytes
  httpConnect : Bool

/-- `TunnelFactory.wrap` for the channel that was accepted. -/
def wrap (e : Acceptance) : Method Ref := do
  let _ ← call
  construct .raw e.channel

def getDestAddress (e : Acceptance) : Method (Option InetSocketAddress) := do
  let _ ← deref e.channel
  let _ ← call
  match e.session with
  | none => return none
  | some (remoteHost, remotePort) =>
      if e.needProxy then return some { hostName := remoteHost, port := remotePort, unresolved := true }
      else return some { hostName := e.inetAddress, port := remotePort, unresolved := false }

/-- The constructor that opens a channel. -/
def openTunnel (kind : Kind) : Method Ref := do
  let _ ← call
  let _ ← call
  construct kind (some { blocking := false, key := .absent, written := [] })

def createTunnelByConfig (e : Acceptance) (destAddress : InetSocketAddress) : Method Ref := do
  if destAddress.unresolved then
    if e.httpConnect then openTunnel (.httpConnect false) else throw ()
  else openTunnel .raw

/-- `onAccepted` from where `localTunnel` is set. -/
def accepted (e : Acceptance) (localTunnel : Ref) : Method Unit := do
  match ← getDestAddress e with
  | some destAddress =>
      let remoteTunnel ← createTunnelByConfig e destAddress
      setBrotherTunnel remoteTunnel localTunnel
      setBrotherTunnel localTunnel remoteTunnel
      connect remoteTunnel destAddress
  | none =>
      -- the address in the log line
      let _ ← call
      modify (dispose localTunnel)

def onAccepted (e : Acceptance) (s : Heap) : Heap :=
  match wrap e s with
  | .error _ s => s
  | .ok localTunnel s => attempt (accepted e localTunnel) (dispose localTunnel) s

/-! ## The loop of `run` -/

inductive Event
  | accept (e : Acceptance)
  | connectable (t : Ref) (config : ProxyConfig)
  | readable (t : Ref) (config : ProxyConfig)
  | writable (t : Ref) (config : ProxyConfig)

/-- The tunnel that is called back. -/
def Event.callee : Event → Option Ref
  | .accept _ => none
  | .connectable t _ | .readable t _ | .writable t _ => some t

def handle : Event → Heap → Heap
  | .accept e => onAccepted e
  | .connectable t config => onConnectable t config
  | .readable t config => onReadable t config
  | .writable t config => onWritable t config

/-- One event, with the answers to the calls it makes. -/
def step (s : Heap) (i : Event × List Answer) : Heap := handle i.1 { s with answers := i.2 }

/-- Nothing is accepted yet. -/
def started : Heap where
  tunnels := []
  sessionCount := 0
  buffer := .allocate 20000
  paired := []
  answers := []

end TunProxy.Relay.Objects
