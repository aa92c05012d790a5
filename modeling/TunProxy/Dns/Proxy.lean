import Mathlib.Data.List.AList
import TunProxy.Dns.Packet
import TunProxy.Vpn.Nat

/-!
# The DNS proxy

`DnsProxy` of `tun.proxy.core`: the fake addresses it hands out for domains, and the translation of query
identifiers between the clients and the socket upstream.
-/

namespace TunProxy.Dns

open Native (Bytes)
open Lib.Bytes
open Vpn
open CommonMethods (readInt computeUDPChecksum)

/-! ## Fake addresses -/

/-- `DomainIPMaps` and `IPDomainMaps`. -/
structure Maps where
  domainIP : AList fun _ : List Char => BitVec 32 := ∅
  ipDomain : AList fun _ : BitVec 32 => List Char := ∅

namespace Maps

def reverseLookup (maps : Maps) (ip : BitVec 32) : Option (List Char) := maps.ipDomain.lookup ip

def getIPFromCache (maps : Maps) (domain : List Char) : BitVec 32 := (maps.domainIP.lookup domain).getD 0

end Maps

/-- The address the loop of `getOrCreateFakeIP` tries for a value of `hashIP`. -/
def fakeAddress (hashIP : BitVec 32) : BitVec 32 := FAKE_NETWORK_IP ||| (hashIP &&& 0x0000FFFF)

/-- The first `n` rounds of the loop; none when all the addresses they try are taken. -/
def probe (maps : Maps) : Nat → BitVec 32 → Option (BitVec 32)
  | 0, _ => none
  | n + 1, hashIP =>
      let fakeIP := fakeAddress hashIP
      if fakeIP ∈ maps.ipDomain then probe maps n (hashIP + 1) else some fakeIP

/-- The loop repeats itself after 65536 rounds: none means that it does not end. -/
def getOrCreateFakeIP (hashCode : List Char → BitVec 32) (maps : Maps) (domain : List Char) :
    Option (Maps × BitVec 32) :=
  match maps.domainIP.lookup domain with
  | some fakeIP => some (maps, fakeIP)
  | none => do
      let fakeIP ← probe maps 65536 (hashCode domain)
      return ({ domainIP := maps.domainIP.insert domain fakeIP, ipDomain := maps.ipDomain.insert fakeIP domain },
        fakeIP)

/-! ## The proxy -/

structure QueryState where
  clientQueryID : BitVec 16
  queryNanoTime : BitVec 64
  clientIP : BitVec 32
  clientPort : BitVec 16
  remoteIP : BitVec 32
  remotePort : BitVec 16
  deriving DecidableEq, Repr

/-- The fields, with the static maps and the array of `run`. The keys of the `SparseArray` are identifiers, which
are signed. -/
structure DnsProxy where
  maps : Maps := {}
  queryID : BitVec 16 := 0
  queryArray : AList fun _ : Int => QueryState := ∅
  receiveBuffer : Bytes

/-- What the handling of a packet uses beside the proxy's state: `needProxy` and `getDnsTTL` of the
configuration, and `String.hashCode`. -/
structure Config where
  needProxy : List Char → BitVec 32 → Bool
  dnsTTL : BitVec 32
  hashCode : List Char → BitVec 32

/-- A method throws, or it never returns: then its thread handles no more packets. -/
inductive Fault
  | thrown | spins
  deriving DecidableEq, Repr

abbrev Method := EStateM Fault DnsProxy

def orThrow {α : Type} (fault : Fault) : Option α → Method α
  | some a => return a
  | none => throw fault

/-- A change to the array of `run`. -/
def edit (change : Bytes → Option Bytes) : Method Unit := do
  let data ← orThrow .thrown (change (← get).receiveBuffer)
  modify fun s => { s with receiveBuffer := data }

def getFirstIP : List Resource → Option (BitVec 32)
  | [] => some 0
  | resource :: resources => if resource.type = 1 then readInt resource.data 0 else getFirstIP resources

/-- The array and the packet, whose header is in the array, with one address as the only answer. -/
def tamperDnsResponse (config : Config) (rawPacket : Bytes) (p : DnsPacket) (newIP : BitVec 32) :
    Option (Bytes × DnsPacket) := do
  let question ← p.questions.head?
  let raw ← p.header.setResourceCount rawPacket 1
  let raw ← p.header.setAResourceCount raw 0
  let raw ← p.header.setEResourceCount raw 0
  let raw ← ResourcePointer.set raw (question.offset + question.length) 0xC00C question.type question.cls
    config.dnsTTL 4 newIP
  return (raw, { p with size := 12 + question.length + 16 })

/-- The packet, tampered with or as it is. -/
def dnsPollution (config : Config) (p : DnsPacket) : Method DnsPacket := do
  if p.header.questionCount.toInt > 0 then
    let question ← orThrow .thrown p.questions.head?
    if question.type = 1 then
      let realIP ← orThrow .thrown (getFirstIP p.resources)
      if config.needProxy question.domain realIP then
        let (maps, fakeIP) ← orThrow .spins (getOrCreateFakeIP config.hashCode (← get).maps question.domain)
        modify fun s => { s with maps }
        let (rawPacket, p) ← orThrow .thrown (tamperDnsResponse config (← get).receiveBuffer p fakeIP)
        modify fun s => { s with receiveBuffer := rawPacket }
        return p
  return p

/-- What is written to the tun, and the size of the DNS packet in it. -/
structure Delivery where
  packet : Bytes
  size : Nat
  deriving DecidableEq, Repr

/-- `LocalVpnService.sendUDPPacket` -/
def sendUDPPacket : Method Bytes := do
  edit fun data => (computeUDPChecksum data 20).map (·.1)
  let data := (← get).receiveBuffer
  let total ← orThrow .thrown (IPHeader.getTotalLength data)
  if total > data.length then throw .thrown
  return data.take total

/-- The rest of `OnDnsResponseReceived` once the query is found. -/
def answerQuery (config : Config) (p : DnsPacket) (state : QueryState) : Method (Option Delivery) := do
  let p ← dnsPollution config p
  edit fun data => p.header.setID data state.clientQueryID
  edit fun data => IPHeader.setSourceIP data state.remoteIP
  edit fun data => IPHeader.setDestinationIP data state.clientIP
  edit fun data => IPHeader.setProtocol data IPHeader.UDP
  edit fun data => IPHeader.setTotalLength data (20 + 8 + p.size)
  edit fun data => UDPHeader.setSourcePort data 20 state.remotePort
  edit fun data => UDPHeader.setDestinationPort data 20 state.clientPort
  edit fun data => UDPHeader.setTotalLength data 20 (8 + p.size)
  return some { packet := ← sendUDPPacket, size := p.size }

def onDnsResponseReceived (config : Config) (p : DnsPacket) : Method (Option Delivery) := do
  match (← get).queryArray.lookup p.header.id.toInt with
  | none => return none
  | some state =>
      modify fun s => { s with queryArray := s.queryArray.erase p.header.id.toInt }
      answerQuery config p state

/-- What is left of the array after a query that is answered with a fake address; none for another query. -/
def interceptDns (config : Config) (data : Bytes) (udp : Nat) (p : DnsPacket) : Method (Option Bytes) := do
  let question ← orThrow .thrown p.questions.head?
  if question.type = 1 then
    if config.needProxy question.domain ((← get).maps.getIPFromCache question.domain) then
      let (maps, fakeIP) ← orThrow .spins (getOrCreateFakeIP config.hashCode (← get).maps question.domain)
      modify fun s => { s with maps }
      orThrow .thrown do
        let (data, p) ← tamperDnsResponse config data p fakeIP
        let sourceIP ← IPHeader.getSourceIP data
        let sourcePort ← UDPHeader.getSourcePort data udp
        let data ← IPHeader.setSourceIP data (← IPHeader.getDestinationIP data)
        let data ← IPHeader.setDestinationIP data sourceIP
        let data ← IPHeader.setTotalLength data (20 + 8 + p.size)
        let data ← UDPHeader.setSourcePort data udp (← UDPHeader.getDestinationPort data udp)
        let data ← UDPHeader.setDestinationPort data udp sourcePort
        return some (← UDPHeader.setTotalLength data udp (8 + p.size))
    else return none
  else return none

def QUERY_TIMEOUT_NS : Int := 10 * 1000000000

def expired (now : BitVec 64) (state : QueryState) : Bool := (now - state.queryNanoTime).toInt > QUERY_TIMEOUT_NS

def clearExpiredQueries (queries : AList fun _ : Int => QueryState) (now : BitVec 64) :
    AList fun _ : Int => QueryState where
  entries := queries.entries.filter fun e => !expired now e.2
  nodupKeys := queries.nodupKeys.sublist List.filter_sublist

/-- A datagram for the socket, which may fail to send it. -/
structure Datagram where
  data : Bytes
  address : BitVec 32
  port : BitVec 16
  deriving DecidableEq, Repr

/-- The values of `System.nanoTime()`: for the query, and in `clearExpiredQueries`. -/
structure Clock where
  query : BitVec 64
  clear : BitVec 64

/-- The state of a query in the packet `data`. -/
def QueryState.ofPacket (data : Bytes) (udp : Nat) (clientQueryID : BitVec 16) (queryNanoTime : BitVec 64) :
    Option QueryState := do
  let clientIP ← IPHeader.getSourceIP data
  let clientPort ← UDPHeader.getSourcePort data udp
  let remoteIP ← IPHeader.getDestinationIP data
  let remotePort ← UDPHeader.getDestinationPort data udp
  return { clientQueryID, queryNanoTime, clientIP, clientPort, remoteIP, remotePort }

/-- The query under its new identifier. The constructor of a socket's address throws for a negative port. -/
def forwardQuery (data : Bytes) (udp : Nat) (p : DnsPacket) (clock : Clock) : Method Datagram := do
  let state ← orThrow .thrown (QueryState.ofPacket data udp p.header.id clock.query)
  modify fun s => { s with queryID := s.queryID + 1 }
  let queryID := (← get).queryID
  let data ← orThrow .thrown (p.header.setID data queryID)
  modify fun s => { s with queryArray := clearExpiredQueries s.queryArray clock.clear }
  modify fun s => { s with queryArray := s.queryArray.insert queryID.toInt state }
  if state.remotePort.toInt < 0 then throw .thrown
  if udp + 8 + p.size > data.length then throw .thrown
  return { data := slice (udp + 8) p.size data, address := state.remoteIP, port := state.remotePort }

/-- The packet `p` is in the array `data`, as are the IP header, at its beginning, and the UDP header, at `udp`. -/
def onDnsRequestReceived (config : Config) (data : Bytes) (udp : Nat) (p : DnsPacket) (clock : Clock) :
    Method (Option Datagram) := do
  match ← interceptDns config data udp p with
  | some _ => return none
  | none => return some (← forwardQuery data udp p clock)

/-! ## Runs -/

inductive Event
  /-- A packet of a client, whose query `onDnsRequestReceived` is called with. -/
  | request (config : Config) (data : Bytes) (udp : Nat) (p : DnsPacket) (clock : Clock)
  /-- A datagram that arrives at the socket. -/
  | response (config : Config) (datagram : Bytes)

/-- What an event makes the proxy put out. -/
inductive Output
  | nothing
  | upstream (datagram : Datagram)
  | tun (delivery : Delivery)

/-- One round of the loop of `run`. A datagram that is too long for the array is cut off. -/
def responseMethod (config : Config) (datagram : Bytes) : Method Output := do
  edit fun data => some (patch 28 (datagram.take (data.length - 28)) data)
  let data := (← get).receiveBuffer
  let dnsBuffer ← orThrow .thrown (ByteBuffer.ofSlice data 28 (min datagram.length (data.length - 28)))
  match DnsPacket.fromBytes dnsBuffer with
  | .ok (some p) =>
      match ← onDnsResponseReceived config p with
      | some delivery => return .tun delivery
      | none => return .nothing
  | .ok none => return .nothing
  | .error _ => throw .thrown

def Event.method : Event → Method Output
  | .request config data udp p clock => do
      match ← onDnsRequestReceived config data udp p clock with
      | some datagram => return .upstream datagram
      | none => return .nothing
  | .response config datagram => responseMethod config datagram

def react (s : DnsProxy) (e : Event) : DnsProxy × Output :=
  match e.method s with
  | .ok out s => (s, out)
  | .error _ s => (s, .nothing)

/-- The proxy when `run` begins: `IPHeader.Default()` was written to the array. -/
def startProxy : DnsProxy where
  receiveBuffer := [0x45, 0, 0, 0, 0, 0, 0, 0, 64] ++ List.replicate 1991 0

end TunProxy.Dns
