import TunProxy.Dns.Proxy
import TunProxy.Relay.Objects
import TunProxy.Vpn.ProxyConfig

/-!
# The VPN service with its DNS proxy

`LocalVpnService`, `DnsProxy` and `TcpProxyServer` run in threads of their own. They share the maps of fake addresses
and the configuration. A step is one packet, one datagram at the socket of the DNS proxy or one accepted connection. The
service gives the DNS proxy no query: its call of `onDnsRequestReceived` is commented out.
-/

namespace TunProxy.Dns

open Native (Bytes)
open Vpn

/-- `ProxyConfig.Instance` and the table of addresses in China, and what is used of the platform. -/
structure Settings where
  platform : Platform
  proxyConfig : ProxyConfig
  china : ChinaIpMaskManager
  charset : Charset
  hashCode : List Char → BitVec 32
  dnsTTL : BitVec 32

namespace Settings

def needProxy (c : Settings) (host : List Char) (ip : BitVec 32) : Bool :=
  c.proxyConfig.needProxy c.platform c.china (some host) ip

def dns (c : Settings) : Config := { needProxy := c.needProxy, dnsTTL := c.dnsTTL, hashCode := c.hashCode }

end Settings

/-- `service` is none when the process has ended. -/
structure Gateway where
  proxy : DnsProxy
  service : Option Service

namespace Gateway

inductive Input
  | response (datagram : Bytes)
  | vpn (input : Vpn.Input)

def env (c : Settings) (g : Gateway) : Env := { charset := c.charset, reverseLookup := g.proxy.maps.reverseLookup }

def step (c : Settings) (g : Gateway) : Input → Gateway
  | .response datagram => { g with proxy := (react g.proxy (.response c.dns datagram)).1 }
  | .vpn input => { g with service := Vpn.step (g.env c) g.service input }

end Gateway

/-- `String.getBytes`. -/
def getBytes (s : List Char) : Bytes := s.flatMap String.utf8EncodeChar

/-- What `TcpProxyServer.onAccepted` finds for a channel whose other end is `inetAddress` and `port`. -/
def acceptance (c : Settings) (s : Service) (channel : Option Relay.Objects.Channel) (port : BitVec 16)
    (now : BitVec 64) (inetAddress : Bytes) (httpConnect : Bool) : Relay.Objects.Acceptance :=
  let session := (getDestAddress s port now).2
  { channel
    session := session.map fun session => (getBytes session.remoteHost, session.remotePort.toNat)
    needProxy := session.any fun session => c.needProxy session.remoteHost session.remoteIP
    inetAddress
    httpConnect }

end TunProxy.Dns
