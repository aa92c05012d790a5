import TunProxy.Lib.Run
import TunProxy.Lib.Serial
import TunProxy.Lib.Cumulative
import TunProxy.Lib.Throws
import TunProxy.Lib.Bytes
import TunProxy.Lib.OnesComplement
import TunProxy.Lib.Loop
import TunProxy.Lib.Search
import TunProxy.Lib.Inserts
import TunProxy.Lib.Linked
import TunProxy.Lib.Expiring
import TunProxy.Native.Types
import TunProxy.Native.Util
import TunProxy.Native.Tls
import TunProxy.Native.Http
import TunProxy.Native.HttpBounds
import TunProxy.Native.TlsBounds
import TunProxy.Native.Open
import TunProxy.Native.Udp
import TunProxy.Native.Icmp
import TunProxy.Native.Tcp.Queue
import TunProxy.Native.Tcp.Write
import TunProxy.Native.Tcp.Step
import TunProxy.Native.Session
import TunProxy.Native.Packet
import TunProxy.Native.Ip
import TunProxy.Native.Dns
import TunProxy.Native.Loop
import TunProxy.Native.Thread
import TunProxy.Native.Poll
import TunProxy.Native.Tcp.Theorems.Closing
import TunProxy.Native.Tcp.Theorems.Send
import TunProxy.Native.Tcp.Theorems.Duplicate
import TunProxy.Native.Tcp.Lemmas.Log
import TunProxy.Native.Tcp.Theorems.Downstream
import TunProxy.Native.Tcp.Theorems.Reassembly
import TunProxy.Native.Tcp.Theorems.Acknowledge
import TunProxy.Native.Tcp.Theorems.Upstream
import TunProxy.Native.Tcp.Theorems.Rewrite
import TunProxy.Native.Tcp.Theorems.Connect
import TunProxy.Native.Tcp.Theorems.Tunnel
import TunProxy.Native.Tcp.Theorems.Queued
import TunProxy.Native.Tcp.Theorems.Classify
import TunProxy.Native.Tcp.Theorems.Options
import TunProxy.Native.Tcp.Theorems.Blocks
import TunProxy.Native.Theorems.Descriptors
import TunProxy.Native.Theorems.Checksum
import TunProxy.Native.Theorems.Dispatch
import TunProxy.Native.Theorems.Extensions
import TunProxy.Native.Theorems.Qname
import TunProxy.Native.Theorems.DnsResponse
import TunProxy.Native.Theorems.RoundTrip
import TunProxy.Native.Theorems.Keys
import TunProxy.Native.Theorems.Limit
import TunProxy.Native.Theorems.Answers
import TunProxy.Native.Theorems.Echo
import TunProxy.Native.Theorems.Rewriting
import TunProxy.Native.Theorems.Compare
import TunProxy.Native.Theorems.Setup
import TunProxy.Native.Theorems.Thread
import TunProxy.Native.Theorems.Apart
import TunProxy.Native.Theorems.Idle
import TunProxy.Native.Theorems.Relayed
import TunProxy.Relay.Theorems.Integrity
import TunProxy.Relay.Theorems.Stranded
import TunProxy.Relay.Theorems.Handshake
import TunProxy.Relay.Theorems.Lifetime
import TunProxy.Vpn.Theorems.Checksum
import TunProxy.Vpn.Theorems.Accept
import TunProxy.Vpn.Theorems.Agreement
import TunProxy.Vpn.Theorems.ZeroChecksum
import TunProxy.Vpn.Theorems.ChinaIp
import TunProxy.Vpn.Theorems.HttpHost
import TunProxy.Vpn.Theorems.Domains
import TunProxy.Vpn.Theorems.Rejected
import TunProxy.Vpn.Theorems.Lasting
import TunProxy.Dns.Theorems.FakeIp
import TunProxy.Dns.Theorems.QueryId
import TunProxy.Dns.Theorems.Decode
import TunProxy.Dns.Theorems.Stale
import TunProxy.Dns.Theorems.Encode
import TunProxy.Dns.Theorems.Depth
import TunProxy.Dns.Theorems.Tamper
import TunProxy.Dns.Theorems.Pending
import TunProxy.Tls.Theorems.ServerName
import TunProxy.Tls.Theorems.Bounds
import TunProxy.Dns.Theorems.Names
import TunProxy.Relay.Lemmas.Targets
