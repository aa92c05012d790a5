import TunProxy.Dns.Gateway
import TunProxy.Dns.Theorems.QueryId
import TunProxy.Relay.Lemmas.Targets
import TunProxy.Vpn.Theorems.Domains
import TunProxy.Vpn.Theorems.Lasting

/-!
# The hosts of connections

Which host a connection of a client is opened for. No query reaches the DNS proxy, so no address is handed out for a
domain, and the lookup of a name by its address finds nothing: the host is the address in figures, or one that a packet
of the connection has named.
-/

namespace TunProxy.Dns

open Native (Bytes)
open Vpn CommonMethods NatSessionManager
open Relay.Objects (Acceptance Channel Heap onAccepted onAccepted_targets started)
open Lib

variable {c : Settings} {ip : BitVec 32} {g : Gateway} {conn : Conn}

/-! ## The proxy without queries -/

/-- No query is known, and no address was handed out. -/
def Unasked (s : DnsProxy) : Prop := s.queryArray = ∅ ∧ s.maps = {}

/-- A method leaves the queries and the maps as they are, however it ends. -/
abbrev StaysUnasked {α : Type} (x : Method α) : Prop := Triple Unasked x (fun _ => Unasked) Unasked

theorem staysUnasked_orThrow {α : Type} (fault : Fault) (o : Option α) : StaysUnasked (orThrow fault o) := by
  cases o with
  | none => exact .throw fun _ h => h
  | some a => exact .pure fun _ h => h

theorem staysUnasked_edit (change : Bytes → Option Bytes) : StaysUnasked (edit change) :=
  .bind (.get fun _ h => h) fun _ => .bind (staysUnasked_orThrow _ _) fun _ => .modify fun _ h => h

/-- A response answers no query. -/
theorem staysUnasked_onDnsResponseReceived (config : Config) (p : DnsPacket) :
    Triple Unasked (onDnsResponseReceived config p) (fun o s => o = none ∧ Unasked s) Unasked := by
  refine .bind (Q := fun s t => s = t ∧ Unasked t) (.get fun s h => ⟨rfl, h⟩) fun s => ?_
  cases hq : s.queryArray.lookup p.header.id.toInt with
  | none => exact .pure fun t h => ⟨rfl, h.2⟩
  | some state =>
      rintro t ⟨rfl, hempty, -⟩
      rw [hempty] at hq
      cases hq

theorem staysUnasked_responseMethod (config : Config) (datagram : Bytes) :
    StaysUnasked (responseMethod config datagram) := by
  refine .bind (staysUnasked_edit _) fun _ => .bind (.get fun _ h => h) fun _ => ?_
  refine .bind (staysUnasked_orThrow _ _) fun dnsBuffer => ?_
  cases DnsPacket.fromBytes dnsBuffer with
  | error e => exact .throw fun _ h => h
  | ok o =>
      cases o with
      | none => exact .pure fun _ h => h
      | some p =>
          refine .bind (staysUnasked_onDnsResponseReceived config p) fun o => ?_
          cases o with
          | none => exact .pure fun _ h => h.2
          | some delivery => exact .pure fun _ h => h.2

theorem unasked_step (i : Gateway.Input) (h : Unasked g.proxy) : Unasked (g.step c i).proxy := by
  cases i with
  | response datagram =>
      rw [Gateway.step, react_fst]
      exact (staysUnasked_responseMethod c.dns datagram).final h
  | vpn input => exact h

/-! ## The hosts of sessions -/

/-- The host of a new session. -/
def newHost (env : Env) (ip : BitVec 32) : List Char :=
  (if isFakeIP ip then env.reverseLookup ip else none).getD (ipIntToString ip)

/-- The session of a connection. -/
def sessionFor (t : Sessions) (conn : Conn) : Option NatSession := sessionOf t conn.sport.toInt conn.dest conn.dport

theorem countPacket_host (env : Env) (t : Sessions) (k : Int) (ip : BitVec 32) (port : BitVec 16) (clock : Vpn.Clock) :
    (∃ e, sessionOf t k ip port = some e ∧ (countPacket env t k ip port clock).2.remoteHost = e.remoteHost) ∨
    (countPacket env t k ip port clock).2.remoteHost = newHost env ip := by
  unfold countPacket getSession
  cases hk : t.lookup k with
  | none => exact .inr rfl
  | some e =>
      by_cases hd : e.remoteIP ≠ ip ∨ e.remotePort ≠ port
      · refine .inr ?_
        simp only [if_pos hd]
        rfl
      · push Not at hd
        refine .inl ⟨e, sessionOf_eq_some.2 ⟨hk, hd⟩, ?_⟩
        simp [hd]

theorem getSession_host {t : Sessions} {k : Int} {now : BitVec 64} {e : NatSession}
    (he : sessionFor (getSession t k now).1 conn = some e) :
    ∃ e₀, sessionFor t conn = some e₀ ∧ e.remoteHost = e₀.remoteHost := by
  obtain ⟨hl, hip, hport⟩ := sessionOf_eq_some.1 he
  obtain ⟨e₀, he₀, heq⟩ := lookup_getSession hl
  rw [heq] at hip hport
  exact ⟨e₀, sessionOf_eq_some.2 ⟨he₀, hip, hport⟩, by rw [heq]⟩

theorem conn_eq {conn' : Conn} (hsport : conn'.sport = conn.sport) (hdest : conn'.dest = conn.dest)
    (hdport : conn'.dport = conn.dport) : conn' = conn := by
  obtain ⟨sport, dest, dport⟩ := conn
  obtain ⟨sport', dest', dport'⟩ := conn'
  cases hsport
  cases hdest
  cases hdport
  rfl

/-- What is in the table after a packet of a client was counted, and forwarded: its session, and the others. -/
theorem lookup_sent {env : Env} {clock : Vpn.Clock} {data : Bytes} {t t' : Sessions} {k k' : Int} {port : BitVec 16}
    {e : NatSession}
    (h : t' = (countPacket env t k ip port clock).1 ∨ ∃ e', Sent env data (countPacket env t k ip port clock).2 e' ∧
      t' = (countPacket env t k ip port clock).1.insert k e') (hl : t'.lookup k' = some e) :
    (k' = k ∧ Sent env data (countPacket env t k ip port clock).2 e) ∨ t.lookup k' = some e := by
  rcases h with rfl | ⟨e', hsent, rfl⟩
  · rcases lookup_countPacket hl with ⟨hk, rfl⟩ | ⟨-, hl⟩
    · exact .inl ⟨hk, rfl, rfl, rfl, .inl rfl⟩
    · exact .inr hl
  · by_cases hk : k' = k
    · subst hk
      rw [AList.lookup_insert, Option.some.injEq] at hl
      exact .inl ⟨rfl, hl ▸ hsent⟩
    · rw [AList.lookup_insert_ne hk] at hl
      rcases lookup_countPacket hl with ⟨hk', -⟩ | ⟨-, hl⟩
      · exact absurd hk' hk
      · exact .inr hl

/-- The session of a connection has the host it had, or a packet of the connection has given it one. -/
theorem turns_host {env : Env} {clock : Vpn.Clock} {data : Bytes} {t t' : Service} {e : NatSession}
    (h : Turns env clock data t t') (he : sessionFor t'.sessions conn = some e) :
    (∃ e₀, sessionFor t.sessions conn = some e₀ ∧ e.remoteHost = e₀.remoteHost) ∨
    clientConn t data = some conn ∧
      (e.remoteHost = newHost env conn.dest ∨ namedHost env.charset data = some e.remoteHost) := by
  cases h with
  | idle _ h => exact .inl ⟨e, h ▸ he, rfl⟩
  | server _ k h => exact .inl (getSession_host (h ▸ he))
  | client conn' hc h =>
      obtain ⟨hl, hip, hport⟩ := sessionOf_eq_some.1 he
      rcases lookup_sent h hl with ⟨hk, hsent⟩ | hl
      · -- the packet is one of the connection
        obtain ⟨hdest, hdport⟩ := countPacket_dest env t.sessions conn'.sport.toInt conn'.dest conn'.dport clock
        obtain rfl : conn' = conn := conn_eq (BitVec.eq_of_toInt_eq hk).symm
          (hdest.symm.trans (hsent.remoteIP.symm.trans hip)) (hdport.symm.trans (hsent.remotePort.symm.trans hport))
        rcases hsent.host with hhost | hhost
        · rcases countPacket_host env t.sessions conn'.sport.toInt conn'.dest conn'.dport clock with
            ⟨e₀, he₀, hsame⟩ | hnew
          · exact .inl ⟨e₀, he₀, hhost.trans hsame⟩
          · exact .inr ⟨hc, .inl (hhost.trans hnew)⟩
        · exact .inr ⟨hc, .inr hhost⟩
      · exact .inl ⟨e, sessionOf_eq_some.2 ⟨hl, hip, hport⟩, rfl⟩

/-! ## Runs -/

/-- The threads when they begin. -/
def Gateway.start (s₀ : Service) : Gateway := { proxy := startProxy, service := some s₀ }

/-- What the service was fed. -/
def Gateway.inputs (is : List Gateway.Input) : List Vpn.Input :=
  is.filterMap fun i =>
    match i with
    | .vpn input => some input
    | .response _ => none

/-- A packet of the connection names the host. -/
def Names (c : Settings) (s₀ : Service) (is : List Gateway.Input) (conn : Conn) (host : List Char) : Prop :=
  ∃ data size clock, .vpn (.packet data size clock) ∈ is ∧ clientConn s₀ data = some conn ∧
    namedHost c.charset data = some host

theorem Names.append {s₀ : Service} {is js : List Gateway.Input} {host : List Char} (h : Names c s₀ is conn host) :
    Names c s₀ (is ++ js) conn host := by
  obtain ⟨data, size, clock, hmem, h⟩ := h
  exact ⟨data, size, clock, List.mem_append_left _ hmem, h⟩

theorem gateway_latest {s₀ s : Service} {is : List Gateway.Input} (h₀ : s₀.sessions = ∅)
    (hs : (is.foldl (Gateway.step c) (.start s₀)).service = some s) : Latest s₀ (Gateway.inputs is) s := by
  have hrun := Run.ofList (Gateway.step c) (.start s₀) is
  refine hrun.invariant (I := fun is g => ∀ s, g.service = some s → Latest s₀ (Gateway.inputs is) s) ?_ ?_ s hs
  · rintro s ⟨⟩
    have hstart : Reaches ((Gateway.start s₀).env c) s₀ [] s₀ := ⟨h₀, rfl⟩
    exact latest_of_run hstart
  · intro is g i ih _ s' hs'
    cases i with
    | response datagram => simpa [Gateway.inputs] using ih s' hs'
    | vpn input =>
        simp only [Gateway.step, Vpn.step, Option.bind_eq_bind, Option.bind_eq_some_iff] at hs'
        obtain ⟨s, hs, ⟨s'', out⟩, hr, h'⟩ := hs'
        cases h'
        simpa [Gateway.inputs] using latest_react (ih s hs) hr

/-- What holds of a connection in every run: its session has the address in figures as its host, or what a packet of the
connection has named. -/
structure Hosted (c : Settings) (s₀ : Service) (conn : Conn) (is : List Gateway.Input) (g : Gateway) : Prop where
  proxy : Unasked g.proxy
  session : ∀ s, g.service = some s → s.localIP = s₀.localIP ∧ s.port = s₀.port ∧
    ∀ e, sessionFor s.sessions conn = some e →
      e.remoteHost = ipIntToString conn.dest ∨ Names c s₀ is conn e.remoteHost

theorem Hosted.step {s₀ : Service} {is : List Gateway.Input} (h : Hosted c s₀ conn is g) (i : Gateway.Input) :
    Hosted c s₀ conn (is ++ [i]) (g.step c i) := by
  refine ⟨unasked_step i h.proxy, fun s' hs' => ?_⟩
  cases i with
  | response datagram =>
      obtain ⟨hlocal, hport, hsession⟩ := h.session s' hs'
      exact ⟨hlocal, hport, fun e he => (hsession e he).imp id .append⟩
  | vpn input =>
      simp only [Gateway.step, Vpn.step, Option.bind_eq_bind, Option.bind_eq_some_iff] at hs'
      obtain ⟨s, hs, ⟨s'', out⟩, hr, h'⟩ := hs'
      cases h'
      obtain ⟨hlocal, hport, hsession⟩ := h.session s hs
      cases input with
      | accepted port now =>
          cases hr
          refine ⟨hlocal, hport, fun e he => ?_⟩
          obtain ⟨e₀, he₀, heq⟩ := getSession_host he
          rw [heq]
          exact (hsession e₀ he₀).imp id .append
      | packet data size clock =>
          obtain ⟨hlocal', hport', -⟩ := onIPPacketReceived_handled hr
          refine ⟨hlocal'.trans hlocal, hport'.trans hport, fun e he => ?_⟩
          rcases turns_host (onIPPacketReceived_turns hr) he with ⟨e₀, he₀, heq⟩ | ⟨hc, hnew | hnamed⟩
          · rw [heq]
            exact (hsession e₀ he₀).imp id .append
          · -- the maps have no domain
            have hlookup : (g.env c).reverseLookup conn.dest = none := by
              rw [Gateway.env, h.proxy.2]
              rfl
            refine .inl ?_
            rw [hnew, newHost, hlookup, ite_self, Option.getD_none]
          · refine .inr ⟨data, size, clock, List.mem_append_right _ (List.mem_singleton_self _), ?_, hnamed⟩
            rw [← hc]
            simp only [clientConn, hlocal, hport]

theorem hosted_of_run {s₀ : Service} (h₀ : s₀.sessions = ∅) (is : List Gateway.Input) :
    Hosted c s₀ conn is (is.foldl (Gateway.step c) (.start s₀)) := by
  have hrun := Run.ofList (Gateway.step c) (.start s₀) is
  refine hrun.invariant (I := Hosted c s₀ conn) ⟨⟨rfl, rfl⟩, ?_⟩ fun _ _ i h _ => h.step i
  rintro s ⟨⟩
  refine ⟨rfl, rfl, fun e he => ?_⟩
  rw [h₀] at he
  cases he

/-- The session of a port is the latest connection's. -/
theorem latest_session {s₀ s : Service} {is : List Vpn.Input} {e : NatSession} (h : Latest s₀ is s)
    (he : s.sessions.lookup conn.sport.toInt = some e) (hlast : latest s₀ conn.sport is = some conn) :
    sessionFor s.sessions conn = some e := by
  obtain ⟨conn', hlast', hsport, hdest, hdport⟩ := h.sessions conn.sport e he
  obtain rfl : conn' = conn := Option.some.inj (hlast'.symm.trans hlast)
  exact sessionOf_eq_some.2 ⟨he, hdest.symm, hdport.symm⟩

/-! ## Accepting -/

variable {s₀ s : Service} {channel : Option Channel} {port : BitVec 16} {now : BitVec 64} {inetAddress : Bytes}
  {httpConnect : Bool} {session : NatSession}

theorem acceptance_none (h : (getDestAddress s port now).2 = none) :
    (acceptance c s channel port now inetAddress httpConnect).destAddress = none := by
  simp [acceptance, Acceptance.destAddress, h]

theorem acceptance_some (h : (getDestAddress s port now).2 = some session) :
    (acceptance c s channel port now inetAddress httpConnect).destAddress = some (
      if c.needProxy session.remoteHost session.remoteIP then
        { hostName := getBytes session.remoteHost, port := session.remotePort.toNat, unresolved := true }
      else { hostName := inetAddress, port := session.remotePort.toNat, unresolved := false }) := by
  simp [acceptance, Acceptance.destAddress, h]

/-- The session that is found is the one of the latest connection. -/
theorem getDestAddress_session {is : List Vpn.Input} (hl : Latest s₀ is s)
    (hlast : latest s₀ conn.sport is = some conn) (h : (getDestAddress s conn.sport now).2 = some session) :
    session.remoteIP = conn.dest ∧ session.remotePort = conn.dport ∧
      ∃ e, sessionFor s.sessions conn = some e ∧ session.remoteHost = e.remoteHost := by
  simp only [getDestAddress, getSession] at h
  cases he : s.sessions.lookup conn.sport.toInt with
  | none =>
      rw [he] at h
      cases h
  | some e =>
      rw [he] at h
      cases h
      have hfor := latest_session hl he hlast
      obtain ⟨-, hdest, hdport⟩ := sessionOf_eq_some.1 hfor
      exact ⟨hdest, hdport, e, hfor, rfl⟩

/-- Where a connection of the host is opened to: the proxy is asked for the host, or the address of the other end is
connected to. -/
def destination (c : Settings) (conn : Conn) (host : List Char) (inetAddress : Bytes) :
    Relay.Objects.InetSocketAddress :=
  if c.needProxy host conn.dest then { hostName := getBytes host, port := conn.dport.toNat, unresolved := true }
  else { hostName := inetAddress, port := conn.dport.toNat, unresolved := false }

/-- The tunnels that were added: the one to the client, and one that connects to the destination or nowhere. -/
def OpenedFor (dest : Relay.Objects.InetSocketAddress) (s s' : Heap) : Prop :=
  ∃ opened, s'.targets = s.targets ++ opened ∧ ∀ target ∈ opened, target = (.raw, none) ∨
    target.1 = dest.kind ∧ (target.2 = none ∨ target.2 = some dest)

/-- The domain `a` is for the proxy. -/
def sampleSettings : Settings where
  platform := ProxyConfig.samplePlatform
  proxyConfig := .putDomain ['a'] true .initial
  china := {}
  charset := .usAscii
  hashCode _ := 97
  dnsTTL := 30

def sampleConn : Conn := ⟨1000, 0x01020304, 80⟩

/-- The first packet of a connection, with a response of the DNS server before it. -/
def sampleInputs : List Gateway.Input :=
  [.response (sampleQueryPacket.drop 28), .vpn (clientSyn sampleConn.dest 80)]

theorem sampleInputs_unnamed (host : List Char) : ¬Names sampleSettings startService sampleInputs sampleConn host := by
  rintro ⟨data, size, clock, hmem, -, hhost⟩
  simp only [sampleInputs, List.mem_cons, reduceCtorEq, List.not_mem_nil, or_false, false_or] at hmem
  cases hmem
  -- the packet has no data
  have hnone : namedHost .usAscii (tcpPacket 0x0A080002 sampleConn.dest 1000 80 TCPHeader.SYN 7 []) = none := by
    decide +kernel
  cases hnone.symm.trans hhost

/-- Every call returns. -/
def sampleHeap : Heap := { started with answers := List.replicate 8 {} }

def sampleAccepted (s : Service) : Heap :=
  onAccepted (acceptance sampleSettings s (some ⟨true, .absent, []⟩) sampleConn.sport 0 [1, 2, 3, 4] true) sampleHeap

end TunProxy.Dns
