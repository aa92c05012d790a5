import TunProxy.Lib.Run
import TunProxy.Vpn.Lemmas.Service
import TunProxy.Vpn.Lemmas.Sessions

/-!
# Which connections the NAT tells apart

The table of sessions is keyed by the client's port: a port belongs to the destination of its latest packet.
-/

namespace TunProxy.Vpn

open Native (Bytes)
open Lib CommonMethods NatSessionManager

variable {env : Env} {s s' : Service} {data : Bytes} {size : Nat} {clock : Clock} {out : Option Bytes}
  {k : Int} {e : NatSession}

/-! ## Connections -/

/-- A connection of a client: its port, and the address and port it is to. -/
structure Conn where
  sport : BitVec 16
  dest : BitVec 32
  dport : BitVec 16
  deriving DecidableEq, Repr

/-- The connection of a packet a client sends. -/
def clientConn (s : Service) (data : Bytes) : Option Conn := do
  let protocol ← IPHeader.getProtocol data
  let offset ← IPHeader.getHeaderLength data
  let source ← IPHeader.getSourceIP data
  let sport ← TCPHeader.getSourcePort data offset
  let dest ← IPHeader.getDestinationIP data
  let dport ← TCPHeader.getDestinationPort data offset
  if protocol = IPHeader.TCP ∧ source = s.localIP ∧ sport ≠ s.port then return { sport, dest, dport } else none

/-- The connection of the latest packet clients sent from the port. -/
def latest (s : Service) (sport : BitVec 16) (is : List Input) : Option Conn :=
  is.foldl (fun last i =>
    match i with
    | .packet data _ _ =>
        match clientConn s data with
        | some c => if c.sport = sport then some c else last
        | none => last
    | .accepted _ _ => last) none

/-- Source and destination of a packet. -/
def fourTuple (data : Bytes) : Option (BitVec 32 × BitVec 16 × BitVec 32 × BitVec 16) := do
  let offset ← IPHeader.getHeaderLength data
  return (← IPHeader.getSourceIP data, ← TCPHeader.getSourcePort data offset,
    ← IPHeader.getDestinationIP data, ← TCPHeader.getDestinationPort data offset)

/-- Source and destination of the packets of a connection on their way to the local server. -/
def Conn.rewritten (s : Service) (c : Conn) : BitVec 32 × BitVec 16 × BitVec 32 × BitVec 16 :=
  (c.dest, c.sport, s.localIP, s.port)

/-- A packet of the local server in the connection it has accepted for `c`. -/
def Conn.answers (s : Service) (c : Conn) (data : Bytes) : Prop :=
  fourTuple data = some (s.localIP, s.port, c.dest, c.sport)

/-! ## The table -/

theorem countPacket_dest (env : Env) (t : Sessions) (k : Int) (ip : BitVec 32) (port : BitVec 16) (clock : Clock) :
    (countPacket env t k ip port clock).2.remoteIP = ip ∧
      (countPacket env t k ip port clock).2.remotePort = port := by
  rcases countPacket_snd env t k ip port clock with
    ⟨e, he, h⟩ | ⟨-, host, h⟩
  · rw [h]
    exact (sessionOf_eq_some.1 he).2
  · rw [h]
    exact ⟨rfl, rfl⟩

theorem countPacket_counters (env : Env) (t : Sessions) (k : Int) (ip : BitVec 32) (port : BitVec 16) (clock : Clock) :
    (countPacket env t k ip port clock).2.packetSent = (sessionOf t k ip port).elim 0 (·.packetSent) + 1 ∧
      (countPacket env t k ip port clock).2.bytesSent = (sessionOf t k ip port).elim 0 (·.bytesSent) := by
  rcases countPacket_snd env t k ip port clock with ⟨e, he, h⟩ | ⟨he, host, h⟩
  · rw [h, he]
    exact ⟨rfl, rfl⟩
  · rw [h, he]
    exact ⟨rfl, rfl⟩

/-- How many bytes of data a TCP packet has. -/
def tcpDataSize (data : Bytes) : Option Int := do
  let offset ← IPHeader.getHeaderLength data
  return (← IPHeader.getDataLength data) - (← TCPHeader.getHeaderLength data offset)

/-- The session of a packet with `n` bytes of data, once it is handled: the one that was found, or a new one. -/
structure Counts (c : Conn) (found : Option NatSession) (n : Int) (e : NatSession) : Prop where
  remoteIP : e.remoteIP = c.dest
  remotePort : e.remotePort = c.dport
  packetSent : e.packetSent = found.elim 0 (·.packetSent) + 1
  bytesSent : e.bytesSent = found.elim 0 (·.bytesSent) + BitVec.ofInt 32 n

/-- What handling a packet does to the table. -/
inductive Handled (s s' : Service) (data : Bytes) : Prop
  | server (hc : clientConn s data = none) (h : ∀ k e, s'.sessions.lookup k = some e →
      ∃ e₀, s.sessions.lookup k = some e₀ ∧ e = { e₀ with lastNanoTime := e.lastNanoTime })
  | client (c : Conn) (n : Int) (hc : clientConn s data = some c) (hn : tcpDataSize data = some n)
      (h : ∀ k e, s'.sessions.lookup k = some e →
        (k = c.sport.toInt ∧ Counts c (sessionOf s.sessions k c.dest c.dport) n e) ∨
          (k ≠ c.sport.toInt ∧ s.sessions.lookup k = some e))

theorem clientConn_eq_some {c : Conn} : clientConn s data = some c ↔
    IPHeader.getProtocol data = some IPHeader.TCP ∧ IPHeader.getSourceIP data = some s.localIP ∧ c.sport ≠ s.port ∧
      ∃ offset, IPHeader.getHeaderLength data = some offset ∧
        TCPHeader.getSourcePort data offset = some c.sport ∧ IPHeader.getDestinationIP data = some c.dest ∧
        TCPHeader.getDestinationPort data offset = some c.dport := by
  simp only [clientConn, Option.bind_eq_bind, Option.bind_eq_some_iff]
  constructor
  · rintro ⟨p, hp, o, ho, a, ha, sp, hsp, d, hd, dp, hdp, h⟩
    split at h
    · rename_i hc
      cases h
      exact ⟨by rw [hp, hc.1], by rw [ha, hc.2.1], hc.2.2, o, ho, hsp, hd, hdp⟩
    · cases h
  · rintro ⟨hp, ha, hs, o, ho, hsp, hd, hdp⟩
    exact ⟨_, hp, o, ho, _, ha, _, hsp, _, hd, _, hdp, if_pos ⟨rfl, rfl, hs⟩⟩

theorem fromServer_sessions {offset : Nat} (h : fromServer s data size offset clock = some (s', out)) :
    ∃ k, s' = { s with sessions := (getSession s.sessions k clock.get).1 } := by
  simp only [fromServer, Option.bind_eq_bind, Option.bind_eq_some_iff] at h
  obtain ⟨dport, -, h⟩ := h
  refine ⟨dport.toInt, ?_⟩
  cases hf : (getSession s.sessions dport.toInt clock.get).2 with
  | none =>
      rw [hf] at h
      cases h
      rfl
  | some e =>
      rw [hf] at h
      simp only [Option.bind_eq_some_iff] at h
      obtain ⟨_, -, _, -, _, -, _, -, _, -, h⟩ := h
      cases h
      rfl

theorem lookup_insert_countPacket {t : Sessions} {k' : Int} {ip : BitVec 32} {port : BitVec 16} {e' : NatSession}
    (h : ((countPacket env t k ip port clock).1.insert k e').lookup k' = some e) :
    (k' = k ∧ e = e') ∨ (k' ≠ k ∧ t.lookup k' = some e) := by
  by_cases hk : k' = k
  · subst hk
    rw [AList.lookup_insert] at h
    cases h
    exact .inl ⟨rfl, rfl⟩
  · rw [AList.lookup_insert_ne hk] at h
    rcases lookup_countPacket h with ⟨hk', -⟩ | h
    · exact absurd hk' hk
    · exact .inr h

theorem fromClient_sessions {offset : Nat} (h : fromClient env s data size offset clock = some (s', out)) :
    ∃ (c : Conn) (l : Int) (m : Nat), TCPHeader.getSourcePort data offset = some c.sport ∧
      IPHeader.getDestinationIP data = some c.dest ∧ TCPHeader.getDestinationPort data offset = some c.dport ∧
      IPHeader.getDataLength data = some l ∧ TCPHeader.getHeaderLength data offset = some m ∧
      s'.localIP = s.localIP ∧ s'.port = s.port ∧ ∀ k e, s'.sessions.lookup k = some e →
        (k = c.sport.toInt ∧ Counts c (sessionOf s.sessions k c.dest c.dport) (l - m) e) ∨
          (k ≠ c.sport.toInt ∧ s.sessions.lookup k = some e) := by
  simp only [fromClient, Option.bind_eq_bind, Option.bind_eq_some_iff] at h
  obtain ⟨sport, hs, dest, hd, dport, hdp, l, hl, m, hm, h⟩ := h
  refine ⟨⟨sport, dest, dport⟩, l, m, hs, hd, hdp, hl, hm, ?_⟩
  obtain ⟨hip, hport⟩ := countPacket_dest env s.sessions sport.toInt dest dport clock
  obtain ⟨hpackets, hbytes⟩ := countPacket_counters env s.sessions sport.toInt dest dport clock
  split at h
  · rename_i hwithheld
    cases h
    refine ⟨rfl, rfl, ?_⟩
    intro k e he
    rcases lookup_countPacket he with ⟨rfl, rfl⟩ | he
    · refine .inl ⟨rfl, hip, hport, hpackets, ?_⟩
      rw [hbytes, hwithheld.2]
      exact (BitVec.add_zero _).symm
    · exact .inr he
  · simp only [Option.bind_eq_some_iff] at h
    obtain ⟨n, hn, _, -, _, -, _, -, _, -, h⟩ := h
    cases h
    refine ⟨rfl, rfl, ?_⟩
    intro k e he
    rcases lookup_insert_countPacket he with ⟨rfl, rfl⟩ | he
    · exact .inl ⟨rfl, by simpa using hip, by simpa using hport, by simpa using hpackets,
        by simp only [findHost_bytesSent, hbytes]⟩
    · exact .inr he

theorem onIPPacketReceived_handled (h : onIPPacketReceived env s data size clock = some (s', out)) :
    s'.localIP = s.localIP ∧ s'.port = s.port ∧ Handled s s' data := by
  have hsame : clientConn s data = none → s' = s → s'.localIP = s.localIP ∧ s'.port = s.port ∧ Handled s s' data := by
    rintro hc rfl
    exact ⟨rfl, rfl, .server hc fun k e he => ⟨e, he, rfl⟩⟩
  have hnone : (∀ c, clientConn s data ≠ some c) → clientConn s data = none := Option.eq_none_iff_forall_ne_some.2
  simp only [onIPPacketReceived, Option.bind_eq_bind, Option.bind_eq_some_iff] at h
  obtain ⟨proto, hp, h⟩ := h
  split at h
  · rename_i htcp
    simp only [Option.bind_eq_some_iff] at h
    obtain ⟨offset, ho, source, ha, h⟩ := h
    split at h
    · rename_i hsource
      obtain ⟨sport, hs, h⟩ := Option.bind_eq_some_iff.1 h
      split at h
      · -- a packet of the server
        rename_i hport
        obtain ⟨k, rfl⟩ := fromServer_sessions h
        refine ⟨rfl, rfl, .server (hnone ?_) ?_⟩
        · intro c hc
          obtain ⟨-, -, hne, o, ho', hs', -⟩ := clientConn_eq_some.1 hc
          cases ho.symm.trans ho'
          cases hs.symm.trans hs'
          exact hne hport
        · intro k e he
          exact lookup_getSession he
      · -- a packet of a client
        rename_i hport
        subst htcp hsource
        obtain ⟨c, l, m, hcs, hcd, hcp, hdata, hheader, hip, hpt, hl⟩ := fromClient_sessions h
        have hn : tcpDataSize data = some (l - m) := by simp [tcpDataSize, ho, hdata, hheader]
        refine ⟨hip, hpt, .client c _ (clientConn_eq_some.2 ⟨hp, ?_, ?_, offset, ho, hcs, hcd, hcp⟩) hn hl⟩
        · exact ha
        · cases hs.symm.trans hcs
          exact hport
    · rename_i hsource
      cases h
      refine hsame (hnone ?_) rfl
      intro c hc
      obtain ⟨-, ha', -⟩ := clientConn_eq_some.1 hc
      cases ha.symm.trans ha'
      exact hsource rfl
  · rename_i htcp
    cases h
    refine hsame (hnone ?_) rfl
    intro c hc
    obtain ⟨hp', -⟩ := clientConn_eq_some.1 hc
    cases hp.symm.trans hp'
    exact htcp rfl

/-! ## Runs -/

/-- Every session is for the destination of the latest packet from its port. -/
structure Latest (s₀ : Service) (is : List Input) (s : Service) : Prop where
  localIP : s.localIP = s₀.localIP
  port : s.port = s₀.port
  sessions : ∀ (sport : BitVec 16) e, s.sessions.lookup sport.toInt = some e →
    ∃ c, latest s₀ sport is = some c ∧ c.sport = sport ∧ c.dest = e.remoteIP ∧ c.dport = e.remotePort

theorem latest_packet {is : List Input} {sport : BitVec 16} :
    latest s sport (is ++ [.packet data size clock]) = match clientConn s data with
      | some c => if c.sport = sport then some c else latest s sport is
      | none => latest s sport is := by
  rw [latest, List.foldl_append]
  rfl

theorem latest_accepted {is : List Input} {sport port : BitVec 16} {now : BitVec 64} :
    latest s sport (is ++ [.accepted port now]) = latest s sport is := by
  rw [latest, List.foldl_append]
  rfl

theorem latest_react {s₀ : Service} {is : List Input} {i : Input} (hl : Latest s₀ is s)
    (h : react env s i = some (s', out)) : Latest s₀ (is ++ [i]) s' := by
  obtain ⟨hip, hport, hs⟩ := hl
  cases i with
  | packet data size clock =>
      obtain ⟨h₁, h₂, hh⟩ := onIPPacketReceived_handled h
      have hconn : clientConn s₀ data = clientConn s data := by simp only [clientConn, hip, hport]
      refine ⟨h₁.trans hip, h₂.trans hport, ?_⟩
      intro sport e he
      rw [latest_packet, hconn]
      cases hh with
      | server hc h =>
          obtain ⟨e₀, he₀, he⟩ := h _ _ he
          rw [hc, he]
          exact hs sport e₀ he₀
      | client c n hc hn h =>
          rw [hc]
          rcases h _ _ he with ⟨hk, hcounts⟩ | ⟨hk, he₀⟩
          · have hsp : c.sport = sport := BitVec.toInt_inj.1 hk.symm
            exact ⟨c, if_pos hsp, hsp, hcounts.remoteIP.symm, hcounts.remotePort.symm⟩
          · have hsp : c.sport ≠ sport := fun h => hk (by rw [h])
            simp only [if_neg hsp]
            exact hs sport e he₀
  | accepted port now =>
      cases h
      refine ⟨hip, hport, ?_⟩
      intro sport e he
      rw [latest_accepted]
      obtain ⟨e₀, he₀, he'⟩ := lookup_getSession he
      rw [he']
      exact hs sport e₀ he₀

/-- A run of the service from its start to a state in which it still runs. -/
def Reaches (env : Env) (s₀ : Service) (is : List Input) (s : Service) : Prop :=
  s₀.sessions = ∅ ∧ is.foldl (step env) (some s₀) = some s

theorem latest_of_run {s₀ : Service} {is : List Input} (h : Reaches env s₀ is s) : Latest s₀ is s := by
  have hrun := Run.ofList (step env) (some s₀) is
  refine hrun.invariant (I := fun is o => ∀ s, o = some s → Latest s₀ is s) ?_ ?_ s h.2
  · intro s hs
    cases hs
    refine ⟨rfl, rfl, ?_⟩
    intro sport e he
    rw [h.1] at he
    cases he
  · intro is o i ih _ s' hs'
    simp only [step, Option.bind_eq_bind, Option.bind_eq_some_iff] at hs'
    obtain ⟨s, hs, ⟨s'', out⟩, hr, h'⟩ := hs'
    cases h'
    exact latest_react (ih s hs) hr

/-! ## Source and destination of what is written -/

theorem Rewritten.fourTuple {p : Bytes} {header port : Nat} {source dest : BitVec 32} {sport dport : BitVec 16}
    (h : Rewritten data p size header port source dest sport dport) (hd : IsTcp data size header)
    (hport : header ≤ port) : Vpn.fourTuple p = some (source, sport, dest, dport) := by
  have hm := hd.minimal
  obtain ⟨t, -, ht, hts⟩ := hd.total
  have h₀ : p[0]? = data[0]? :=
    h.same 0 (by omega) (by simp [addressField]; omega) (by simp [checksumField])
  have hl : IPHeader.getHeaderLength p = some header := by
    rw [IPHeader.getHeaderLength, h₀]
    exact hd.headerLength
  simp [Vpn.fourTuple, hl, h.source, h.dest, h.sourcePort, h.destPort]

theorem Segment.fourTuple {g : Segment} (hg : Segment.read data = some g) :
    Vpn.fourTuple data = some (g.source, g.sport, g.dest, g.dport) := by
  obtain ⟨hl, hs, hd, hsp, hdp, -⟩ := Segment.read_inv hg
  simp [Vpn.fourTuple, hl, hs, hd, hsp, hdp]

theorem clientConn_eq {g : Segment} (h : IsTcp data size g.header) (hg : Segment.read data = some g) :
    clientConn s data = if g.source = s.localIP ∧ g.sport ≠ s.port then some ⟨g.sport, g.dest, g.dport⟩ else none := by
  obtain ⟨hl, hs, hd, hsp, hdp, -⟩ := Segment.read_inv hg
  simp [clientConn, h.protocol, hl, hs, hd, hsp, hdp]

/-- Two connections look the same to the local server exactly when they share the client's port and the address
they are to. The packets of a client go there as packets of the address they are for. What the server answers
goes back to the client from that address, but from the port the latest packet from the client's port was for. -/
theorem nat_of_run {s₀ : Service} {is : List Input} {header : Nat} {p : Bytes} (h : Reaches env s₀ is s)
    (hp : IsTcp data size header) (hr : onIPPacketReceived env s data size clock = some (s', some p)) :
    (∀ c c' : Conn, c.rewritten s₀ = c'.rewritten s₀ ↔ c.sport = c'.sport ∧ c.dest = c'.dest) ∧
      (∀ c, clientConn s₀ data = some c → fourTuple p = some (c.rewritten s₀)) ∧
      ∀ c : Conn, c.answers s₀ data → ∃ last, latest s₀ c.sport is = some last ∧
        fourTuple p = some (c.dest, last.dport, s₀.localIP, c.sport) := by
  obtain ⟨hip, hport, hl⟩ := latest_of_run h
  obtain ⟨g, hg, rfl⟩ := hp.read
  refine ⟨by simp [Conn.rewritten, and_comm], ?_, ?_⟩
  · intro c hc
    rw [clientConn_eq hp hg] at hc
    split at hc
    · rename_i hcl
      cases hc
      rw [onIPPacketReceived_eq hp hg, hip, hport, if_pos hcl.1, if_neg hcl.2] at hr
      rcases fromClient_spec env s clock hp hg with
        ⟨-, -, hrun⟩ | ⟨p', -, hrun, hrw⟩
      · rw [hrun] at hr
        cases hr
      · rw [hrun] at hr
        cases hr
        rw [hrw.fourTuple hp (by omega), hip, hport]
        rfl
    · cases hc
  · intro c hc
    rw [Conn.answers, Segment.fourTuple hg] at hc
    simp only [Option.some.injEq, Prod.mk.injEq] at hc
    obtain ⟨hsource, hsport, hdest, hdport⟩ := hc
    rw [onIPPacketReceived_eq hp hg, hip, hport, if_pos hsource, if_pos hsport] at hr
    rcases fromServer_spec s clock hp hg with ⟨-, hrun⟩ | ⟨session, p', hs, hrun, hrw⟩
    · rw [hrun] at hr
      cases hr
    · rw [hrun] at hr
      cases hr
      rw [hdport] at hs
      obtain ⟨last, hlast, -, -, hdp⟩ := hl c.sport session hs
      refine ⟨last, hlast, ?_⟩
      rw [hrw.fourTuple hp (Nat.le_refl _), hip, hdp, hdest, hdport]

def clientSyn (dest : BitVec 32) (dport : BitVec 16) : Input :=
  .packet (tcpPacket 0x0A080002 dest 1000 dport TCPHeader.SYN 7 []) 40 ⟨0, 0, 0, 0⟩

/-- The local server accepts a connection from port 1000. -/
def synAck : Bytes := tcpPacket 0x0A080002 0x01010101 0x9C40 1000 (TCPHeader.SYN ||| TCPHeader.ACK) 9 []

theorem synAck_isTcp : IsTcp synAck 40 20 :=
  ⟨by decide, by decide, by decide, ⟨40, by decide, by decide, by decide⟩, by decide⟩

theorem nat_of_run_synAck : ∃ s s' p, Reaches asciiEnv startService [clientSyn 0x01010101 80] s ∧
    onIPPacketReceived asciiEnv s synAck 40 ⟨0, 0, 0, 0⟩ = some (s', some p) ∧
    fourTuple p = some (0x01010101, 80, 0x0A080002, 1000) := by
  have hw : (([clientSyn 0x01010101 80].foldl (step asciiEnv) (some startService)).bind fun s =>
      (onIPPacketReceived asciiEnv s synAck 40 ⟨0, 0, 0, 0⟩).bind (·.2)).isSome := by decide +kernel
  obtain ⟨p, hp⟩ := Option.isSome_iff_exists.1 hw
  simp only [Option.bind_eq_some_iff] at hp
  obtain ⟨s, hs, ⟨s', out⟩, hr, rfl⟩ := hp
  obtain ⟨last, hlast, ht⟩ := (nat_of_run ⟨rfl, hs⟩ synAck_isTcp hr).2.2 ⟨1000, 0x01010101, 80⟩ rfl
  have hl : latest startService 1000 [clientSyn 0x01010101 80] = some ⟨1000, 0x01010101, 80⟩ := by
    decide +kernel
  cases hl.symm.trans hlast
  exact ⟨s, s', p, ⟨rfl, hs⟩, hr, ht⟩

/-! ## Connections that are open at the same time -/

/-- The connection was opened by a SYN, and neither side has sent a FIN or RST in it since. -/
def isOpen (s : Service) (c : Conn) (is : List Input) : Bool :=
  is.foldl (fun o i =>
    match i with
    | .packet data _ _ =>
        match Segment.read data with
        | some g =>
            if clientConn s data = some c ∧ g.flags &&& TCPHeader.SYN ≠ 0 then true
            else if (clientConn s data = some c ∨ fourTuple data = some (s.localIP, s.port, c.dest, c.sport)) ∧
              g.flags &&& (TCPHeader.FIN ||| TCPHeader.RST) ≠ 0 then false
            else o
        | none => o
    | .accepted _ _ => o) false

/-- The local server can tell open connections apart. -/
def NeverClash (env : Env) (s₀ : Service) : Prop :=
  ∀ is s c c', Reaches env s₀ is s → isOpen s₀ c is → isOpen s₀ c' is → c.rewritten s₀ = c'.rewritten s₀ → c = c'

/-- What the local server answers in an open connection reaches the client as a packet of that connection. -/
def AnswersReturn (env : Env) (s₀ : Service) : Prop :=
  ∀ is s c data size header clock s' p, Reaches env s₀ is s → isOpen s₀ c is → IsTcp data size header →
    c.answers s₀ data → onIPPacketReceived env s data size clock = some (s', some p) →
    fourTuple p = some (c.dest, c.dport, s₀.localIP, c.sport)

theorem nat_clashes : ¬ NeverClash asciiEnv startService ∧ ¬ AnswersReturn asciiEnv startService := by
  constructor
  · intro h
    have := h [clientSyn 0x01010101 80, clientSyn 0x01010101 443] _ ⟨1000, 0x01010101, 80⟩ ⟨1000, 0x01010101, 443⟩
      ⟨rfl, (Option.some_get (by decide +kernel)).symm⟩ (by decide +kernel) (by decide +kernel) rfl
    cases this
  · intro h
    have hw : (([clientSyn 0x01010101 80, clientSyn 0x02020202 443].foldl (step asciiEnv)
        (some startService)).bind fun s => (onIPPacketReceived asciiEnv s synAck 40 ⟨0, 0, 0, 0⟩).bind
          fun r => r.2.bind fourTuple) = some (0x01010101, 443, 0x0A080002, 1000) := by decide +kernel
    simp only [Option.bind_eq_some_iff] at hw
    obtain ⟨s, hs, ⟨s', out⟩, hr, p, rfl, hp⟩ := hw
    have := h _ s ⟨1000, 0x01010101, 80⟩ synAck 40 20 _ s' p ⟨rfl, hs⟩ (by decide +kernel) synAck_isTcp rfl hr
    rw [hp] at this
    exact absurd this (by decide)

end TunProxy.Vpn
