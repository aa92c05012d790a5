import TunProxy.Vpn.Lemmas.Host
import TunProxy.Vpn.Theorems.Counters

/-!
# What the local server knows when it accepts

The service withholds the second packet of a session when it has no data, taking it for the handshake's ACK. It
counts the packets of a session, which is not what the connection has sent when packets are sent again or the
port is used again for the same destination.
-/

namespace TunProxy.Vpn

open Native (Bytes)
open CommonMethods NatSessionManager HttpHostHeaderParser

variable {env : Env} {s s' s₀ : Service} {data : Bytes} {size : Nat} {clock : Clock} {out : Option Bytes}
  {c : Conn} {g : Segment} {pre is : List Input} {host : List Char}

/-! ## Connections of clients -/

def Segment.syn (g : Segment) : Bool := g.flags &&& TCPHeader.SYN ≠ 0

/-- No SYN, FIN or RST, and no data. -/
def Segment.bareAck (g : Segment) : Prop :=
  g.flags &&& (TCPHeader.SYN ||| TCPHeader.FIN ||| TCPHeader.RST) = 0 ∧ g.dataSize = 0

/-- The packet would make the local server accept the connection. -/
def Segment.completes (g : Segment) : Prop :=
  g.flags &&& TCPHeader.ACK ≠ 0 ∧ g.flags &&& (TCPHeader.SYN ||| TCPHeader.RST) = 0

/-- The connection now using a port and destination: its first sequence number, and whether it has sent data. -/
structure Track where
  isn : BitVec 32
  data : Bool
  deriving DecidableEq, Repr

/-- A SYN starts a connection, unless it is the SYN of the present one sent again. -/
def continued (t : Option Track) (g : Segment) : Option Track :=
  if g.syn ∧ t.map (·.isn) ≠ some g.seq then some { isn := g.seq, data := false } else t

def tracked (s : Service) (c : Conn) (is : List Input) : Option Track :=
  is.foldl (fun t i =>
    match i with
    | .packet data _ _ =>
        match Segment.read data with
        | some g =>
            if clientConn s data = some c then
              (continued t g).map fun t => { t with data := t.data || 0 < g.dataSize }
            else t
        | none => t
    | .accepted _ _ => t) none

/-- After the inputs `pre` the service, in the state `s`, handles a packet of the connection `c`. -/
structure Handles (env : Env) (s₀ : Service) (pre : List Input) (s : Service) (c : Conn) (data : Bytes)
    (size : Nat) (g : Segment) : Prop where
  reaches : Reaches env s₀ pre s
  isTcp : IsTcp data size g.header
  read : Segment.read data = some g
  conn : clientConn s₀ data = some c

def hostIn (env : Env) (data : Bytes) (g : Segment) : Option (List Char) :=
  parseHost env.charset data g.dataOffset g.dataSize.toNat

/-- The packet is the first with data in the connection with the first sequence number `isn`; the parser finds a
host in it. -/
def FirstData (env : Env) (s₀ : Service) (pre : List Input) (c : Conn) (data : Bytes) (g : Segment)
    (isn : BitVec 32) (host : List Char) : Prop :=
  clientConn s₀ data = some c ∧ Segment.read data = some g ∧
    continued (tracked s₀ c pre) g = some { isn, data := false } ∧ 0 < g.dataSize ∧ hostIn env data g = some host

/-- In the run `is`, what is withheld are bare ACKs, nothing makes the server accept before the first data of a
connection that names its host there, and by then the session has that host. -/
structure HostKnown (env : Env) (s₀ : Service) (is : List Input) : Prop where
  withheld : ∀ pre data size clock post s s' c g, is = pre ++ .packet data size clock :: post →
    Handles env s₀ pre s c data size g → onIPPacketReceived env s data size clock = some (s', none) → g.bareAck
  early : ∀ pre data size clock mid data' size' clock' post s c g g' isn host,
    is = pre ++ .packet data size clock :: (mid ++ .packet data' size' clock' :: post) →
    Handles env s₀ pre s c data size g → g.completes → g.dataSize = 0 →
    tracked s₀ c pre = some { isn, data := false } →
    FirstData env s₀ (pre ++ .packet data size clock :: mid) c data' g' isn host →
    ∃ s', onIPPacketReceived env s data size clock = some (s', none)
  known : ∀ pre data size clock post s c g isn host, is = pre ++ .packet data size clock :: post →
    Handles env s₀ pre s c data size g → FirstData env s₀ pre c data g isn host →
    ∃ s' p e, onIPPacketReceived env s data size clock = some (s', some p) ∧
      s'.sessions.lookup c.sport.toInt = some e ∧ e.remoteHost = host

/-- The counters of the sessions agree with the connections: the packet without data that is second in its session
is a bare ACK; an ACK without data before the first data is second in its session; at the first data nothing was
counted as sent (or the host is known from a connection before). -/
structure Counted (env : Env) (s₀ : Service) (is : List Input) : Prop where
  second : ∀ pre data size clock post s c g, is = pre ++ .packet data size clock :: post →
    Handles env s₀ pre s c data size g → (∃ e, before s c = some e ∧ e.packetSent = 1) → g.dataSize = 0 →
    g.bareAck
  ack : ∀ pre data size clock mid data' size' clock' post s c g g' isn host,
    is = pre ++ .packet data size clock :: (mid ++ .packet data' size' clock' :: post) →
    Handles env s₀ pre s c data size g → g.completes → g.dataSize = 0 →
    tracked s₀ c pre = some { isn, data := false } →
    FirstData env s₀ (pre ++ .packet data size clock :: mid) c data' g' isn host →
    ∃ e, before s c = some e ∧ e.packetSent = 1
  first : ∀ pre data size clock post s c g isn host, is = pre ++ .packet data size clock :: post →
    Handles env s₀ pre s c data size g → FirstData env s₀ pre c data g isn host →
    ∀ e, before s c = some e → e.bytesSent = 0 ∨ e.remoteHost = host

/-- What these conditions ask for, in terms of the client: how many packets it has sent in the connection since the
session was created, and how much data. -/
theorem Handles.counters {e : NatSession} (h : Handles env s₀ pre s c data size g) (he : before s c = some e) :
    ∃ pre' since s₁, pre = pre' ++ since ∧ Reaches env s₀ pre' s₁ ∧ before s₁ c = none ∧ Sole s₀ c since ∧
      (e.packetSent = 1 ↔ (sizes s₀ c since).length % 2 ^ 32 = 1) ∧
      (e.bytesSent = 0 ↔ (2 : Int) ^ 32 ∣ (sizes s₀ c since).sum) := by
  obtain ⟨pre', since, s₁, hpre, hreach, hnone, hsole, hpackets, hbytes⟩ := counters_of_run h.reaches he
  refine ⟨pre', since, s₁, hpre, hreach, hnone, hsole, ?_, ?_⟩
  · rw [hpackets, ← BitVec.toNat_inj, BitVec.toNat_ofNat]
    rfl
  · rw [hbytes, ← BitVec.toNat_inj, BitVec.toNat_ofInt, Int.dvd_iff_emod_eq_zero]
    have hnonneg := Int.emod_nonneg (sizes s₀ c since).sum (b := (2 : Int) ^ 32) (by decide)
    constructor
    · intro h
      have h : ((sizes s₀ c since).sum % (2 : Int) ^ 32).toNat = 0 := h
      omega
    · intro h
      show ((sizes s₀ c since).sum % (2 : Int) ^ 32).toNat = 0
      omega

/-! ## One packet -/

theorem Handles.fromClient (clock : Clock) (h : Handles env s₀ pre s c data size g) :
    onIPPacketReceived env s data size clock = Vpn.fromClient env s data size g.header clock ∧
      counted env s g clock = countPacket env s.sessions c.sport.toInt c.dest c.dport clock := by
  obtain ⟨hr, hw, hg, hc⟩ := h
  obtain ⟨hip, hport, -⟩ := latest_of_run hr
  rw [clientConn_eq hw hg] at hc
  split at hc
  · rename_i hcl
    cases hc
    rw [onIPPacketReceived_eq hw hg, hip, hport, if_pos hcl.1, if_neg hcl.2]
    exact ⟨rfl, rfl⟩
  · cases hc

theorem packetSent_countPacket (env : Env) (clock : Clock) {t : Sessions} {k : Int} {ip : BitVec 32}
    {port : BitVec 16} :
    (countPacket env t k ip port clock).2.packetSent = 2 ↔
      ∃ e, sessionOf t k ip port = some e ∧ e.packetSent = 1 := by
  rcases countPacket_snd env t k ip port clock with
    ⟨e, he, h⟩ | ⟨he, host, h⟩
  · rw [h, he]
    simp only [Option.some.injEq, exists_eq_left']
    constructor
    · intro h2
      bv_omega
    · intro h1
      rw [h1]
      rfl
  · rw [h, he]
    simp

/-- The packet is withheld exactly when it is the second of its session and has no data. -/
theorem Handles.withheld_iff (clock : Clock) (h : Handles env s₀ pre s c data size g) :
    (∃ s', onIPPacketReceived env s data size clock = some (s', none)) ↔
      (∃ e, before s c = some e ∧ e.packetSent = 1) ∧ g.dataSize = 0 := by
  obtain ⟨heq, hc⟩ := h.fromClient clock
  rw [heq, before, ← packetSent_countPacket env clock, ← hc]
  rcases fromClient_spec env s clock h.isTcp h.read with
    ⟨h₂, h₀, hrun⟩ | ⟨p, hn, hrun, -⟩
  · rw [hrun]
    exact ⟨fun _ => ⟨h₂, h₀⟩, fun _ => ⟨_, rfl⟩⟩
  · rw [hrun]
    refine ⟨?_, fun h' => absurd h' hn⟩
    rintro ⟨s', hs'⟩
    cases hs'

/-- A packet with data is forwarded. The session then has the host in the data, unless data was counted before. -/
theorem Handles.host_iff (clock : Clock) (h : Handles env s₀ pre s c data size g) (hpos : 0 < g.dataSize)
    (hhost : hostIn env data g = some host) :
    ∃ s' p e, onIPPacketReceived env s data size clock = some (s', some p) ∧
      s'.sessions.lookup c.sport.toInt = some e ∧
      (e.remoteHost = host ↔ ∀ e, before s c = some e → e.bytesSent = 0 ∨ e.remoteHost = host) := by
  obtain ⟨heq, hc⟩ := h.fromClient clock
  have hsport : g.sport = c.sport := by
    have hconn := h.conn
    rw [clientConn_eq h.isTcp h.read] at hconn
    split at hconn
    · cases hconn
      rfl
    · cases hconn
  have h10 : 10 < g.dataSize := by
    have := count_of_parseHost hhost
    omega
  rcases fromClient_spec env s clock h.isTcp h.read with
    ⟨-, h₀, -⟩ | ⟨p, -, hrun, -⟩
  · omega
  · rw [heq, hrun]
    refine ⟨_, p, forwarded env (counted env s g clock).2 data g, rfl, ?_, ?_⟩
    · rw [hsport]
      exact AList.lookup_insert _
    · rw [hc, before]
      rcases countPacket_snd env s.sessions c.sport.toInt c.dest c.dport clock with ⟨e, he, hsnd⟩ | ⟨he, host', hsnd⟩
      · rw [hsnd, he]
        simp only [forwarded, findHost, Option.some.injEq, forall_eq']
        by_cases hb : e.bytesSent = 0
        · simp only [hostIn] at hhost
          simp [hb, h10, hhost]
        · rw [if_neg (fun h => hb h.1)]
          exact ⟨Or.inr, fun h => h.resolve_left hb⟩
      · rw [hsnd, he]
        simp only [hostIn] at hhost
        simp [forwarded, findHost, h10, hhost]

/-- The service knows the host in time, and withholds nothing else, in exactly the runs whose counters agree with
their connections. -/
theorem host_known_iff : HostKnown env s₀ is ↔ Counted env s₀ is := by
  constructor
  · intro h
    constructor
    · intro pre data size clock post s c g his hh hs h0
      obtain ⟨s', hs'⟩ := (hh.withheld_iff clock).2 ⟨hs, h0⟩
      exact h.withheld pre data size clock post s s' c g his hh hs'
    · intro pre data size clock mid data' size' clock' post s c g g' isn host his hh hcomp h0 ht hf
      have hw := h.early pre data size clock mid data' size' clock' post s c g g' isn host his hh hcomp h0 ht hf
      exact ((hh.withheld_iff clock).1 hw).1
    · intro pre data size clock post s c g isn host his hh hf
      obtain ⟨s₁, p, e, hrun, he, hiff⟩ := hh.host_iff clock hf.2.2.2.1 hf.2.2.2.2
      obtain ⟨s₂, p', e', hrun', he', hhost⟩ := h.known pre data size clock post s c g isn host his hh hf
      cases hrun.symm.trans hrun'
      cases he.symm.trans he'
      exact hiff.1 hhost
  · intro h
    constructor
    · intro pre data size clock post s s' c g his hh hw
      obtain ⟨hs, h0⟩ := (hh.withheld_iff clock).1 ⟨s', hw⟩
      exact h.second pre data size clock post s c g his hh hs h0
    · intro pre data size clock mid data' size' clock' post s c g g' isn host his hh hcomp h0 ht hf
      have hs := h.ack pre data size clock mid data' size' clock' post s c g g' isn host his hh hcomp h0 ht hf
      exact (hh.withheld_iff clock).2 ⟨hs, h0⟩
    · intro pre data size clock post s c g isn host his hh hf
      obtain ⟨s₁, p, e, hrun, he, hiff⟩ := hh.host_iff clock hf.2.2.2.1 hf.2.2.2.2
      exact ⟨s₁, p, e, hrun, he, hiff.2 (h.first pre data size clock post s c g isn host his hh hf)⟩

/-! ## A SYN sent again -/

def httpRequest : Bytes := "GET / HTTP/1.1\r\nHost: a.b\r\n\r\n".toList.map fun ch => UInt8.ofNat ch.toNat

/-- A packet of the connection from port 1000. -/
def clientPacket (flags : UInt8) (seq : BitVec 32) (payload : Bytes) : Bytes :=
  tcpPacket 0x0A080002 0x01010101 1000 80 flags seq payload

def clientAck : Segment :=
  { header := 20, source := 0x0A080002, dest := 0x01010101, sport := 1000, dport := 80, flags := TCPHeader.ACK
    seq := 8, dataOffset := 40, dataSize := 0 }

def synTwice : List Input :=
  [.packet (clientPacket TCPHeader.SYN 7 []) 40 ⟨0, 0, 0, 0⟩, .packet (clientPacket TCPHeader.SYN 7 []) 40 ⟨0, 0, 0, 0⟩]

/-- The SYN is sent twice before the handshake's ACK and the request. The second SYN is withheld, the ACK is not. -/
def synAgain : List Input :=
  synTwice ++ .packet (clientPacket TCPHeader.ACK 8 []) 40 ⟨0, 0, 0, 0⟩ ::
    ([] ++ .packet (clientPacket TCPHeader.ACK 8 httpRequest) 69 ⟨0, 0, 0, 0⟩ :: [])

theorem ack_before_host : ¬ HostKnown asciiEnv startService synAgain := by
  intro h
  have hw : ((synTwice.foldl (step asciiEnv) (some startService)).bind fun s =>
      (onIPPacketReceived asciiEnv s (clientPacket TCPHeader.ACK 8 []) 40 ⟨0, 0, 0, 0⟩).bind (·.2)).isSome := by
    decide +kernel
  obtain ⟨p, hp⟩ := Option.isSome_iff_exists.1 hw
  simp only [Option.bind_eq_some_iff] at hp
  obtain ⟨s, hs, ⟨s', out⟩, hr, rfl⟩ := hp
  have hh : Handles asciiEnv startService synTwice s ⟨1000, 0x01010101, 80⟩ (clientPacket TCPHeader.ACK 8 []) 40
      clientAck :=
    ⟨⟨rfl, hs⟩, ⟨by decide, by decide, by decide, ⟨40, by decide, by decide, by decide⟩, by decide⟩,
      by decide +kernel, by decide +kernel⟩
  have hf : FirstData asciiEnv startService (synTwice ++ [.packet (clientPacket TCPHeader.ACK 8 []) 40 ⟨0, 0, 0, 0⟩])
      ⟨1000, 0x01010101, 80⟩ (clientPacket TCPHeader.ACK 8 httpRequest) { clientAck with dataSize := 29 } 7
      "a.b".toList :=
    ⟨by decide +kernel, by decide +kernel, by decide +kernel, by decide, by decide +kernel⟩
  obtain ⟨s'', hw'⟩ := h.early _ _ _ _ _ _ _ _ _ s _ _ _ 7 _ rfl hh ⟨by decide, by decide⟩ rfl
    (by decide +kernel) hf
  cases hr.symm.trans hw'

end TunProxy.Vpn
