import TunProxy.Vpn.Lemmas.Rewrite
import TunProxy.Vpn.Nat

/-!
# What the service does with a packet
-/

namespace TunProxy.Vpn

open Native (Bytes)
open Lib.Bytes Lib.OnesComplement CommonMethods NatSessionManager

variable {env : Env} {s : Service} {data : Bytes} {size header : Nat} {clock : Clock} {g : Segment}

/-! ## Reading -/

theorem Segment.read_inv (h : Segment.read data = some g) :
    IPHeader.getHeaderLength data = some g.header ∧ IPHeader.getSourceIP data = some g.source ∧
      IPHeader.getDestinationIP data = some g.dest ∧ TCPHeader.getSourcePort data g.header = some g.sport ∧
      TCPHeader.getDestinationPort data g.header = some g.dport ∧
      ∃ tcpHeader dataLength, TCPHeader.getHeaderLength data g.header = some tcpHeader ∧
        IPHeader.getDataLength data = some dataLength ∧ g.dataOffset = g.header + tcpHeader ∧
        g.dataSize = dataLength - tcpHeader := by
  simp only [Segment.read, Option.bind_eq_bind, Option.bind_eq_some_iff, Option.pure_def,
    Option.some.injEq] at h
  obtain ⟨header, h₁, source, h₂, dest, h₃, sport, h₄, dport, h₅, flags, h₆, seq, h₇, n, h₈, m, h₉, rfl⟩ := h
  exact ⟨h₁, h₂, h₃, h₄, h₅, n, m, h₈, h₉, rfl, rfl⟩

/-- A well-formed packet can be read. -/
theorem IsTcp.read (h : IsTcp data size header) : ∃ g, Segment.read data = some g ∧ g.header = header := by
  have hm := h.minimal
  obtain ⟨t, ht, hht, hts⟩ := h.total
  have hsize := h.size_le
  rw [Segment.read, h.headerLength]
  simp only [Option.bind_eq_bind, Option.bind_some]
  rw [IPHeader.getSourceIP, readInt_eq (by omega), Option.bind_some, IPHeader.getDestinationIP,
    readInt_eq (by omega), Option.bind_some, TCPHeader.getSourcePort, readShort_eq (by omega),
    Option.bind_some, TCPHeader.getDestinationPort, readShort_eq (by omega), Option.bind_some,
    TCPHeader.getFlags, List.getElem?_eq_getElem (by omega), Option.bind_some, TCPHeader.getSeqID,
    readInt_eq (by omega), Option.bind_some, TCPHeader.getHeaderLength, List.getElem?_eq_getElem (by omega),
    IPHeader.getDataLength, ht, h.headerLength]
  exact ⟨_, rfl, rfl⟩

/-! ## Packets of the server -/

/-- The array after the addresses and the source port were set is the one the checksums are computed for. -/
theorem rewrite_source (h : IsTcp data size g.header) (hg : Segment.read data = some g) (ip : BitVec 32)
    (port : BitVec 16) :
    ∃ data' b, (do
        let data ← IPHeader.setSourceIP data (← IPHeader.getDestinationIP data)
        let data ← TCPHeader.setSourcePort data g.header port
        let data ← IPHeader.setDestinationIP data ip
        computeTCPChecksum data g.header) = some (data', b) ∧
      Rewritten data (data'.take size) size g.header g.header g.dest ip port g.dport := by
  obtain ⟨-, -, hdest, -, hdport, -⟩ := Segment.read_inv hg
  have hm := h.minimal
  obtain ⟨t, ht, hht, hts⟩ := h.total
  have hsize := h.size_le
  have h₁ := h.patched (i := 12) (b := toBE 4 g.dest.toNat) (by omega) (by simp; omega)
  have hl₁ : (patch 12 (toBE 4 g.dest.toNat) data).length = data.length := length_patch (by simp; omega)
  have h₂ := h₁.patched (i := g.header) (b := toBE 2 port.toNat) (by omega) (by simp; omega)
  have hl₂ := length_patch (i := g.header) (b := toBE 2 port.toNat)
    (l := patch 12 (toBE 4 g.dest.toNat) data) (by simp; omega)
  have h₃ := h₂.patched (i := 16) (b := toBE 4 ip.toNat) (by omega) (by simp; omega)
  have hl₃ := length_patch (i := 16) (b := toBE 4 ip.toNat)
    (l := patch g.header (toBE 2 port.toNat) (patch 12 (toBE 4 g.dest.toNat) data)) (by simp; omega)
  rw [hdest]
  simp only [Option.bind_eq_bind, Option.bind_some]
  rw [IPHeader.setSourceIP, writeInt_eq (by omega), Option.bind_some, TCPHeader.setSourcePort,
    writeShort_eq (by omega), Option.bind_some, IPHeader.setDestinationIP, writeInt_eq (by omega),
    Option.bind_some]
  refine Rewritten.of_fields h h₃ (by omega) ?_ ?_ ?_ ?_ ?_ (Nat.le_refl _)
  · rw [IPHeader.getSourceIP, readInt_patch (by simp; omega) (by simp), readInt_patch (by simp; omega) (by omega),
      readInt_patch_self (by omega)]
  · exact readInt_patch_self (by omega)
  · rw [TCPHeader.getSourcePort, readShort_patch (by simp; omega) (by simp; omega),
      readShort_patch_self (by omega)]
  · rw [TCPHeader.getDestinationPort, readShort_patch (by simp; omega) (by simp; omega),
      readShort_patch (by simp; omega) (by simp), readShort_patch (by simp; omega) (by simp; omega)]
    exact hdport
  · intro i hi
    simp only [addressField] at hi
    rw [getElem?_patch_of_not (by simp; omega) (by simp; omega),
      getElem?_patch_of_not (by simp; omega) (by simp; omega),
      getElem?_patch_of_not (by simp; omega) (by simp; omega)]

/-- With a session, the packet comes from the address it is for and from the session's port. -/
theorem fromServer_spec (s : Service) (clock : Clock) (h : IsTcp data size g.header) (hg : Segment.read data = some g) :
    (s.sessions.lookup g.dport.toInt = none ∧
      fromServer s data size g.header clock = some (s, none)) ∨
    ∃ session p, s.sessions.lookup g.dport.toInt = some session ∧
      fromServer s data size g.header clock
        = some ({ s with sessions := (getSession s.sessions g.dport.toInt clock.get).1 }, some p) ∧
      Rewritten data p size g.header g.header g.dest s.localIP session.remotePort g.dport := by
  obtain ⟨-, -, -, -, hdport, -⟩ := Segment.read_inv hg
  cases hs : s.sessions.lookup g.dport.toInt with
  | none =>
      refine .inl ⟨rfl, ?_⟩
      rw [fromServer, hdport]
      simp [getSession, hs]
  | some session =>
      obtain ⟨data', b, hrun, hp⟩ := rewrite_source h hg s.localIP session.remotePort
      refine .inr ⟨session, data'.take size, rfl, ?_, hp⟩
      simp only [Option.bind_eq_bind, Option.bind_eq_some_iff] at hrun
      obtain ⟨dest, h₁, d₁, h₂, d₂, h₃, d₃, h₄, h₅⟩ := hrun
      simp [fromServer, hdport, getSession, hs, h₁, h₂, h₃, h₄, h₅]

/-! ## Packets of clients -/

theorem rewrite_dest (h : IsTcp data size g.header) (hg : Segment.read data = some g) (ip : BitVec 32)
    (port : BitVec 16) :
    ∃ data' b, (do
        let data ← IPHeader.setSourceIP data g.dest
        let data ← IPHeader.setDestinationIP data ip
        let data ← TCPHeader.setDestinationPort data g.header port
        computeTCPChecksum data g.header) = some (data', b) ∧
      Rewritten data (data'.take size) size g.header (g.header + 2) g.dest ip g.sport port := by
  obtain ⟨-, -, hdest, hsport, -, -⟩ := Segment.read_inv hg
  have hm := h.minimal
  obtain ⟨t, ht, hht, hts⟩ := h.total
  have hsize := h.size_le
  have h₁ := h.patched (i := 12) (b := toBE 4 g.dest.toNat) (by omega) (by simp; omega)
  have hl₁ : (patch 12 (toBE 4 g.dest.toNat) data).length = data.length := length_patch (by simp; omega)
  have h₂ := h₁.patched (i := 16) (b := toBE 4 ip.toNat) (by omega) (by simp; omega)
  have hl₂ := length_patch (i := 16) (b := toBE 4 ip.toNat)
    (l := patch 12 (toBE 4 g.dest.toNat) data) (by simp; omega)
  have h₃ := h₂.patched (i := g.header + 2) (b := toBE 2 port.toNat) (by omega) (by simp; omega)
  have hl₃ := length_patch (i := g.header + 2) (b := toBE 2 port.toNat)
    (l := patch 16 (toBE 4 ip.toNat) (patch 12 (toBE 4 g.dest.toNat) data)) (by simp; omega)
  simp only [Option.bind_eq_bind]
  rw [IPHeader.setSourceIP, writeInt_eq (by omega), Option.bind_some, IPHeader.setDestinationIP,
    writeInt_eq (by omega), Option.bind_some, TCPHeader.setDestinationPort, writeShort_eq (by omega),
    Option.bind_some]
  refine Rewritten.of_fields h h₃ (by omega) ?_ ?_ ?_ ?_ ?_ (by omega)
  · rw [IPHeader.getSourceIP, readInt_patch (by simp; omega) (by omega), readInt_patch (by simp; omega) (by simp),
      readInt_patch_self (by omega)]
  · rw [IPHeader.getDestinationIP, readInt_patch (by simp; omega) (by omega), readInt_patch_self (by omega)]
  · rw [TCPHeader.getSourcePort, readShort_patch (by simp; omega) (by omega),
      readShort_patch (by simp; omega) (by simp; omega), readShort_patch (by simp; omega) (by simp; omega)]
    exact hsport
  · exact readShort_patch_self (by omega)
  · intro i hi
    simp only [addressField] at hi
    rw [getElem?_patch_of_not (by simp; omega) (by simp; omega),
      getElem?_patch_of_not (by simp; omega) (by simp; omega),
      getElem?_patch_of_not (by simp; omega) (by simp; omega)]

/-- The session a packet is counted in. -/
def counted (env : Env) (s : Service) (g : Segment) (clock : Clock) : Sessions × NatSession :=
  countPacket env s.sessions g.sport.toInt g.dest g.dport clock

/-- The session after its packet was forwarded. -/
def forwarded (env : Env) (session : NatSession) (data : Bytes) (g : Segment) : NatSession :=
  let session := findHost env session data g.dataOffset g.dataSize
  { session with bytesSent := session.bytesSent + BitVec.ofInt 32 g.dataSize }

/-- The second packet of its session goes no further when it has no data, the others go to the local server. -/
theorem fromClient_spec (env : Env) (s : Service) (clock : Clock) (h : IsTcp data size g.header)
    (hg : Segment.read data = some g) :
    ((counted env s g clock).2.packetSent = 2 ∧ g.dataSize = 0 ∧
      fromClient env s data size g.header clock
        = some ({ s with sessions := (counted env s g clock).1 }, none)) ∨
    ∃ p, ¬ ((counted env s g clock).2.packetSent = 2 ∧ g.dataSize = 0) ∧
      fromClient env s data size g.header clock
        = some ({ s with
            sessions := (counted env s g clock).1.insert g.sport.toInt
              (forwarded env (counted env s g clock).2 data g) }, some p) ∧
      Rewritten data p size g.header (g.header + 2) g.dest s.localIP g.sport s.port := by
  obtain ⟨-, -, hdest, hsport, hdport, n, m, hn, hm, ho, hsz⟩ := Segment.read_inv hg
  by_cases hc : (counted env s g clock).2.packetSent = 2 ∧ g.dataSize = 0
  · refine .inl ⟨hc.1, hc.2, ?_⟩
    simp only [counted, hsz] at hc
    simp [fromClient, hdest, hsport, hdport, hn, hm, hc, counted]
  · obtain ⟨data', b, hrun, hp⟩ := rewrite_dest h hg s.localIP s.port
    refine .inr ⟨data'.take size, hc, ?_, hp⟩
    simp only [Option.bind_eq_bind, Option.bind_eq_some_iff] at hrun
    obtain ⟨d₁, h₁, d₂, h₂, d₃, h₃, h₄⟩ := hrun
    simp [fromClient, hdest, hsport, hdport, hn, hm, counted, h₁, h₂, h₃, h₄, ← ho, ← hsz]
    exact if_neg hc

/-! ## Packets -/

theorem onIPPacketReceived_eq (h : IsTcp data size g.header) (hg : Segment.read data = some g) :
    onIPPacketReceived env s data size clock
      = if g.source = s.localIP then
          if g.sport = s.port then fromServer s data size g.header clock
          else fromClient env s data size g.header clock
        else some (s, none) := by
  obtain ⟨-, hsource, -, hsport, -⟩ := Segment.read_inv hg
  simp [onIPPacketReceived, h.protocol, h.headerLength, hsource, hsport]

/-! ## A service and packets to try the theorems on -/

def asciiEnv : Env := { charset := .usAscii, reverseLookup := fun _ => none }

def startService : Service := { localIP := 0x0A080002, port := 0x9C40, sessions := ∅ }

/-- A packet without options. Its checksums are not filled in. -/
def tcpPacket (source dest : BitVec 32) (sport dport : BitVec 16) (flags : UInt8) (seq : BitVec 32)
    (payload : Bytes) : Bytes :=
  [0x45, 0] ++ toBE 2 (40 + payload.length) ++ [0, 0, 0, 0, 64, 6, 0, 0] ++ toBE 4 source.toNat
    ++ toBE 4 dest.toNat ++ toBE 2 sport.toNat ++ toBE 2 dport.toNat
    ++ toBE 4 seq.toNat ++ [0, 0, 0, 0, 0x50, flags, 0xFF, 0xFF, 0, 0, 0, 0] ++ payload

end TunProxy.Vpn
