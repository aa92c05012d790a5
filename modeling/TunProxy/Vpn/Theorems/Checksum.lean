import TunProxy.Vpn.Lemmas.Service

/-!
# Rewritten packets verify
-/

namespace TunProxy.Vpn

open Native (Bytes)
open Lib.OnesComplement CommonMethods

variable {env : Env} {s : Service} {data : Bytes} {size header : Nat} {clock : Clock}

/-- The port that is overwritten: the source's in a packet of the server, the destination's in one of a client. -/
def portField (s : Service) (data : Bytes) (header : Nat) : Nat :=
  if TCPHeader.getSourcePort data header = some s.port then header else header + 2

theorem portField_eq {g : Segment} (hg : Segment.read data = some g) :
    portField s data g.header = if g.sport = s.port then g.header else g.header + 2 := by
  obtain ⟨-, -, -, hsport, -⟩ := Segment.read_inv hg
  simp [portField, hsport]

/-- Handling a TCP packet throws nothing. If it is written back to the tun, in either direction, both of its
checksums verify, and no byte but those of the addresses, of the port and of the checksums changed. -/
theorem rewritten_verifies (env : Env) (s : Service) (clock : Clock) (h : IsTcp data size header) :
    ∃ s' out, onIPPacketReceived env s data size clock = some (s', out) ∧
      ∀ p, out = some p → p.length = size ∧ sum16 (ipHeader p header) = 0xFFFF ∧
        (∀ total, IPHeader.getTotalLength data = some total → sum16 (pseudoSegment p header total) = 0xFFFF) ∧
        ∀ i, i < size → ¬ addressField (portField s data header) i → ¬ checksumField header i →
          p[i]? = data[i]? := by
  obtain ⟨g, hg, rfl⟩ := h.read
  rw [onIPPacketReceived_eq h hg, portField_eq hg]
  by_cases hlocal : g.source = s.localIP
  · rw [if_pos hlocal]
    by_cases hport : g.sport = s.port
    · rw [if_pos hport, if_pos hport]
      rcases fromServer_spec s clock h hg with ⟨-, hrun⟩ | ⟨session, p, -, hrun, hp⟩
      · exact ⟨_, _, hrun, fun p hp => by cases hp⟩
      · refine ⟨_, _, hrun, ?_⟩
        intro p' hp'
        cases hp'
        exact ⟨hp.length, hp.ipSum, hp.tcpSum, hp.same⟩
    · rw [if_neg hport, if_neg hport]
      rcases fromClient_spec env s clock h hg with ⟨-, -, hrun⟩ | ⟨p, -, hrun, hp⟩
      · exact ⟨_, _, hrun, fun p hp => by cases hp⟩
      · refine ⟨_, _, hrun, ?_⟩
        intro p' hp'
        cases hp'
        exact ⟨hp.length, hp.ipSum, hp.tcpSum, hp.same⟩
  · rw [if_neg hlocal]
    exact ⟨_, _, rfl, fun p hp => by cases hp⟩

/-- A client's first packet, with three bytes of data. -/
theorem rewritten_verifies_syn :
    let data := tcpPacket 0x0A080002 0x01010101 1000 80 TCPHeader.SYN 7 [1, 2, 3]
    ∃ s' p, onIPPacketReceived asciiEnv startService data 43 ⟨0, 0, 0, 0⟩ = some (s', some p) ∧
      sum16 (ipHeader p 20) = 0xFFFF ∧ sum16 (pseudoSegment p 20 43) = 0xFFFF := by
  intro data
  obtain ⟨s', out, hrun, hout⟩ := rewritten_verifies asciiEnv startService ⟨0, 0, 0, 0⟩
    (show IsTcp data 43 20 from ⟨by decide, by decide, by decide, ⟨43, by decide, by decide, by decide⟩, by decide⟩)
  have hw : ((onIPPacketReceived asciiEnv startService data 43 ⟨0, 0, 0, 0⟩).bind (·.2)).isSome := by
    decide +kernel
  rw [hrun] at hw
  obtain ⟨p, rfl⟩ := Option.isSome_iff_exists.1 hw
  obtain ⟨-, hip, htcp, -⟩ := hout p rfl
  exact ⟨s', p, hrun, hip, htcp 43 (by decide)⟩

end TunProxy.Vpn
