import TunProxy.Vpn.Theorems.Transparency

/-!
# What the counters of a session count

`PacketSent` and `BytesSent` count the packets that the client has sent in the connection since its session was created,
and the bytes of data in them.
-/

namespace TunProxy.Vpn

open Native (Bytes)
open NatSessionManager

variable {env : Env} {s s' s₀ : Service} {data : Bytes} {size : Nat} {clock : Clock} {c : Conn} {e e₀ : NatSession}
  {is : List Input} {i : Input}

/-- The session the packets of `c` are counted in. -/
def before (s : Service) (c : Conn) : Option NatSession := sessionOf s.sessions c.sport.toInt c.dest c.dport

/-- How many bytes of data the packets of the connection have, one after the other. -/
def sizes (s : Service) (c : Conn) (is : List Input) : List Int :=
  is.filterMap fun
    | .packet data _ _ => if clientConn s data = some c then tcpDataSize data else none
    | .accepted _ _ => none

/-- All packets from the port of the connection are its own. -/
def Sole (s : Service) (c : Conn) (is : List Input) : Prop :=
  ∀ data size clock, .packet data size clock ∈ is → ∀ c', clientConn s data = some c' → c'.sport = c.sport → c' = c

/-- The session has counted the packets of `c` among the inputs. -/
structure CountedIn (s₀ : Service) (c : Conn) (is : List Input) (e : NatSession) : Prop where
  sole : Sole s₀ c is
  packetSent : e.packetSent = BitVec.ofNat 32 (sizes s₀ c is).length
  bytesSent : e.bytesSent = BitVec.ofInt 32 (sizes s₀ c is).sum

theorem CountedIn.snoc (h : CountedIn s₀ c is e₀) (hsole : Sole s₀ c [i])
    (hpackets : e.packetSent = e₀.packetSent + BitVec.ofNat 32 (sizes s₀ c [i]).length)
    (hbytes : e.bytesSent = e₀.bytesSent + BitVec.ofInt 32 (sizes s₀ c [i]).sum) : CountedIn s₀ c (is ++ [i]) e := by
  have hsizes : sizes s₀ c (is ++ [i]) = sizes s₀ c is ++ sizes s₀ c [i] := List.filterMap_append
  refine ⟨fun data size clock hmem => ?_, ?_, ?_⟩
  · rcases List.mem_append.1 hmem with hmem | hmem
    · exact h.sole data size clock hmem
    · exact hsole data size clock hmem
  · rw [hpackets, h.packetSent, hsizes, List.length_append, BitVec.ofNat_add]
  · rw [hbytes, h.bytesSent, hsizes, List.sum_append, BitVec.ofInt_add]

/-- An input that is no packet of the connection is not counted. -/
theorem CountedIn.other (h : CountedIn s₀ c is e₀) (hsole : Sole s₀ c [i]) (hi : sizes s₀ c [i] = [])
    (hpackets : e.packetSent = e₀.packetSent) (hbytes : e.bytesSent = e₀.bytesSent) :
    CountedIn s₀ c (is ++ [i]) e := by
  refine h.snoc hsole ?_ ?_
  · rw [hpackets, hi, List.length_nil]
    exact (BitVec.add_zero _).symm
  · rw [hbytes, hi, List.sum_nil]
    exact (BitVec.add_zero _).symm

theorem sole_packet (h : ∀ c', clientConn s data = some c' → c'.sport = c.sport → c' = c) :
    Sole s c [.packet data size clock] := by
  intro data' size' clock' hmem
  cases List.mem_singleton.1 hmem
  exact h

/-- What one input does to the session of `c`: it was there and has counted nothing, or the input is a packet of the
connection and is counted. -/
inductive CountsInput (s₀ s : Service) (c : Conn) (i : Input) (e : NatSession) : Prop
  | other (e₀ : NatSession) (he₀ : before s c = some e₀) (heq : e = { e₀ with lastNanoTime := e.lastNanoTime })
      (hi : sizes s₀ c [i] = [])
  | packet (n : Int) (hcounts : Counts c (before s c) n e) (hi : sizes s₀ c [i] = [n])

theorem CountsInput.of_lookup (he : before s' c = some e) (he₀ : s.sessions.lookup c.sport.toInt = some e₀)
    (heq : e = { e₀ with lastNanoTime := e.lastNanoTime }) (hi : sizes s₀ c [i] = []) : CountsInput s₀ s c i e := by
  obtain ⟨-, hip, hport⟩ := sessionOf_eq_some.1 he
  rw [heq] at hip hport
  exact .other e₀ (sessionOf_eq_some.2 ⟨he₀, hip, hport⟩) heq hi

/-- The session of another connection from the same port is not this one's. -/
theorem Counts.conn_eq {c' : Conn} {found : Option NatSession} {n : Int} (h : Counts c' found n e)
    (hk : c.sport.toInt = c'.sport.toInt) (he : before s c = some e) : c' = c := by
  obtain ⟨-, hip, hport⟩ := sessionOf_eq_some.1 he
  obtain ⟨sport, dest, dport⟩ := c
  obtain ⟨sport', dest', dport'⟩ := c'
  simp only [Conn.mk.injEq]
  exact ⟨(BitVec.toInt_inj.1 hk).symm, h.remoteIP.symm.trans hip, h.remotePort.symm.trans hport⟩

theorem handled_counts (hconn : clientConn s₀ data = clientConn s data) (h : Handled s s' data)
    (he : before s' c = some e) :
    Sole s₀ c [.packet data size clock] ∧ CountsInput s₀ s c (.packet data size clock) e := by
  obtain ⟨hlookup, -, -⟩ := sessionOf_eq_some.1 he
  cases h with
  | server hc h =>
      obtain ⟨e₀, he₀, heq⟩ := h _ _ hlookup
      rw [← hconn] at hc
      refine ⟨sole_packet fun c' hc' => ?_, .of_lookup he he₀ heq (by simp [sizes, hc])⟩
      rw [hc] at hc'
      cases hc'
  | client c' n hc hn h =>
      rw [← hconn] at hc
      rcases h _ _ hlookup with ⟨hk, hcounts⟩ | ⟨hk, he₀⟩
      · cases hcounts.conn_eq hk he
        refine ⟨sole_packet fun c'' hc'' _ => ?_, .packet n hcounts (by simp [sizes, hc, hn])⟩
        rw [hc] at hc''
        exact (Option.some.inj hc'').symm
      · -- a packet from another port
        have hne : c'.sport ≠ c.sport := fun hsport => hk (by rw [hsport])
        have hdiff : clientConn s₀ data ≠ some c := by
          rw [hc]
          rintro ⟨⟩
          exact hne rfl
        refine ⟨sole_packet fun c'' hc'' hsport => ?_, .of_lookup he he₀ rfl (by simp [sizes, hdiff])⟩
        rw [hc] at hc''
        cases hc''
        exact absurd hsport hne

theorem react_counts {out : Option Bytes} (hl : Latest s₀ is s) (h : react env s i = some (s', out))
    (he : before s' c = some e) : Sole s₀ c [i] ∧ CountsInput s₀ s c i e := by
  cases i with
  | packet data size clock =>
      obtain ⟨hip, hport, -⟩ := hl
      obtain ⟨-, -, hh⟩ := onIPPacketReceived_handled h
      exact handled_counts (by simp only [clientConn, hip, hport]) hh he
  | accepted port now =>
      cases h
      obtain ⟨hlookup, -, -⟩ := sessionOf_eq_some.1 he
      obtain ⟨e₀, he₀, heq⟩ := lookup_getSession hlookup
      refine ⟨fun data size clock hmem => ?_, .of_lookup he he₀ heq rfl⟩
      cases List.mem_singleton.1 hmem

/-- In every run, the session of a connection has counted its packets since the state in which it was not there. -/
theorem counters_of_run (h : Reaches env s₀ is s) (he : before s c = some e) :
    ∃ pre since s₁, is = pre ++ since ∧ Reaches env s₀ pre s₁ ∧ before s₁ c = none ∧ CountedIn s₀ c since e := by
  induction is using List.reverseRecOn generalizing s e with
  | nil =>
      obtain ⟨hempty, hs⟩ := h
      cases hs
      rw [before, hempty] at he
      cases he
  | append_singleton is i ih =>
      have hstep := h.2
      rw [List.foldl_append] at hstep
      simp only [List.foldl_cons, List.foldl_nil, step, Option.bind_eq_bind, Option.bind_eq_some_iff] at hstep
      obtain ⟨s₂, hs₂, ⟨s', out⟩, hreact, hout⟩ := hstep
      cases hout
      have hreach : Reaches env s₀ is s₂ := ⟨h.1, hs₂⟩
      obtain ⟨hsole, hcount⟩ := react_counts (latest_of_run hreach) hreact he
      cases hcount with
      | other e₀ he₀ heq hi =>
          obtain ⟨pre, since, s₁, his, hpre, hnone, hcounted⟩ := ih hreach he₀
          refine ⟨pre, since ++ [i], s₁, by rw [his, List.append_assoc], hpre, hnone, hcounted.other hsole hi ?_ ?_⟩
          · rw [heq]
          · rw [heq]
      | packet n hcounts hi =>
          obtain ⟨-, -, hpackets, hbytes⟩ := hcounts
          cases hf : before s₂ c with
          | none =>
              refine ⟨is, [i], s₂, rfl, hreach, hf, hsole, ?_, ?_⟩
              · rw [hpackets, hf, hi]
                rfl
              · rw [hbytes, hf, hi]
                simp
          | some e₀ =>
              obtain ⟨pre, since, s₁, his, hpre, hnone, hcounted⟩ := ih hreach hf
              refine ⟨pre, since ++ [i], s₁, by rw [his, List.append_assoc], hpre, hnone, hcounted.snoc hsole ?_ ?_⟩
              · rw [hpackets, hf, hi]
                rfl
              · rw [hbytes, hf, hi, List.sum_singleton]
                rfl

end TunProxy.Vpn
