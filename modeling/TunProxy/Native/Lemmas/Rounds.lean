import TunProxy.Native.Theorems.Qname
import TunProxy.Native.Udp

/-!
# The rounds of `get_qname`

What comes next depends on `ptr` and `noff` alone, so a name that is not read in `QNAME_ROUNDS` rounds is never read;
and a message with such a name is not either.
-/

namespace TunProxy.Native

open Lib.Loop

variable {data : Nat → UInt8} {datalen off rounds count : Nat} {s s' t : QnameState} {qname behind : Nat → UInt8}

/-! ## One round -/

/-- What holds of the state of the loop. -/
structure QnameState.Ok (data : Nat → UInt8) (s : QnameState) : Prop where
  len : s.len = data s.ptr
  ptr_lt : s.ptr < 2 ^ 16
  noff_lt : s.noff < 2 ^ 8

/-- What decides about the rest of the loop. -/
def QnameState.key (s : QnameState) : Nat := s.ptr * 2 ^ 8 + s.noff

theorem pointerTarget_lt (data : Nat → UInt8) (s : QnameState) : pointerTarget data s < 2 ^ 16 := by
  have hhigh : (s.len &&& 0x3F).toNat ≤ 0x3F := by
    rw [UInt8.toNat_and]
    exact Nat.and_le_right
  have hlow := (data (s.ptr + 1)).toNat_lt
  unfold pointerTarget
  omega

theorem QnameState.Ok.next (h : s.Ok data) (hs : qnameStep data datalen s = .inl s') : s'.Ok data := by
  have hnoff := qname_noff_lt h.noff_lt hs
  rcases qnameStep_cases hs with ⟨-, rfl⟩ | ⟨-, -, -, rfl⟩
  · exact ⟨rfl, pointerTarget_lt data s, hnoff⟩
  · exact ⟨rfl, Nat.mod_lt _ (by decide), hnoff⟩

theorem QnameState.Ok.key_lt (h : s.Ok data) : s.key < 2 ^ 24 := by
  have hptr := h.ptr_lt
  have hnoff := h.noff_lt
  unfold QnameState.key
  omega

/-- States with one key go on to states with one key. -/
theorem qnameStep_key (hs : s.Ok data) (ht : t.Ok data) (hkey : s.key = t.key)
    (h : qnameStep data datalen s = .inl s') : ∃ t', qnameStep data datalen t = .inl t' ∧ s'.key = t'.key := by
  obtain ⟨hptr, hnoff⟩ : s.ptr = t.ptr ∧ s.noff = t.noff := by
    have := hs.noff_lt
    have := ht.noff_lt
    unfold QnameState.key at hkey
    omega
  have hlen : s.len = t.len := by rw [hs.len, ht.len, hptr]
  rcases qnameStep_cases h with ⟨hp, rfl⟩ | ⟨h0, hp, hf, rfl⟩
  · refine ⟨_, qnameStep_pointer (hlen ▸ hp), ?_⟩
    simp only [QnameState.key, pointerTarget, hlen, hptr, hnoff]
  · have hf' : labelFits datalen t := by
      unfold labelFits at hf ⊢
      rwa [← hptr, ← hnoff, ← hlen]
    refine ⟨_, qnameStep_label (hlen ▸ h0) (hlen ▸ hp) hf', ?_⟩
    simp only [QnameState.key, hlen, hptr, hnoff]

/-! ## Enough rounds -/

/-- A name that is read at all is read in `QNAME_ROUNDS` rounds. -/
theorem getQname_bound {r : Option Nat × (Nat → UInt8)} (hoff : off < 2 ^ 16)
    (h : getQname data datalen rounds off qname = some r) : getQname data datalen QNAME_ROUNDS off qname = some r := by
  obtain ⟨last, hlast, rfl⟩ := Option.map_eq_some_iff.1 h
  have hstart : (qnameStart data off qname).Ok data := by
    refine ⟨rfl, hoff, ?_⟩
    show 0 < 2 ^ 8
    decide
  cases hbound : runFor (qnameStep data datalen) QNAME_ROUNDS (qnameStart data off qname) with
  | none =>
      have hnever := runFor_never (I := QnameState.Ok data) (fun s s' hs => hs.next)
        (fun s t s' hs ht => qnameStep_key hs ht) (fun s hs => hs.key_lt) hstart hbound rounds
      rw [hlast] at hnever
      cases hnever
  | some last' =>
      have hsame := (runFor_mono hlast (Nat.le_max_left rounds QNAME_ROUNDS)).symm.trans
        (runFor_mono hbound (Nat.le_max_right rounds QNAME_ROUNDS))
      rw [getQname, hbound, Option.some.inj hsame]
      rfl

theorem getDnsQuery_bound {r : Option DnsQuestion} (h : getDnsQuery data datalen rounds qname = some r) :
    getDnsQuery data datalen QNAME_ROUNDS qname = some r := by
  unfold getDnsQuery at h ⊢
  split
  · rename_i hshort
    rwa [if_pos hshort] at h
  · rename_i hshort
    rw [if_neg hshort] at h
    split
    · rename_i hquery
      rw [if_pos hquery] at h
      cases hname : getQname data datalen rounds dnsHeaderSize qname with
      | none =>
          rw [hname] at h
          cases h
      | some name =>
          rw [hname] at h
          rwa [getQname_bound (by decide) hname]
    · rename_i hquery
      rwa [if_neg hquery] at h

theorem parseAnswers_bound {answers : List DnsAnswer}
    (h : parseAnswers data datalen rounds count off qname = some answers) :
    parseAnswers data datalen QNAME_ROUNDS count off qname = some answers := by
  induction count generalizing off qname answers with
  | zero => exact h
  | succ count ih =>
      unfold parseAnswers at h ⊢
      cases hname : getQname data datalen rounds (off % 2 ^ 16) qname with
      | none =>
          rw [hname] at h
          cases h
      | some name =>
          rw [hname] at h
          rw [getQname_bound (Nat.mod_lt _ (by decide)) hname]
          obtain ⟨_ | fields, name⟩ := name
          · exact h
          · dsimp only at h ⊢
            split
            · rename_i hfields
              rw [if_pos hfields] at h
              split
              · rename_i hdata
                rw [if_pos hdata] at h
                obtain ⟨rest, hrest, rfl⟩ := Option.map_eq_some_iff.1 h
                rw [ih hrest]
                rfl
              · rename_i hdata
                rwa [if_neg hdata] at h
            · rename_i hfields
              rwa [if_neg hfields] at h

theorem parseDnsResponse_bound {r : DnsSeen} (h : parseDnsResponse data datalen rounds qname = some r) :
    parseDnsResponse data datalen QNAME_ROUNDS qname = some r := by
  unfold parseDnsResponse at h ⊢
  split
  · rename_i hshort
    rwa [if_pos hshort] at h
  · rename_i hshort
    rw [if_neg hshort] at h
    dsimp only at h ⊢
    split
    · rename_i hresponse
      rw [if_pos hresponse] at h
      cases hname : getQname data datalen rounds dnsHeaderSize qname with
      | none =>
          rw [hname] at h
          cases h
      | some name =>
          rw [hname] at h
          rw [getQname_bound (by decide) hname]
          obtain ⟨_ | fields, name⟩ := name
          · exact h
          · dsimp only at h ⊢
            split
            · rename_i hfields
              rw [if_pos hfields] at h
              obtain ⟨answers, hanswers, rfl⟩ := Option.map_eq_some_iff.1 h
              rw [parseAnswers_bound hanswers]
              rfl
            · rename_i hfields
              rwa [if_neg hfields] at h
    · rename_i hresponse
      rwa [if_neg hresponse] at h

/-! ## The handlers -/

/-- The reading of the query comes to an end. -/
def UdpPkt.ReadEnds (p : UdpPkt) (behind : Nat → UInt8) : Prop :=
  p.dest = 53 → ∃ rounds question, getDnsQuery (memAt p.data behind) p.data.length rounds (fun _ => 0) = some question

/-- The reading of the response comes to an end. -/
def ResponseReadEnds (bytes : Bytes) (behind : Nat → UInt8) : Prop :=
  ∃ rounds seen, parseDnsResponse (memAt bytes behind) bytes.length rounds (fun _ => 0) = some seen

theorem UdpPkt.isRead_iff {p : UdpPkt} : p.isRead behind = true ↔ p.ReadEnds behind := by
  rw [UdpPkt.isRead, decide_eq_true_eq, UdpPkt.ReadEnds, ← imp_iff_not_or, Option.isSome_iff_exists]
  refine imp_congr_right fun _ => ⟨fun ⟨question, h⟩ => ⟨QNAME_ROUNDS, question, h⟩, ?_⟩
  rintro ⟨rounds, question, h⟩
  exact ⟨question, getDnsQuery_bound h⟩

theorem responseReadEnds_iff {bytes : Bytes} :
    (parseDnsResponse (memAt bytes behind) bytes.length QNAME_ROUNDS fun _ => 0).isSome = true ↔
      ResponseReadEnds bytes behind := by
  rw [Option.isSome_iff_exists, ResponseReadEnds]
  exact ⟨fun ⟨seen, h⟩ => ⟨QNAME_ROUNDS, seen, h⟩, fun ⟨_, seen, h⟩ => ⟨seen, parseDnsResponse_bound h⟩⟩

theorem UdpSession.isRead_iff {s : UdpSession} {bytes : Bytes} :
    s.isRead bytes behind = true ↔ (s.dest = 53 → ResponseReadEnds bytes behind) := by
  rw [UdpSession.isRead, decide_eq_true_eq, ← imp_iff_not_or, responseReadEnds_iff]

instance UdpPkt.ReadEnds.decidable {p : UdpPkt} : Decidable (p.ReadEnds behind) := decidable_of_iff _ p.isRead_iff

instance ResponseReadEnds.decidable {bytes : Bytes} : Decidable (ResponseReadEnds bytes behind) :=
  decidable_of_iff _ responseReadEnds_iff

end TunProxy.Native
