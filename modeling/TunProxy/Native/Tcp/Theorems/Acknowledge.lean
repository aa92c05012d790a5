import TunProxy.Lib.Cumulative
import TunProxy.Native.Tcp.Lemmas.Coherent

/-!
# What is acknowledged to the client

As long as the code counts the SYN once and takes a FIN only where it is next, no ACK covers a number of the client that
has not arrived.
-/

namespace TunProxy.Native

open Lib Lib.Serial

variable {op : TcpOp} {old s s' : TcpSession} {ph ph' : Phase} {p : TcpPkt} {q : Segment} {rest forward : List Segment}
  {got got' fin fin' : U32 → Prop} {isn remoteSeq : U32}

/-! ## What has arrived -/

/-- The packet carries the byte with the number `x`. -/
def TcpPkt.Carries (p : TcpPkt) (x : U32) : Prop := ∃ i < p.data.length, x = p.dataSeq + BitVec.ofNat 32 i

/-- The packet is a FIN with the number `x`. -/
def TcpPkt.CarriesFin (p : TcpPkt) (x : U32) : Prop :=
  p.fin = true ∧ x = p.dataSeq + BitVec.ofNat 32 p.data.length

/-- The packet opened the session `s`, or is one of the calls. -/
def Came (p₀ : TcpPkt) (s : TcpSession) (ops : List TcpOp) (p : TcpPkt) : Prop :=
  p = p₀ ∨ ∃ e, .packet p e ∈ ops ∧ p.belongs s = true

def Arrived (p₀ : TcpPkt) (s : TcpSession) (ops : List TcpOp) (x : U32) : Prop :=
  ∃ p, Came p₀ s ops p ∧ p.Carries x

def FinArrived (p₀ : TcpPkt) (s : TcpSession) (ops : List TcpOp) (x : U32) : Prop :=
  ∃ p, Came p₀ s ops p ∧ p.CarriesFin x

/-! ## The conditions -/

/-- The number behind the queue. -/
def queueEnd (forward : List Segment) (remoteSeq : U32) : U32 :=
  match forward.getLast? with
  | none => remoteSeq
  | some q => q.seq + BitVec.ofNat 32 q.len

/-- Data with SYN has the number of the SYN that opened the session, and a FIN that is taken ends the queue. -/
def PacketPlaced (s : TcpSession) : TcpOp → Prop
  | .packet p e =>
      (p.Queues s → ¬compareU32 p.seq (seqAtQueue s p e) < 0 → p.syn = true → p.data ≠ [] → p.seq = s.remoteStart) ∧
        (p.Finishes s → p.CarriesFin (queueEnd (queueAtFlags s p) s.remoteSeq))
  | _ => True

/-- The call takes data with SYN and FIN in their places, counts the SYN where it, or a byte of the queue, is next, and
sends a keep alive only once the SYN was counted. -/
def AckSafe (s : TcpSession) (op : TcpOp) : Prop :=
  PacketPlaced s op ∧
    (CountsSyn s op →
      s.remoteSeq = s.remoteStart ∨ ∃ q ∈ queueAtCount s op, dist q.seq s.remoteSeq < q.len) ∧
    (KeepsAlive s op → s.remoteSeq ≠ s.remoteStart)

instance {x : U32} : Decidable (p.CarriesFin x) := inferInstanceAs (Decidable (_ ∧ _))

instance : (op : TcpOp) → Decidable (PacketPlaced s op)
  | .packet _ _ => inferInstanceAs (Decidable ((_ → _ → _ → _ → _) ∧ (_ → _)))
  | .socket _ | .monitor _ | .check _ | .stop _ => .isTrue trivial

instance : Decidable (AckSafe s op) := inferInstanceAs (Decidable (_ ∧ (_ → _ ∨ ∃ _ ∈ _, _) ∧ (_ → _)))

/-! ## The invariant -/

/-- All numbers of the segment have arrived. -/
def Segment.GotAll (got : U32 → Prop) (isn : U32) (q : Segment) : Prop :=
  ∀ i < q.len, Got got isn (q.seq + BitVec.ofNat 32 i)

/-- No FIN was counted yet. One that waits behind the queue ends it; it is confirmed once the queue was sent. -/
def Waits (got fin : U32 → Prop) (isn : U32) (ph : Phase) (s : TcpSession) : Prop :=
  Reaches got isn s.remoteSeq ∧
    (s.state = .closeWait → s.forward ≠ [] ∨ ph = .forwarded → fin (queueEnd s.forward s.remoteSeq))

/-- The FIN was counted, and nothing is queued or sent after it. -/
structure Finished (got fin : U32 → Prop) (isn : U32) (ph : Phase) (s : TcpSession) : Prop where
  next : ∃ y, s.remoteSeq = y + 1 ∧ Reaches got isn y ∧ fin y
  forward : s.forward = []
  state : s.state = .closeWait ∨ s.state = .lastAck ∨ s.state = .closing ∨ s.state = .close
  established : s.dest = 443 → s.connectSent = .established
  phase : ph ≠ .forwarded

structure Acknowledges (got fin : U32 → Prop) (isn : U32) (x : Phase × TcpSession) : Prop where
  queued : ∀ q ∈ x.2.forward, q.GotAll got isn
  next : Waits got fin isn x.1 x.2 ∨ Finished got fin isn x.1 x.2

theorem Acknowledges.ackOk (h : Acknowledges got fin isn (ph, s)) : AckOk got fin isn s.remoteSeq := by
  rcases h.next with ⟨hr, -⟩ | hf
  · exact hr.ackOk
  · obtain ⟨y, hy, hr, hfin⟩ := hf.next
    rw [hy]
    exact hr.ackOk_fin hfin

theorem Acknowledges.keepAlive (h : Acknowledges got fin isn (ph, s)) (hne : s.remoteSeq ≠ isn) :
    AckOk got fin isn (s.remoteSeq - 1) := by
  rcases h.next with ⟨hr, -⟩ | hf
  · exact (hr.pred hne).ackOk
  · obtain ⟨y, hy, hr, -⟩ := hf.next
    rw [hy, BitVec.add_sub_cancel]
    exact hr.ackOk

theorem Acknowledges.mono (hg : ∀ x, got x → got' x) (hf : ∀ x, fin x → fin' x)
    (h : Acknowledges got fin isn (ph, s)) : Acknowledges got' fin' isn (ph, s) := by
  refine ⟨fun q hq i hi => (h.queued q hq i hi).mono hg, ?_⟩
  rcases h.next with ⟨hr, hw⟩ | ⟨⟨y, hy, hr, hfin⟩, h₂, h₃, h₄, h₅⟩
  · exact .inl ⟨hr.mono hg, fun hs hq => hf _ (hw hs hq)⟩
  · exact .inr ⟨⟨y, hy, hr.mono hg, hf y hfin⟩, h₂, h₃, h₄, h₅⟩

/-- A new call begins. -/
theorem Acknowledges.fresh (h : Acknowledges got fin isn (ph, s)) : Acknowledges got fin isn (.fresh, s) := by
  refine ⟨h.queued, ?_⟩
  rcases h.next with ⟨hr, hw⟩ | ⟨h₁, h₂, h₃, h₄, h₅⟩
  · exact .inl ⟨hr, fun hs hq => hw hs (hq.imp_right (by simp))⟩
  · exact .inr ⟨h₁, h₂, h₃, h₄, by simp⟩

/-- Neither the queue nor the place of the next byte changes, and no FIN is taken. -/
theorem Acknowledges.keep {t : TcpSession} (h : Acknowledges got fin isn (ph, s)) (hf : t.forward = s.forward)
    (hr : t.remoteSeq = s.remoteSeq) (hw : t.state = .closeWait → s.state = .closeWait)
    (hs : s.state = .closeWait ∨ s.state = .lastAck ∨ s.state = .closing ∨ s.state = .close →
      (t.state = .closeWait ∨ t.state = .lastAck ∨ t.state = .closing ∨ t.state = .close) ∧
        ((s.dest = 443 → s.connectSent = .established) → t.dest = 443 → t.connectSent = .established)) :
    Acknowledges got fin isn (ph, t) := by
  refine ⟨hf ▸ h.queued, ?_⟩
  rcases h.next with ⟨hr', hw'⟩ | ⟨h₁, h₂, h₃, h₄, h₅⟩
  · refine .inl ⟨hr ▸ hr', fun hs' hq => ?_⟩
    rw [hf] at hq
    simp only [hf, hr]
    exact hw' (hw hs') hq
  · exact .inr ⟨hr ▸ h₁, hf ▸ h₂, (hs h₃).1, (hs h₃).2 h₄, h₅⟩

/-- Before the states that a FIN leads to, none was counted. -/
theorem Acknowledges.reaches (h : Acknowledges got fin isn (ph, s))
    (hs : ¬(s.state = .closeWait ∨ s.state = .lastAck ∨ s.state = .closing ∨ s.state = .close)) :
    Reaches got isn s.remoteSeq := by
  rcases h.next with ⟨hr, -⟩ | hf
  · exact hr
  · exact absurd hf.state hs

/-- A reply is sent: the session is closing if that fails. -/
theorem Acknowledges.reply {t : TcpSession} {ok : Bool} (h : Acknowledges got fin isn (ph, s))
    (hf : t.forward = s.forward) (hr : t.remoteSeq = s.remoteSeq) (hs : t.state = orClosing ok s.state)
    (he : (s.dest = 443 → s.connectSent = .established) → t.dest = 443 → t.connectSent = .established) :
    Acknowledges got fin isn (ph, t) := by
  refine h.keep hf hr ?_ fun hs' => ⟨?_, he⟩
  · rw [hs]
    cases ok <;> simp [orClosing]
  · rw [hs]
    cases ok <;> simp [orClosing, hs']

/-! ## The changes -/

/-- The data of a packet that has arrived. -/
theorem TcpPkt.segment_gotAll (hg : ∀ x, p.Carries x → got x) (hs : p.syn = true → p.data ≠ [] → p.seq = isn) :
    p.segment.GotAll got isn := by
  intro i hi
  by_cases hsyn : p.syn = true
  · have hdata : p.data ≠ [] := fun h => by simp [TcpPkt.segment, h] at hi
    have hseq := hs hsyn hdata
    cases i with
    | zero => exact .inl (by simp [TcpPkt.segment, hseq])
    | succ i =>
        refine .inr (hg _ ⟨i, Nat.lt_of_succ_lt hi, ?_⟩)
        rw [TcpPkt.dataSeq, if_pos hsyn]
        have h := ofNat_add_assoc p.seq 1 i
        rw [Nat.add_comm 1 i] at h
        exact h.symm
  · exact .inr (hg _ ⟨i, hi, by rw [TcpPkt.dataSeq, if_neg hsyn]; rfl⟩)

theorem Acknowledges.queueTcp {e : HandleEnv} (h : Acknowledges got fin isn (ph, s)) (hop : op = .packet p e)
    (hsafe : AckSafe old op) (hstart : old.remoteStart = isn)
    (hq : p.Queues old ∧ s.remoteSeq = seqAtQueue old p e ∧ s.forward = old.forward)
    (hg : ∀ x, p.Carries x → got x) (hw : s.state ≠ .closeWait) (hf : ¬Finished got fin isn ph s) :
    Acknowledges got fin isn (.queued, queueTcp s p) := by
  subst hop
  rw [queueTcp_eq]
  refine ⟨?_, ?_⟩
  · simp only []
    split
    · exact h.queued
    · rename_i hlt
      rw [hq.2.1] at hlt
      have hseq : p.syn = true → p.data ≠ [] → p.seq = isn := fun hsyn hdata =>
        (hsafe.1.1 hq.1 hlt hsyn hdata).trans hstart
      intro q hmem
      rcases mem_enqueue hmem with rfl | hmem | ⟨q', hmem', -, rfl⟩
      · exact p.segment_gotAll hg hseq
      · exact h.queued q hmem
      · intro i hi
        rw [Segment.replace_len] at hi
        rw [Segment.replace_seq]
        exact h.queued q' hmem' i hi
  · rcases h.next with ⟨hr, -⟩ | hfin
    · exact .inl ⟨hr, fun hs => absurd hs hw⟩
    · exact absurd hfin hf

/-- The SYN is counted. -/
theorem AckSafe.gotNext (hsafe : AckSafe old op) (hstart : old.remoteStart = isn)
    (hb : CountsSyn old op ∧ s.remoteSeq = old.remoteSeq ∧ s.forward = queueAtCount old op)
    (hq : ∀ q ∈ s.forward, q.GotAll got isn) : Got got isn s.remoteSeq := by
  obtain ⟨hcount, hseq, hf⟩ := hb
  rw [hseq]
  rcases hsafe.2.1 hcount with h | ⟨q, hmem, hlt⟩
  · exact .inl (h.trans hstart)
  · have h := hq q (hf ▸ hmem) _ hlt
    rwa [add_dist] at h

theorem Waits.finish {t : TcpSession} {ph' : Phase} (hr : Reaches got isn s.remoteSeq) (hfin : fin s.remoteSeq)
    (hseq : t.remoteSeq = s.remoteSeq + 1) (hf : t.forward = [])
    (hs : t.state = .closeWait ∨ t.state = .lastAck ∨ t.state = .closing ∨ t.state = .close)
    (he : t.dest = 443 → t.connectSent = .established) (hp : ph' ≠ .forwarded) : Finished got fin isn ph' t :=
  ⟨⟨s.remoteSeq, hseq, hr, hfin⟩, hf, hs, he, hp⟩

theorem TcpPkt.phase_ne : p.phase ≠ .forwarded := by
  unfold TcpPkt.phase
  split <;> simp

/-- The first segment is sent, in part or as a whole: the queue still ends at the same number. -/
theorem queueEnd_send {n : Nat} (hle : n ≤ q.len - q.sent) :
    queueEnd (if q.len = q.sent + n then rest else q.advance n hle :: rest) (q.advance n hle).pos =
      queueEnd (q :: rest) remoteSeq := by
  cases rest with
  | nil =>
      split
      · rename_i hall
        simp [queueEnd, Segment.pos, Segment.advance, hall]
      · simp [queueEnd, Segment.advance]
  | cons r rest =>
      have hlast : (r :: rest).getLast? = some ((r :: rest).getLast (by simp)) := List.getLast?_eq_some_getLast _
      split <;> simp [queueEnd, hlast]

theorem Acknowledges.send {t : TcpSession} {n : Nat} (h : Acknowledges got fin isn (ph, s)) (hf : s.forward = q :: rest)
    (hpos : q.pos = s.remoteSeq) (hle : n ≤ q.len - q.sent) (hseq : t.remoteSeq = (q.advance n hle).pos)
    (hforward : t.forward = if q.len = q.sent + n then rest else q.advance n hle :: rest) (hst : t.state = s.state) :
    Acknowledges got fin isn (.forwarded, t) := by
  have hq := h.queued q (by simp [hf])
  have hle' := q.sent_le
  refine ⟨?_, ?_⟩
  · intro r hr
    simp only [hforward] at hr
    split at hr
    · exact h.queued r (by simp [hf, hr])
    · rcases List.mem_cons.1 hr with rfl | hr
      · exact hq
      · exact h.queued r (by simp [hf, hr])
  · rcases h.next with ⟨hr, hw⟩ | hfin
    · refine .inl ⟨?_, ?_⟩
      · have hadv : (q.advance n hle).pos = s.remoteSeq + BitVec.ofNat 32 n := by
          rw [← hpos]
          exact (ofNat_add_assoc q.seq q.sent n).symm
        rw [hseq, hadv]
        refine hr.add ?_
        intro i hi
        have h := hq (q.sent + i) (by omega)
        rwa [← ofNat_add_assoc, show q.seq + BitVec.ofNat 32 q.sent = s.remoteSeq from hpos] at h
      · intro hs _
        rw [hforward, hseq, queueEnd_send hle, ← hf]
        exact hw (hst ▸ hs) (.inl (by simp [hf]))
    · exact absurd (hfin.forward.symm.trans hf) (by simp)

/-- The packet of the call has arrived. -/
def Brings (got fin : U32 → Prop) (old : TcpSession) (op : TcpOp) : Prop :=
  ∀ p e, op = .packet p e → p.belongs old = true → (∀ x, p.Carries x → got x) ∧ ∀ x, p.CarriesFin x → fin x

/-- The FIN is next. -/
theorem AckSafe.finNext {e : HandleEnv} (hsafe : AckSafe old op) (hbrings : Brings got fin old op)
    (hop : op = .packet p e)
    (hb : p.Finishes old ∧ s.remoteSeq = old.remoteSeq ∧ s.forward = queueAtFlags old p) :
    fin (queueEnd s.forward s.remoteSeq) := by
  have hfin := (hbrings p e hop hb.1.1).2
  subst hop
  obtain ⟨hb, hseq, hf⟩ := hb
  rw [hf, hseq]
  exact hfin _ (hsafe.1.2 hb)

theorem Move.acknowledges (hm : Move old op (ph, s) (ph', s')) (hsafe : AckSafe old op) (hstart : old.remoteStart = isn)
    (hbrings : Brings got fin old op) (hc : Coherent s) (h : Acknowledges got fin isn (ph, s)) :
    Acknowledges got fin isn (ph', s') := by
  cases hm with
  | note hio => exact h.keep rfl rfl id fun hs => ⟨hs, id⟩
  | window hop => exact h.keep rfl rfl id fun hs => ⟨hs, id⟩
  | rst ok hl =>
      rw [writeRst_eq, rstSeq]
      by_cases hs : s.state = .listen
      · have hgot := hsafe.gotNext hstart (hl hs (hc.open_socket (by simp [hs, TcpState.isOpen]))) h.queued
        refine ⟨h.queued, .inl ⟨?_, by simp [hs]⟩⟩
        simp only [hs, ↓reduceIte]
        exact (h.reaches (by simp [hs])).succ hgot
      · simp only [hs, ↓reduceIte]
        refine h.keep rfl rfl ?_ ?_
        · simp only []
          split <;> simp
        · intro hs'
          refine ⟨?_, id⟩
          simp only []
          split <;> simp
  | drop hs => exact h.keep rfl rfl (by simp) fun _ => ⟨by simp, id⟩
  | connect hop hd hu hp hn hs =>
      refine ⟨h.queued, ?_⟩
      rcases h.next with ⟨hr, -⟩ | hf
      · exact .inl ⟨hr, by simp⟩
      · have := hf.established (hd.trans hp)
        simp [hn] at this
  | early hop hu hd hn hq =>
      refine h.queueTcp hop hsafe hstart hq (hbrings _ _ hop hq.1.1).1 ?_ fun hf => hn (hf.established hd)
      intro hs
      exact hn (hc.proxied (by simp [hs, TcpState.isConnected]) hd)
  | queue hop ht hdata ho hw hq =>
      refine h.queueTcp hop hsafe hstart hq (hbrings _ _ hop hq.1.1).1 hw fun hf => ?_
      rcases hf.state with hs | hs | hs | hs
      · exact hw hs
      · have := hc.shut_socket (by simp [hs, TcpState.isShut])
        omega
      · exact ht.notClosing hs
      · exact ht.notClose hs
  | finQueued hop ht hr hcur hsyn hfin hs hf hb =>
      exact ⟨h.queued, .inl ⟨h.reaches (by simp [hs]), fun _ _ => hsafe.finNext hbrings hop hb⟩⟩
  | fin hop ht hr hcur hsyn hfin hs hf hb ok =>
      have hnext := hsafe.finNext hbrings hop hb
      rw [hf] at hnext
      have hr' := h.reaches (by simp [hs])
      exact ⟨h.queued,
        .inr (Waits.finish hr' hnext rfl hf (by cases ok <;> simp [orClosing]) ht.connected TcpPkt.phase_ne)⟩
  | lastFin hop ht hr hcur hsyn hfin hs hb ok =>
      have hnext := hsafe.finNext hbrings hop hb
      have hf := hc.drained (.inl hs)
      rw [hf] at hnext
      have hr' := h.reaches (by simp [hs])
      exact ⟨h.queued,
        .inr (Waits.finish hr' hnext rfl hf (by cases ok <;> simp [orClosing]) ht.connected TcpPkt.phase_ne)⟩
  | ackAll hop ht hr ha hcur =>
      refine h.keep rfl rfl ?_ ?_
      · cases hs : s.state <;> simp [TcpState.afterAck]
      · intro hs
        refine ⟨?_, id⟩
        rcases hs with hs | hs | hs | hs <;> simp [hs, TcpState.afterAck]
  | ackPrevious hop ht ha hl hp => exact h.keep rfl rfl id fun hs => ⟨hs, id⟩
  | connected hop ho hs hb ok =>
      have hgot := hsafe.gotNext hstart hb h.queued
      exact ⟨h.queued, .inl ⟨(h.reaches (by simp [hs])).succ hgot, by cases ok <;> simp [orClosing]⟩⟩
  | proxied hop ho hs hn =>
      exact ⟨h.queued, .inl ⟨h.reaches (by simp [hs]), by simp⟩⟩
  | send hop ho hs hf hpos hdata hn hle => exact h.send hf hpos hle rfl rfl rfl
  | ack hop ho hs hf ok => exact h.reply rfl rfl rfl id
  | confirmFin hop ho hs hf ok =>
      refine ⟨h.queued, ?_⟩
      rcases h.next with ⟨hr, hw⟩ | hfin
      · have hnext := hw hs (.inr rfl)
        simp only [hf] at hnext
        refine .inr (Waits.finish hr hnext rfl hf ?_ ?_ (by simp))
        · cases ok <;> simp [orClosing, hs]
        · exact hc.proxied (by simp [hs, TcpState.isConnected])
      · exact absurd rfl hfin.phase
  | data hop ho hs hw hb ok => exact h.reply rfl rfl rfl id
  | eof hop ho hs hf ok =>
      refine h.keep rfl rfl ?_ fun hs' => ⟨?_, id⟩
      · cases ok <;> rcases hs with hs | hs <;> simp [orClosing, hs, TcpState.afterEof]
      · rcases hs with hs | hs
        · simp [hs] at hs'
        · cases ok <;> simp [orClosing, hs, TcpState.afterEof]
  | eofQueued hop ho hs hf ok => exact h.keep rfl rfl (by simp) fun _ => ⟨by simp, id⟩
  | keepAlive hop ho hs hb ok => exact h.reply rfl rfl rfl id
  | close hop hs => exact h.keep rfl rfl (by simp) fun _ => ⟨by simp, id⟩

/-! ## The packets -/

/-- Every ACK among the calls after `io` is allowed. -/
def AcksOk (got fin : U32 → Prop) (isn : U32) (io io' : List Io) : Prop :=
  ∃ calls, io' = io ++ calls ∧
    ∀ packet ok, .tun packet ok ∈ calls → packet.ack = true → AckOk got fin isn packet.ackSeq

variable {io io' : List Io} {c : Io}

theorem AcksOk.refl : AcksOk got fin isn io io := ⟨[], by simp, by simp⟩

theorem AcksOk.snoc (h : AcksOk got fin isn io io')
    (hc : ∀ packet ok, c = .tun packet ok → packet.ack = true → AckOk got fin isn packet.ackSeq) :
    AcksOk got fin isn io (io' ++ [c]) := by
  obtain ⟨calls, rfl, hcalls⟩ := h
  refine ⟨calls ++ [c], by simp, ?_⟩
  intro packet ok hmem ha
  rcases List.mem_append.1 hmem with hmem | hmem
  · exact hcalls packet ok hmem ha
  · exact hc packet ok (List.mem_singleton.1 hmem).symm ha

/-- A packet that acknowledges `x`. -/
theorem AcksOk.tun {packet : TunPacket} {ok : Bool} {x : U32} (h : AcksOk got fin isn io io') (hx : packet.ackSeq = x)
    (hok : AckOk got fin isn x) : AcksOk got fin isn io (io' ++ [.tun packet ok]) := by
  refine h.snoc ?_
  rintro _ _ ⟨⟩ _
  rw [hx]
  exact hok

theorem Move.acksOk (hm : Move old op (ph, s) (ph', s')) (hsafe : AckSafe old op) (hstart : old.remoteStart = isn)
    (h : Acknowledges got fin isn (ph, s)) (h' : Acknowledges got fin isn (ph', s'))
    (hio : AcksOk got fin isn io s.io) :
    AcksOk got fin isn io s'.io := by
  have hok := h'.ackOk
  cases hm with
  | note hq =>
      obtain ⟨calls, rfl, hq⟩ := hq
      obtain ⟨before, hbefore, hio⟩ := hio
      refine ⟨before ++ calls, by simp [hbefore], ?_⟩
      intro packet ok hmem
      rcases List.mem_append.1 hmem with hmem | hmem
      · exact hio packet ok hmem
      · have := hq _ hmem
        simp [Io.quiet] at this
  | rst ok hl =>
      rw [writeRst_eq, rstSeq] at hok ⊢
      refine hio.snoc ?_
      rintro _ _ ⟨⟩ ha
      have hs : s.state = .listen := by simpa [tunPacket] using ha
      simpa [tunPacket, hs] using hok
  | early hop hu hd hn hq => rwa [queueTcp_eq]
  | queue hop ht hdata ho hw hq => rwa [queueTcp_eq]
  | fin hop ht hr hc hsyn hfin hs hf hb ok => exact hio.tun rfl hok
  | lastFin hop ht hr hc hsyn hfin hs hb ok => exact hio.tun rfl hok
  | connected hop ho hs hb ok => exact hio.tun rfl hok
  | send hop ho hs hf hpos hdata hn hle => exact hio.snoc (by rintro _ _ ⟨⟩)
  | ack hop ho hs hf ok => exact hio.tun rfl hok
  | confirmFin hop ho hs hf ok => exact hio.tun rfl hok
  | data hop ho hs hw hb ok => exact (hio.snoc (by rintro _ _ ⟨⟩)).tun rfl hok
  | eof hop ho hs hf ok => exact (hio.tun rfl hok).snoc (by rintro _ _ ⟨⟩)
  | eofQueued hop ho hs hf ok =>
      refine (hio.snoc ?_).snoc (by rintro _ _ ⟨⟩)
      rintro _ _ ⟨⟩ ha
      cases ha
  | keepAlive hop ho hs hb ok =>
      have hne : s.remoteSeq ≠ isn := by
        rw [hb.2, ← hstart]
        exact hsafe.2.2 hb.1
      exact hio.tun rfl (h.keepAlive hne)
  | close hop hs =>
      simp only []
      split
      · exact hio.snoc (by rintro _ _ ⟨⟩)
      · exact hio
  | _ => exact hio

theorem tcpStep_acknowledges (hsafe : AckSafe s op) (hstart : s.remoteStart = isn) (hbrings : Brings got fin s op)
    (hc : Coherent s) (h : Acknowledges got fin isn (.fresh, s)) :
    Acknowledges got fin isn (.fresh, tcpStep s op) ∧ AcksOk got fin isn s.io (tcpStep s op).io := by
  obtain ⟨ph, -, hack, hio⟩ := tcpStep_invariant op
    (I := fun x => Coherent x.2 ∧ Acknowledges got fin isn x ∧ AcksOk got fin isn s.io x.2.io)
    ⟨hc, h, AcksOk.refl⟩ (by
      rintro ⟨ph, t⟩ ⟨ph', t'⟩ ⟨hc, ht, hio⟩ hm
      have ht' := hm.acknowledges hsafe hstart hbrings hc ht
      exact ⟨hm.coherent hc, ht', hm.acksOk hsafe hstart ht ht' hio⟩)
  exact ⟨hack.fresh, hio⟩

/-! ## Runs -/

variable {p₀ : TcpPkt} {e₀ : HandleEnv} {s₀ : TcpSession} {ops ops' : List TcpOp}

theorem Came.mono (h : Came p₀ s₀ ops p) : Came p₀ s₀ (ops ++ ops') p := by
  rcases h with h | ⟨e, hmem, hb⟩
  · exact .inl h
  · exact .inr ⟨e, List.mem_append_left _ hmem, hb⟩

theorem Acknowledges.later (h : Acknowledges (Arrived p₀ s₀ ops) (FinArrived p₀ s₀ ops) isn (ph, s)) :
    Acknowledges (Arrived p₀ s₀ (ops ++ ops')) (FinArrived p₀ s₀ (ops ++ ops')) isn (ph, s) :=
  h.mono (fun _ ⟨p, hp, hx⟩ => ⟨p, hp.mono, hx⟩) fun _ ⟨p, hp, hx⟩ => ⟨p, hp.mono, hx⟩

theorem Acknowledges.of_new (h₀ : handleTcpNew p₀ e₀ = some s₀) :
    Acknowledges (Arrived p₀ s₀ ops) (FinArrived p₀ s₀ ops) p₀.seq (.fresh, s₀) := by
  obtain ⟨-, -, -, mss, ws, hs₀⟩ := handleTcpNew_some h₀
  have hforward : s₀.forward = if p₀.data ≠ [] then [p₀.segment] else [] := by
    rw [hs₀]
    rfl
  have hseq : s₀.remoteSeq = p₀.seq := by
    rw [hs₀]
    rfl
  have hst : s₀.state = .listen := by
    rw [hs₀]
    rfl
  refine ⟨?_, .inl ⟨hseq ▸ Reaches.start, by simp [hst]⟩⟩
  intro q hq
  have hq : q = p₀.segment := by
    simp only [hforward] at hq
    split at hq <;> simp_all
  rw [hq]
  exact p₀.segment_gotAll (fun x hx => ⟨p₀, .inl rfl, hx⟩) fun _ _ => rfl

theorem brings_arrived (hfix : s.fixed = s₀.fixed) :
    Brings (Arrived p₀ s₀ (ops ++ [op])) (FinArrived p₀ s₀ (ops ++ [op])) s op := by
  intro p e hop hb
  have hcame : Came p₀ s₀ (ops ++ [op]) p := .inr ⟨e, by simp [hop], belongs_congr hfix ▸ hb⟩
  exact ⟨fun x hx => ⟨p, hcame, hx⟩, fun x hx => ⟨p, hcame, hx⟩⟩

/-- In every run of safe calls, every ACK a call writes covers no more than the longest prefix of the client's stream
that has arrived, and its FIN only where that has arrived right behind the prefix. -/
theorem acks_arrived (h₀ : handleTcpNew p₀ e₀ = some s₀) (h : Run tcpStep AckSafe s₀ ops s) (hsafe : AckSafe s op) :
    AcksOk (Arrived p₀ s₀ (ops ++ [op])) (FinArrived p₀ s₀ (ops ++ [op])) p₀.seq s.io (tcpStep s op).io := by
  have hstart₀ : s₀.remoteStart = p₀.seq := by
    obtain ⟨-, -, -, mss, ws, rfl⟩ := handleTcpNew_some h₀
    rfl
  have hstart : ∀ {t : TcpSession}, t.fixed = s₀.fixed → t.remoteStart = p₀.seq := by
    intro t ht
    simp only [TcpSession.fixed, Prod.mk.injEq] at ht
    exact ht.2.2.2.2.1.trans hstart₀
  obtain ⟨hc, hfix, hs⟩ := h.invariant
    (I := fun ops s => Coherent s ∧ s.fixed = s₀.fixed ∧
      Acknowledges (Arrived p₀ s₀ ops) (FinArrived p₀ s₀ ops) p₀.seq (.fresh, s))
    ⟨handleTcpNew_coherent h₀, rfl, Acknowledges.of_new h₀⟩ (by
      rintro ops s op ⟨hc, hfix, hs⟩ hsafe
      exact ⟨tcpStep_coherent hc op, (tcpStep_fixed s op).trans hfix,
        (tcpStep_acknowledges hsafe (hstart hfix) (brings_arrived hfix) hc hs.later).1⟩)
  exact (tcpStep_acknowledges hsafe (hstart hfix) (brings_arrived hfix) hc hs.later).2

/-- The client connects. -/
def sampleConnected : List TcpOp :=
  [.socket { ev := ⟨false, false, true⟩ }, .packet (samplePkt 8080 1001 1 []) {}]

/-- The client sends `abc`, and the socket takes it. -/
def sampleUploaded : List TcpOp :=
  sampleConnected ++ [.packet (samplePkt 8080 1001 1 [97, 98, 99]) {},
    .socket { ev := ⟨false, false, true⟩, fwdBuf := ⟨16384, 0⟩, send := fun _ _ => { ret := 3, errno := .other } }]

/-- A FIN with the number 1004. -/
def sampleFin : TcpOp := .packet { samplePkt 8080 1004 1 [] with fin := true } {}

theorem acks_arrived_fin :
    AcksOk (Arrived (sampleSyn 8080) (sampleSession 8080) (sampleUploaded ++ [sampleFin]))
        (FinArrived (sampleSyn 8080) (sampleSession 8080) (sampleUploaded ++ [sampleFin])) 1000
        (sampleUploaded.foldl tcpStep (sampleSession 8080)).io
        (tcpStep (sampleUploaded.foldl tcpStep (sampleSession 8080)) sampleFin).io ∧
      (tcpStep (sampleUploaded.foldl tcpStep (sampleSession 8080)) sampleFin).remoteSeq = 1005 :=
  ⟨acks_arrived (sampleSession_new 8080) (Run.ofAllOk (by decide)) (by decide), by decide⟩

/-- The packet with `abc` is lost, and the FIN behind it is acknowledged as if it were next. -/
theorem fin_not_next :
    handleTcpNew (sampleSyn 8080) { socket := 5, buf := ⟨1, 0⟩ } = some (sampleSession 8080) ∧
      ¬AcksOk (Arrived (sampleSyn 8080) (sampleSession 8080) (sampleConnected ++ [sampleFin]))
        (FinArrived (sampleSyn 8080) (sampleSession 8080) (sampleConnected ++ [sampleFin])) 1000
        (sampleConnected.foldl tcpStep (sampleSession 8080)).io
        (tcpStep (sampleConnected.foldl tcpStep (sampleSession 8080)) sampleFin).io := by
  refine ⟨sampleSession_new 8080, ?_⟩
  rintro ⟨calls, hio, hcalls⟩
  obtain ⟨packet, hpacket, hack, hseq⟩ : ∃ packet,
      (tcpStep (sampleConnected.foldl tcpStep (sampleSession 8080)) sampleFin).io =
        (sampleConnected.foldl tcpStep (sampleSession 8080)).io ++ [.tun packet true] ∧
      packet.ack = true ∧ packet.ackSeq = 1002 := ⟨_, rfl, rfl, rfl⟩
  have hmem : Io.tun packet true ∈ calls := by
    rw [List.append_cancel_left (hio.symm.trans hpacket)]
    simp
  have hno : PrefixLength (Arrived (sampleSyn 8080) (sampleSession 8080) (sampleConnected ++ [sampleFin])) 1000 0 := by
    refine ⟨by simp, ?_⟩
    rintro ⟨p, hp, i, hi, -⟩
    have hdata : p.data = [] := by
      rcases hp with rfl | ⟨e, hmem, -⟩
      · rfl
      · simp only [sampleConnected, sampleFin, List.cons_append, List.nil_append, List.mem_cons, List.not_mem_nil,
          TcpOp.packet.injEq, reduceCtorEq, false_or, or_false] at hmem
        rcases hmem with ⟨rfl, -⟩ | ⟨rfl, -⟩ <;> rfl
    simp [hdata] at hi
  have hok := hcalls packet true hmem hack 0 hno
  rw [hseq] at hok
  rcases hok with hok | ⟨-, p, hp, hfin, hx⟩
  · exact absurd hok (by decide)
  · rcases hp with rfl | ⟨e, hmem, -⟩
    · exact absurd hfin (by decide)
    · simp only [sampleConnected, sampleFin, List.cons_append, List.nil_append, List.mem_cons, List.not_mem_nil,
        TcpOp.packet.injEq, reduceCtorEq, false_or, or_false] at hmem
      rcases hmem with ⟨rfl, -⟩ | ⟨rfl, -⟩
      · exact absurd hfin (by decide)
      · exact absurd hx (by decide)

end TunProxy.Native
