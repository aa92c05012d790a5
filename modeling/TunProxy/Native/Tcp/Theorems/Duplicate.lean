import TunProxy.Native.Tcp.Lemmas.Coherent

/-!
# The same packet twice

When a packet without RST is handled twice in a row, the second time changes nothing that matters, with two exceptions:
a FIN that comes with data, and the packets for which the CONNECT request can only be sent the second time.
-/

namespace TunProxy.Native

open Lib

variable {s t u : TcpSession} {p : TcpPkt} {e e₁ e₂ : HandleEnv}

/-- The fields a duplicate should leave alone. -/
def TcpSession.core (s : TcpSession) : TcpState × U32 × U32 × U32 × ConnectState × List Segment :=
  (s.state, s.localSeq, s.remoteSeq, s.acked, s.connectSent, s.forward)

theorem core_eq : s.core = t.core ↔ s.state = t.state ∧ s.localSeq = t.localSeq ∧ s.remoteSeq = t.remoteSeq ∧
    s.acked = t.acked ∧ s.connectSent = t.connectSent ∧ s.forward = t.forward := by
  simp [TcpSession.core]

/-- A FIN with data that takes the session from `TCP_ESTABLISHED` to `TCP_CLOSE_WAIT`. -/
def FinWithData (s : TcpSession) (p : TcpPkt) (e : HandleEnv) : Prop :=
  p.urg = false ∧ p.syn = false ∧ p.fin = true ∧ p.current s ∧ p.data ≠ [] ∧ s.state = .established ∧
    (s.forward ≠ [] ∨ 0 ≤ compareU32 p.seq s.remoteSeq ∨ e.writeOk = true)

/-- The CONNECT request is sent for the copy, not for the packet. -/
def LateConnect (s : TcpSession) (p : TcpPkt) (e₁ e₂ : HandleEnv) : Prop :=
  p.urg = false ∧ p.dest = 443 ∧ s.connectSent = .notSent ∧ onSocket s.socket e₁.connect < 0 ∧
    0 ≤ onSocket s.socket e₂.connect

/-! ## The flags of a copy -/

/-- The flags of the packet have nothing to change any more. -/
inductive Settled (s : TcpSession) (p : TcpPkt) : Prop
  | syn (hc : p.current s) (h : p.syn = true)
  | fin (hc : p.current s) (hs : p.syn = false) (h : p.fin = true) (he : s.state ≠ .established)
      (hf : s.state ≠ .finWait1)
  | ack (hc : p.current s) (hs : p.syn = false) (hf : p.fin = false) (ha : p.ack = true) (h : s.acked = p.ackSeq)
      (hr : s.state ≠ .synRecv) (hl : s.state ≠ .lastAck)
  | none (hc : p.current s) (hs : p.syn = false) (hf : p.fin = false) (ha : p.ack = false)
  | keepAlive (hc : ¬p.current s) (h : p.ackSeq + 1 = s.localSeq)
  | previous (hc : ¬p.current s) (hn : p.ackSeq + 1 ≠ s.localSeq) (hl : compareU32 p.ackSeq s.localSeq < 0)
      (ha : compareU32 p.ackSeq s.acked ≤ 0)

theorem handleFlags_settled (hr : p.rst = false) (h : Settled s p) : (handleFlags s p e).core = s.core := by
  unfold handleFlags
  simp only [hr, Bool.false_eq_true, ↓reduceIte]
  cases h with
  | syn hc h => rw [if_pos hc, if_pos h]
  | fin hc hs h he hf =>
      rw [if_pos hc, if_neg (by simp [hs]), if_pos h]
      unfold handleFin
      split <;> simp_all
  | ack hc hs hf ha h hr hl =>
      rw [if_pos hc, if_neg (by simp [hs]), if_neg (by simp [hf]), if_pos ha]
      simp [handleAck, TcpSession.core, h]
  | none hc hs hf ha => rw [if_pos hc, if_neg (by simp [hs]), if_neg (by simp [hf]), if_neg (by simp [ha])]
  | keepAlive hc h => rw [if_neg hc, handleOtherAck, if_pos h]
  | previous hc hn hl ha => rw [if_neg hc, handleOtherAck, if_neg hn, if_pos hl, if_pos ha]

/-- What the flags of a packet lead to: the session is closing or closed, or the flags are settled. Only the FIN of
`TCP_ESTABLISHED` can lead to `TCP_CLOSE_WAIT`, and no other flags change the place of the next byte. -/
theorem handleFlags_cases (hr : p.rst = false) :
    ((handleFlags s p e).state = .closing ∨ (handleFlags s p e).state = .close) ∨
      Settled (handleFlags s p e) p ∧
        ((handleFlags s p e).forward = s.forward ∧ (handleFlags s p e).remoteSeq = s.remoteSeq ∧
            ((handleFlags s p e).state = .closeWait → s.state = .closeWait) ∨
          (handleFlags s p e).state = .closeWait ∧ s.state = .established ∧ p.syn = false ∧ p.fin = true ∧
            p.current s) := by
  unfold handleFlags
  simp only [hr, Bool.false_eq_true, ↓reduceIte]
  split
  · rename_i hc
    split
    · rename_i hs
      exact .inr ⟨.syn hc hs, .inl ⟨rfl, rfl, id⟩⟩
    · rename_i hs
      have hs : p.syn = false := by simpa using hs
      split
      · rename_i hf
        unfold handleFin
        cases hst : s.state with
        | established =>
            simp only []
            split
            · cases e.writeOk with
              | true => exact .inr ⟨.fin hc hs hf (by simp) (by simp), .inr ⟨rfl, trivial, hs, hf, hc⟩⟩
              | false => exact .inl (.inl rfl)
            · exact .inr ⟨.fin hc hs hf (by simp) (by simp), .inr ⟨rfl, trivial, hs, hf, hc⟩⟩
        | finWait1 =>
            cases e.writeOk with
            | true => exact .inl (.inr rfl)
            | false => exact .inl (.inl rfl)
        | _ => exact .inr ⟨.fin hc hs hf (by simp [hst]) (by simp [hst]), .inl ⟨rfl, rfl, by simp [hst]⟩⟩
      · rename_i hf
        have hf : p.fin = false := by simpa using hf
        split
        · rename_i ha
          have hseq : p.ackSeq = s.localSeq := by simpa [TcpPkt.current, ha] using hc
          rw [handleAck_eq hseq]
          cases hst : s.state with
          | lastAck => exact .inl (.inl rfl)
          | _ => exact .inr ⟨.ack hc hs hf ha hseq.symm (by simp [TcpState.afterAck]) (by simp [TcpState.afterAck]),
              .inl ⟨rfl, rfl, by simp [TcpState.afterAck]⟩⟩
        · rename_i ha
          exact .inr ⟨.none hc hs hf (by simpa using ha), .inl ⟨rfl, rfl, id⟩⟩
  · rename_i hc
    unfold handleOtherAck
    split
    · rename_i hk
      exact .inr ⟨.keepAlive hc hk, .inl ⟨rfl, rfl, id⟩⟩
    · rename_i hk
      split
      · rename_i hl
        split
        · rename_i ha
          exact .inr ⟨.previous hc hk hl ha, .inl ⟨rfl, rfl, id⟩⟩
        · exact .inr ⟨.previous hc hk hl (by simp [compareU32_self]), .inl ⟨rfl, rfl, id⟩⟩
      · refine .inl ?_
        rw [writeRst_eq]
        simp only []
        split
        · exact .inr rfl
        · exact .inl rfl

theorem Settled.congr (hc : s.core = t.core) (h : Settled s p) : Settled t p := by
  obtain ⟨hst, hl, -, ha, -, -⟩ := core_eq.1 hc
  have hcur : p.current s ↔ p.current t := by rw [TcpPkt.current, TcpPkt.current, hl]
  cases h with
  | syn hc h => exact .syn (hcur.1 hc) h
  | fin hc hs h he hf => exact .fin (hcur.1 hc) hs h (hst ▸ he) (hst ▸ hf)
  | ack hc hs hf ha' h hr hl => exact .ack (hcur.1 hc) hs hf ha' (ha ▸ h) (hst ▸ hr) (hst ▸ hl)
  | none hc hs hf ha' => exact .none (hcur.1 hc) hs hf ha'
  | keepAlive hc h => exact .keepAlive (fun h' => hc (hcur.2 h')) (hl ▸ h)
  | previous hc hn hl' ha' => exact .previous (fun h' => hc (hcur.2 h')) (hl ▸ hn) (hl ▸ hl') (ha ▸ ha')

theorem handleFlags_socket : (handleFlags s p e).socket = s.socket := by
  unfold handleFlags handleFin handleAck handleOtherAck writeAck
  simp only [writeOrClose_eq, writeRst_eq]
  repeat' split
  all_goals rfl

theorem handleFlags_connectSent : (handleFlags s p e).connectSent = s.connectSent := by
  unfold handleFlags handleFin handleAck handleOtherAck writeAck
  simp only [writeOrClose_eq, writeRst_eq]
  repeat' split
  all_goals rfl

theorem handleFlags_fin (hr : p.rst = false) (hs : p.syn = false) (hf : p.fin = true) (hc : p.current s)
    (he : s.state = .established) :
    (handleFlags s p e).state = .closeWait ↔ s.forward ≠ [] ∨ e.writeOk = true := by
  simp only [handleFlags, hr, hs, hf, hc, handleFin, he, writeAck, writeOrClose_eq, Bool.false_eq_true, ↓reduceIte]
  by_cases hq : s.forward = []
  · cases hw : e.writeOk <;> simp [hq, orClosing]
  · simp [hq]

/-! ## The code under "Session found" -/

theorem handleOpen_closed (hs : s.state = .closing ∨ s.state = .close) :
    (handleOpen s p e).core = s.core := by
  unfold handleOpen
  rw [if_pos hs, writeRst_eq, rstSeq]
  rcases hs with hs | hs <;> simp [TcpSession.core, hs]

theorem queueTcp_idem : queueTcp (queueTcp s p) p = queueTcp s p := by
  rw [queueTcp_eq, queueTcp_eq]
  simp only []
  split
  · rfl
  · rw [enqueue_idem]

/-- The session once the time and the window of the packet are noted. -/
def TcpSession.stamp (s : TcpSession) (p : TcpPkt) (e : HandleEnv) : TcpSession :=
  { s with time := e.now, sendWindow := p.window.setWidth 32 <<< s.sendScale }

theorem stamp_core : (s.stamp p e).core = s.core := rfl

theorem handleOpen_empty (hs : ¬(s.state = .closing ∨ s.state = .close)) (hd : p.data = []) :
    handleOpen s p e = handleFlags (s.stamp p e) p e := by
  rw [handleOpen, if_neg hs]
  simp only [hd, ne_eq, not_true_eq_false, ↓reduceIte]
  rfl

theorem handleOpen_data (hs : ¬(s.state = .closing ∨ s.state = .close)) (hd : p.data ≠ []) (ho : 0 ≤ s.socket)
    (hw : s.state ≠ .closeWait) : handleOpen s p e = handleFlags (queueTcp (s.stamp p e) p) p e := by
  have hneg : ¬s.socket < 0 := by omega
  rw [handleOpen, if_neg hs]
  simp only [hd, hneg, hw, ne_eq, not_false_eq_true, ↓reduceIte]
  rfl

theorem handleOpen_refused (hd : p.data ≠ []) (hw : s.socket < 0 ∨ s.state = .closeWait) :
    (handleOpen s p e).state = .closing ∨ (handleOpen s p e).state = .close := by
  unfold handleOpen
  simp only [writeRst_eq]
  rcases hw with hw | hw
  · simp only [hw, hd, ne_eq, not_false_eq_true, ↓reduceIte]
    repeat' split
    all_goals simp
  · simp [hw, hd]

/-- The queue is empty after the packet only if it was, and the packet was already forwarded. -/
theorem queueTcp_forward_ne_nil :
    (queueTcp s p).forward ≠ [] ↔ s.forward ≠ [] ∨ 0 ≤ compareU32 p.seq s.remoteSeq := by
  rw [queueTcp_eq]
  simp only []
  split
  · rename_i h
    have : ¬0 ≤ compareU32 p.seq s.remoteSeq := by omega
    simp [this]
  · rename_i h
    exact iff_of_true enqueue_ne_nil (.inr (by omega))

theorem queueTcp_core_of_queued (hf : s.forward = (queueTcp t p).forward) (hrem : s.remoteSeq = t.remoteSeq) :
    (queueTcp s p).core = s.core := by
  have h := queueTcp_idem (s := t) (p := p)
  have hq := congrArg TcpSession.forward h
  rw [queueTcp_eq] at hq ⊢
  rw [queueTcp_eq] at hq hf
  simp only [] at hq hf
  simp only [TcpSession.core, hrem, hf, hq]

/-- With its data queued, the copy of a packet changes nothing, unless the packet took the session to
`TCP_CLOSE_WAIT`: then the copy is answered with a reset. -/
theorem handleOpen_data_again (hr : p.rst = false) (hd : p.data ≠ []) (ho : 0 ≤ u.socket)
    (hu : u.core = (handleFlags (queueTcp s p) p e₁).core) :
    (handleOpen u p e₂).core = u.core ↔ u.state ≠ .closeWait := by
  by_cases hs : u.state = .closing ∨ u.state = .close
  · refine iff_of_true (handleOpen_closed hs) ?_
    rcases hs with hs | hs <;> simp [hs]
  · obtain ⟨hst, -, hrem, -, -, hfwd⟩ := core_eq.1 hu
    obtain ⟨hset, hcases⟩ := (handleFlags_cases hr).resolve_left (hst ▸ hs)
    by_cases hcw : u.state = .closeWait
    · refine iff_of_false ?_ (fun h => h hcw)
      intro hcore
      have hclosed := handleOpen_refused (p := p) (e := e₂) hd (.inr hcw)
      rw [(core_eq.1 hcore).1, hcw] at hclosed
      simp at hclosed
    · refine iff_of_true ?_ hcw
      rw [handleOpen_data hs hd ho hcw]
      rcases hcases with ⟨hf, hrem₁, -⟩ | ⟨hc, -⟩
      · have hrem₂ : (u.stamp p e₂).remoteSeq = s.remoteSeq := by
          have hrem₃ : (queueTcp s p).remoteSeq = s.remoteSeq := by rw [queueTcp_eq]
          exact hrem.trans (hrem₁.trans hrem₃)
        have hcore := (queueTcp_core_of_queued (s := u.stamp p e₂) (hfwd.trans hf) hrem₂).trans stamp_core
        exact (handleFlags_settled hr (hset.congr (hu.symm.trans hcore.symm))).trans hcore
      · exact absurd (hst.trans hc) hcw

/-- The packets that take a session to `TCP_CLOSE_WAIT` once their data is queued. -/
theorem handleFlags_closeWait (hr : p.rst = false) (hw : s.state ≠ .closeWait) :
    (handleFlags (queueTcp s p) p e).state = .closeWait ↔
      p.syn = false ∧ p.fin = true ∧ p.current s ∧ s.state = .established ∧
        (e.writeOk = true ∨ s.forward ≠ [] ∨ 0 ≤ compareU32 p.seq s.remoteSeq) := by
  have hst : (queueTcp s p).state = s.state := by rw [queueTcp_eq]
  have hcur : p.current (queueTcp s p) ↔ p.current s := by rw [queueTcp_eq]
  constructor
  · intro h
    have hopen : ¬((handleFlags (queueTcp s p) p e).state = .closing ∨
        (handleFlags (queueTcp s p) p e).state = .close) := by simp [h]
    obtain ⟨-, ⟨-, -, hcw⟩ | ⟨-, he, hs, hf, hc⟩⟩ := (handleFlags_cases hr).resolve_left hopen
    · exact absurd (hst ▸ hcw h) hw
    · rw [handleFlags_fin hr hs hf hc he, queueTcp_forward_ne_nil] at h
      exact ⟨hs, hf, hcur.1 hc, hst ▸ he, h.symm⟩
  · rintro ⟨hs, hf, hc, he, h⟩
    rw [handleFlags_fin hr hs hf (hcur.2 hc) (hst.trans he), queueTcp_forward_ne_nil]
    exact h.symm

/-- When the copy of a packet changes nothing: `u` is the session after the packet. -/
theorem handleOpen_again (hr : p.rst = false) (ho : s.state = .established → 0 ≤ s.socket)
    (hu : u.core = (handleOpen s p e₁).core) (hsock : u.socket = s.socket) :
    (handleOpen u p e₂).core = u.core ↔
      ¬(p.syn = false ∧ p.fin = true ∧ p.current s ∧ p.data ≠ [] ∧ s.state = .established ∧
        (s.forward ≠ [] ∨ 0 ≤ compareU32 p.seq s.remoteSeq ∨ e₁.writeOk = true)) := by
  have hst := (core_eq.1 hu).1
  by_cases hs : s.state = .closing ∨ s.state = .close
  · -- the session was closed already
    have hs₁ : u.state = .closing ∨ u.state = .close := by
      rw [hst, (core_eq.1 (handleOpen_closed hs)).1]
      exact hs
    refine iff_of_true (handleOpen_closed hs₁) ?_
    rintro ⟨-, -, -, -, he, -⟩
    simp [he] at hs
  · by_cases hd : p.data = []
    · refine iff_of_true ?_ (fun h => h.2.2.2.1 hd)
      rw [handleOpen_empty hs hd] at hu hst
      by_cases hs₁ : u.state = .closing ∨ u.state = .close
      · exact handleOpen_closed hs₁
      · rw [handleOpen_empty hs₁ hd]
        obtain ⟨hset, -⟩ := (handleFlags_cases hr).resolve_left (hst ▸ hs₁)
        exact (handleFlags_settled hr (hset.congr (hu.symm.trans stamp_core.symm))).trans stamp_core
    · by_cases hw : s.socket < 0 ∨ s.state = .closeWait
      · refine iff_of_true (handleOpen_closed (hst ▸ handleOpen_refused hd hw)) ?_
        rintro ⟨-, -, -, -, he, -⟩
        have := ho he
        rcases hw with hw | hw
        · omega
        · simp [hw] at he
      · rw [not_or] at hw
        have ho₁ : 0 ≤ s.socket := by omega
        rw [handleOpen_data hs hd ho₁ hw.2] at hu hst
        rw [handleOpen_data_again hr hd (hsock ▸ ho₁) hu, ne_eq, not_iff_not, hst,
          handleFlags_closeWait (s := s.stamp p e₁) hr hw.2]
        constructor
        · rintro ⟨h₁, h₂, h₃, h₄, h₅⟩
          exact ⟨h₁, h₂, h₃, hd, h₄, or_assoc.1 h₅.symm⟩
        · rintro ⟨h₁, h₂, h₃, -, h₄, h₅⟩
          exact ⟨h₁, h₂, h₃, h₄, (or_assoc.2 h₅).symm⟩

/-! ## `handle_tcp` -/

/-- The code for port 443 leaves the queue, and what it sets the second time is what it set the first time. -/
theorem connect443_cases :
    ((connect443 s p e).connectSent = s.connectSent ∧ s.connectSent ≠ .notSent ∧ (connect443 s p e).core = s.core) ∨
      (s.connectSent = .notSent ∧ 0 ≤ onSocket s.socket e.connect ∧ (connect443 s p e).connectSent = .sent ∧
        (connect443 s p e).core = { s with connectSent := .sent, state := .listen : TcpSession }.core) ∨
      (s.connectSent = .notSent ∧ onSocket s.socket e.connect < 0 ∧ (connect443 s p e).connectSent = .notSent ∧
        ((connect443 s p e).state = .closing ∨ (connect443 s p e).state = .close) ∧
        (s.state = .closing ∨ s.state = .close → (connect443 s p e).core = s.core)) := by
  unfold connect443
  by_cases hn : s.connectSent = .notSent
  · by_cases hs : onSocket s.socket e.connect < 0
    · refine .inr (.inr ?_)
      simp only [hn, hs, ↓reduceIte, writeRst_eq, TcpSession.core, rstSeq]
      refine ⟨trivial, trivial, trivial, ?_, ?_⟩
      · split <;> simp
      · rintro (hst | hst) <;> simp [hst]
    · refine .inr (.inl ?_)
      simp [hn, hs, TcpSession.core]
      omega
  · refine .inl ?_
    simp [hn, TcpSession.core]

theorem connect443_sent (hn : s.connectSent ≠ .notSent) : (connect443 s p e).core = s.core := by
  rcases connect443_cases (s := s) (p := p) (e := e) with ⟨-, -, h⟩ | ⟨h, -⟩ | ⟨h, -⟩
  · exact h
  · exact absurd h hn
  · exact absurd h hn

theorem handleOpen_connectSent : (handleOpen s p e).connectSent = s.connectSent := by
  unfold handleOpen
  simp only [writeRst_eq]
  repeat' split
  all_goals try rfl
  all_goals rw [handleFlags_connectSent]
  rw [queueTcp_eq]

theorem handleOpen_socket : (handleOpen s p e).socket = s.socket := by
  unfold handleOpen
  simp only [writeRst_eq]
  repeat' split
  all_goals try rfl
  all_goals rw [handleFlags_socket]
  rw [queueTcp_eq]

theorem connect443_socket : (connect443 s p e).socket = s.socket := by
  unfold connect443
  simp only [writeRst_eq]
  repeat' split
  all_goals rfl

theorem handleTcp_unanswered (hp : p.dest = 443) (hpu : p.urg = false)
    (hn : (connect443 s p e).connectSent ≠ .established) : handleTcp s p e = queueTcp (connect443 s p e) p := by
  simp only [handleTcp, hpu, hp, hn, Bool.false_eq_true, ne_eq, not_false_eq_true, and_self, ↓reduceIte]

theorem handleTcp_answered (hp : p.dest = 443) (hpu : p.urg = false)
    (hn : (connect443 s p e).connectSent = .established) : handleTcp s p e = handleOpen (connect443 s p e) p e := by
  simp only [handleTcp, hpu, hp, hn, Bool.false_eq_true, ne_eq, not_true_eq_false, and_false, ↓reduceIte]

theorem handleTcp_plain (hp : p.dest ≠ 443) (hpu : p.urg = false) : handleTcp s p e = handleOpen s p e := by
  simp only [handleTcp, hpu, hp, false_and, Bool.false_eq_true, ↓reduceIte]

/-- A copy queued for port 443 before the proxy has answered. -/
theorem early_again (hu : u.core = (queueTcp s p).core) (hp : p.dest = 443) (hpu : p.urg = false)
    (hc : (connect443 u p e).core = u.core) (hn : u.connectSent ≠ .established) :
    (handleTcp u p e).core = u.core := by
  rw [handleTcp_unanswered hp hpu (by rwa [(core_eq.1 hc).2.2.2.2.1])]
  obtain ⟨-, -, hrem, -, -, hf⟩ := core_eq.1 (hc.trans hu)
  have hrem' : (connect443 u p e).remoteSeq = s.remoteSeq := by
    rw [queueTcp_eq] at hrem
    exact hrem
  exact (queueTcp_core_of_queued hf hrem').trans hc

theorem finWithData_iff (ht : t.core = s.core) (hpu : p.urg = false) : FinWithData s p e ↔
    p.syn = false ∧ p.fin = true ∧ p.current t ∧ p.data ≠ [] ∧ t.state = .established ∧
      (t.forward ≠ [] ∨ 0 ≤ compareU32 p.seq t.remoteSeq ∨ e.writeOk = true) := by
  obtain ⟨h₁, h₂, h₃, -, -, h₆⟩ := core_eq.1 ht
  simp only [FinWithData, TcpPkt.current, h₁, h₂, h₃, h₆, hpu, true_and]

/-- A session for port 443 that can take a FIN has its answer from the proxy. -/
theorem not_finWithData (h : Coherent s) (hd : s.dest = 443) (hn : s.connectSent ≠ .established) :
    ¬FinWithData s p e := by
  rintro ⟨-, -, -, -, -, he, -⟩
  exact hn (h.proxied (by simp [he, TcpState.isConnected]) hd)

/-- The code under "Session found", with what port 443 has before it. -/
theorem again_open (h : Coherent s) (hr : p.rst = false) (hpu : p.urg = false) (ht : t.core = s.core)
    (hts : t.socket = s.socket) (hu : u.core = (handleOpen t p e₁).core) (hus : u.socket = s.socket) :
    (handleOpen u p e₂).core = u.core ↔ ¬FinWithData s p e₁ := by
  have ho : t.state = .established → 0 ≤ t.socket := fun he => by
    rw [hts]
    exact h.open_socket (by simp [← (core_eq.1 ht).1, he, TcpState.isOpen])
  rw [handleOpen_again hr ho hu (hus.trans hts.symm), finWithData_iff ht hpu]

/-- The request was sent before the packet. -/
theorem again_sent (h : Coherent s) (hd : s.dest = 443) (hp : p.dest = 443) (hr : p.rst = false) (hpu : p.urg = false)
    (hn : s.connectSent ≠ .notSent) (hc : (connect443 s p e₁).connectSent = s.connectSent)
    (hcore : (connect443 s p e₁).core = s.core) :
    (handleTcp (handleTcp s p e₁) p e₂).core = (handleTcp s p e₁).core ↔ ¬FinWithData s p e₁ := by
  by_cases he : s.connectSent = .established
  · rw [handleTcp_answered hp hpu (hc.trans he)]
    have hu : (handleOpen (connect443 s p e₁) p e₁).connectSent = .established :=
      handleOpen_connectSent.trans (hc.trans he)
    have hcu : (connect443 (handleOpen (connect443 s p e₁) p e₁) p e₂).core =
        (handleOpen (connect443 s p e₁) p e₁).core := connect443_sent (by simp [hu])
    rw [handleTcp_answered (e := e₂) hp hpu ((core_eq.1 hcu).2.2.2.2.1.trans hu), ← hcu]
    exact again_open h hr hpu hcore connect443_socket hcu
      (connect443_socket.trans (handleOpen_socket.trans connect443_socket))
  · rw [handleTcp_unanswered (e := e₁) hp hpu (hc ▸ he)]
    have hu : (queueTcp (connect443 s p e₁) p).connectSent = s.connectSent := by rw [queueTcp_eq, hc]
    exact iff_of_true (early_again rfl hp hpu (connect443_sent (hu ▸ hn)) (hu ▸ he)) (not_finWithData h hd he)

/-- The request could not be sent for the packet: its copy changes nothing unless it can be sent then. -/
theorem again_failed (hp : p.dest = 443) (hpu : p.urg = false) (hc : (connect443 s p e₁).connectSent = .notSent)
    (hst : (connect443 s p e₁).state = .closing ∨ (connect443 s p e₁).state = .close) :
    (handleTcp (handleTcp s p e₁) p e₂).core = (handleTcp s p e₁).core ↔ onSocket s.socket e₂.connect < 0 := by
  rw [handleTcp_unanswered (e := e₁) hp hpu (by simp [hc])]
  have hu : (queueTcp (connect443 s p e₁) p).connectSent = .notSent := by rw [queueTcp_eq, hc]
  have hus : (queueTcp (connect443 s p e₁) p).socket = s.socket := by rw [queueTcp_eq, connect443_socket]
  have hust : (queueTcp (connect443 s p e₁) p).state = (connect443 s p e₁).state := by rw [queueTcp_eq]
  generalize hg : queueTcp (connect443 s p e₁) p = u at hu hus hust
  rcases connect443_cases (s := u) (p := p) (e := e₂) with ⟨-, hn, -⟩ | ⟨-, ho, hc₂, -⟩ | ⟨-, ho, -, -, hk⟩
  · exact absurd hu hn
  · rw [hus] at ho
    refine iff_of_false ?_ (by omega)
    rw [handleTcp_unanswered hp hpu (by simp [hc₂])]
    intro hcore
    have := (core_eq.1 hcore).2.2.2.2.1
    rw [queueTcp_eq, hc₂, hu] at this
    cases this
  · exact iff_of_true (early_again (by rw [hg]) hp hpu (hk (hust ▸ hst)) (by simp [hu])) (hus ▸ ho)

theorem handleTcp_again (h : Coherent s) (hd : s.dest = p.dest) (hr : p.rst = false) (hpu : p.urg = false) :
    (handleTcp (handleTcp s p e₁) p e₂).core = (handleTcp s p e₁).core ↔
      ¬FinWithData s p e₁ ∧ ¬LateConnect s p e₁ e₂ := by
  by_cases hp : p.dest = 443
  · rcases connect443_cases (s := s) (p := p) (e := e₁) with ⟨hc, hn, hcore⟩ | ⟨hn, ho, hc, -⟩ | ⟨hn, ho, hc, hst, -⟩
    · rw [again_sent h (hd.trans hp) hp hr hpu hn hc hcore]
      simp [LateConnect, hn]
    · -- the request is sent for the packet
      rw [handleTcp_unanswered (e := e₁) hp hpu (by simp [hc])]
      have hu : (queueTcp (connect443 s p e₁) p).connectSent = .sent := by rw [queueTcp_eq, hc]
      refine iff_of_true (early_again rfl hp hpu (connect443_sent (by simp [hu])) (by simp [hu]))
        ⟨not_finWithData h (hd.trans hp) (by simp [hn]), ?_⟩
      rintro ⟨-, -, -, hl, -⟩
      omega
    · rw [again_failed hp hpu hc hst]
      have hfin : ¬FinWithData s p e₁ := not_finWithData h (hd.trans hp) (by simp [hn])
      simp [LateConnect, hfin, hpu, hp, hn, ho]
  · have hl : ¬LateConnect s p e₁ e₂ := fun hl => hp hl.2.1
    rw [handleTcp_plain hp hpu, handleTcp_plain hp hpu, again_open h hr hpu rfl rfl rfl handleOpen_socket]
    simp [hl]

/-- In every reachable session, the copy of a packet without RST leaves everything as the packet left it, unless the
packet is one of the two exceptions. -/
theorem duplicate_idempotent_iff {p₀ : TcpPkt} {e₀ : HandleEnv} {s₀ : TcpSession} {ops : List TcpOp}
    (h₀ : handleTcpNew p₀ e₀ = some s₀) (h : Run tcpStep (fun _ _ => True) s₀ ops s) (hr : p.rst = false) :
    (tcpStep (tcpStep s (.packet p e₁)) (.packet p e₂)).core = (tcpStep s (.packet p e₁)).core ↔
      ¬(p.belongs s = true ∧ (FinWithData s p e₁ ∨ LateConnect s p e₁ e₂)) := by
  have hc := coherent_of_run h₀ h
  have hb := belongs_congr (p := p) (tcpStep_fixed s (.packet p e₁))
  by_cases hbs : p.belongs s = true
  · rw [tcpStep_packet (hb.trans hbs), tcpStep_packet hbs]
    simp only [hbs, true_and, not_or]
    by_cases hu : p.urg = true
    · -- urgent data is dropped
      refine iff_of_true (by simp [handleTcp, hu]) ⟨?_, ?_⟩ <;> simp [FinWithData, LateConnect, hu]
    · exact handleTcp_again hc (belongs_dest hbs) hr (by simpa using hu)
  · refine iff_of_true ?_ (fun h' => hbs h'.1)
    rw [tcpStep_other (hb ▸ hbs)]

theorem duplicate_idempotent_iff_data :
    handleTcpNew (sampleSyn 8080) { socket := 5, buf := ⟨1, 0⟩ } = some (sampleSession 8080) ∧
      (tcpStep (tcpStep (sampleSession 8080) (.packet (samplePkt 8080 1001 0 [97]) {}))
          (.packet (samplePkt 8080 1001 0 [97]) {})).core =
        (tcpStep (sampleSession 8080) (.packet (samplePkt 8080 1001 0 [97]) {})).core :=
  ⟨sampleSession_new 8080, (duplicate_idempotent_iff (sampleSession_new 8080) .nil rfl).2 (by
    rintro ⟨-, ⟨-, -, hf, -⟩ | ⟨-, hp, -⟩⟩
    · cases hf
    · exact absurd hp (by decide))⟩

/-- A FIN with the byte `a`: the session goes to `TCP_CLOSE_WAIT`, and the copy moves it to `TCP_CLOSING`. -/
theorem duplicate_fin_resets :
    let s := List.foldl tcpStep (sampleSession 8080)
      [.socket { ev := ⟨false, false, true⟩ }, .packet (samplePkt 8080 1001 1 []) {}]
    let fin : TcpOp := .packet { samplePkt 8080 1001 1 [97] with fin := true } {}
    handleTcpNew (sampleSyn 8080) { socket := 5, buf := ⟨1, 0⟩ } = some (sampleSession 8080) ∧
      (tcpStep s fin).state = .closeWait ∧ (tcpStep (tcpStep s fin) fin).state = .closing ∧
      (tcpStep (tcpStep s fin) fin).core ≠ (tcpStep s fin).core :=
  ⟨sampleSession_new 8080, by decide, by decide, by decide⟩

end TunProxy.Native
