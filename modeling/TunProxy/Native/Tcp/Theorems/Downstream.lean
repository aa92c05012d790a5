import TunProxy.Native.Tcp.Lemmas.Coherent
import TunProxy.Native.Tcp.Lemmas.Log

/-!
# Data for the client

On a port other than 443, the data packets written to the tun are one contiguous stream, and no write goes beyond the
window the client offers.
-/

namespace TunProxy.Native

open Lib

variable {op : TcpOp} {old s t : TcpSession} {ph ph' : Phase} {p : TcpPkt} {io calls : List Io} {start : U32}

/-- Every data packet has the number of the bytes delivered before it, and carries what was read right before it. -/
def Contiguous (start : U32) (io : List Io) : Prop :=
  ∀ before packet ok after, io = before ++ .tun packet ok :: after → packet.data ≠ [] →
    packet.seq = start + 1 + BitVec.ofNat 32 (delivered before).length ∧
      ∃ earlier, before = earlier ++ [.recv packet.data] ∧ delivered earlier = received earlier

theorem Contiguous.nil : Contiguous start [] := by
  intro before packet ok after h
  simp at h

theorem Contiguous.snoc {c : Io} (h : Contiguous start io)
    (hc : ∀ packet ok, c = .tun packet ok → packet.data ≠ [] →
      packet.seq = start + 1 + BitVec.ofNat 32 (delivered io).length ∧
        ∃ earlier, io = earlier ++ [.recv packet.data] ∧ delivered earlier = received earlier) :
    Contiguous start (io ++ [c]) := by
  intro before packet ok after hio hdata
  rcases List.eq_nil_or_concat after with rfl | ⟨after, c', rfl⟩
  · obtain ⟨rfl, hc'⟩ := List.append_inj' hio rfl
    exact hc packet ok (by simpa using hc') hdata
  · have hio' : io ++ [c] = (before ++ .tun packet ok :: after) ++ [c'] := by simpa using hio
    exact h before packet ok after (List.append_inj' hio' rfl).1 hdata

theorem Contiguous.idle {io' : List Io} (h : Contiguous start io) (hi : IdleSince io io') : Contiguous start io' := by
  obtain ⟨calls, rfl, hi⟩ := hi
  induction calls using List.reverseRecOn with
  | nil => simpa using h
  | append_singleton calls c ih =>
      rw [← List.append_assoc]
      refine (ih fun c' hc' => hi c' (by simp [hc'])).snoc ?_
      intro packet ok hc hdata
      exact absurd ((hi c (by simp)).2 packet ok hc) hdata

/-! ## The invariant -/

structure Downstream (s : TcpSession) : Prop where
  direct : s.dest ≠ 443
  unsent : s.connectSent ≠ .sent
  scale : s.sendScale ≤ 14
  window : s.sendWindow.toNat < 2 ^ 30
  contiguous : Contiguous s.localStart s.io
  first : s.state = .listen → s.localSeq = s.localStart ∧ delivered s.io = []
  next : s.state = .synRecv ∨ s.state = .established ∨ s.state = .closeWait →
    s.localSeq = s.localStart + 1 + BitVec.ofNat 32 (delivered s.io).length
  whole : s.state ≠ .closing → s.state ≠ .close → delivered s.io = received s.io
  /-- Where `compare_u32` takes the client to be ahead, the send window is closed. -/
  ahead : s.state = .established ∨ s.state = .closeWait → 0 < compareU32 s.acked s.localSeq → 2 ^ 30 ≤ s.acked.toNat

/-- The fields of the invariant that do not depend on the state. -/
def SameLink (s t : TcpSession) : Prop :=
  t.dest = s.dest ∧ t.connectSent = s.connectSent ∧ t.sendScale = s.sendScale ∧ t.sendWindow = s.sendWindow ∧
    t.localStart = s.localStart

theorem Downstream.closed (h : Downstream s) (hl : SameLink s t) (hi : IdleSince s.io t.io)
    (hs : t.state = .closing ∨ t.state = .close) : Downstream t := by
  obtain ⟨h₁, h₂, h₃, h₄, h₅⟩ := hl
  refine ⟨h₁ ▸ h.direct, h₂ ▸ h.unsent, h₃ ▸ h.scale, h₄ ▸ h.window, h₅ ▸ h.contiguous.idle hi, ?_, ?_, ?_, ?_⟩ <;>
    rcases hs with hs | hs <;> simp [hs]

/-- The session goes on without data for the client. -/
theorem Downstream.idle (h : Downstream s) (hl : SameLink s t) (hi : IdleSince s.io t.io)
    (hs : t.state = s.state) (hseq : t.localSeq = s.localSeq) (ha : t.acked = s.acked) : Downstream t := by
  obtain ⟨h₁, h₂, h₃, h₄, h₅⟩ := hl
  obtain ⟨calls, hio, hi'⟩ := hi
  have hd : delivered t.io = delivered s.io := by rw [hio, delivered_append, delivered_idle hi', List.append_nil]
  have hr : received t.io = received s.io := by rw [hio, received_append, received_idle hi', List.append_nil]
  refine ⟨h₁ ▸ h.direct, h₂ ▸ h.unsent, h₃ ▸ h.scale, h₄ ▸ h.window, h₅ ▸ h.contiguous.idle ⟨calls, hio, hi'⟩,
    ?_, ?_, ?_, ?_⟩
  · rw [hs, hseq, h₅, hd]
    exact h.first
  · rw [hs, hseq, h₅, hd]
    exact h.next
  · rw [hs, hd, hr]
    exact h.whole
  · rw [hs, hseq, ha]
    exact h.ahead

theorem Downstream.writeRst {ok : Bool} (h : Downstream s) : Downstream (writeRst s ok) := by
  rw [writeRst_eq]
  refine h.closed ⟨rfl, rfl, rfl, rfl, rfl⟩ ((IdleSince.refl _).snoc (Io.idle_tun rfl)) ?_
  simp only []
  split
  · exact .inr rfl
  · exact .inl rfl

/-! ## The send window -/

/-- A number less than `2 ^ 30` behind is taken to be ahead only next to the place where `int` wraps around. -/
theorem compareU32_ahead {a b : U32} (hd : (b - a).toNat < 2 ^ 30) (h : 0 < compareU32 a b) : 2 ^ 30 ≤ a.toNat := by
  have ha := BitVec.toInt_eq_toNat_cond a
  have hb := BitVec.toInt_eq_toNat_cond b
  rw [BitVec.toNat_sub] at hd
  have := a.isLt
  have := b.isLt
  rcases compareU32_pos.1 h with h | h <;> omega

/-- What the window leaves free is what the client offered less what it has not acknowledged. -/
theorem getSendWindow_spec (hw : s.sendWindow.toNat < 2 ^ 30)
    (ha : 0 < compareU32 s.acked s.localSeq → 2 ^ 30 ≤ s.acked.toNat) (hpos : 0 < (getSendWindow s).toNat) :
    (s.localSeq - s.acked).toNat + (getSendWindow s).toNat = s.sendWindow.toNat := by
  unfold getSendWindow at *
  by_cases hc : compareU32 s.acked s.localSeq ≤ 0
  · simp only [hc, ↓reduceIte] at hpos ⊢
    split at hpos
    · rename_i hlt
      rw [if_pos hlt, BitVec.toNat_sub_of_le (BitVec.le_of_lt hlt)]
      have := BitVec.lt_def.1 hlt
      omega
    · simp at hpos
  · have hbig := ha (by omega)
    simp only [hc, ↓reduceIte] at hpos
    split at hpos
    · rename_i hlt
      have := BitVec.lt_def.1 hlt
      omega
    · simp at hpos

/-- After a write into the window. -/
theorem window_after_write {n : Nat} (hw : s.sendWindow.toNat < 2 ^ 30)
    (ha : 0 < compareU32 s.acked s.localSeq → 2 ^ 30 ≤ s.acked.toNat) (hpos : 0 < n)
    (hn : n ≤ (getSendWindow s).toNat) :
    (s.localSeq + BitVec.ofNat 32 n - s.acked).toNat ≤ s.sendWindow.toNat := by
  have h := getSendWindow_spec hw ha (by omega)
  have hsub : s.localSeq + BitVec.ofNat 32 n - s.acked = (s.localSeq - s.acked) + BitVec.ofNat 32 n := by ring
  rw [hsub, BitVec.toNat_add, BitVec.toNat_ofNat]
  have := (s.localSeq - s.acked).isLt
  omega

theorem window_lt (w : BitVec 16) {scale : Nat} (h : scale ≤ 14) : (w.setWidth 32 <<< scale).toNat < 2 ^ 30 := by
  have hw := w.isLt
  have hp : 2 ^ scale ≤ 2 ^ 14 := Nat.pow_le_pow_right (by decide) h
  have hm : w.toNat * 2 ^ scale ≤ 65535 * 2 ^ 14 := Nat.mul_le_mul (by omega) hp
  rw [BitVec.toNat_shiftLeft, BitVec.toNat_setWidth, Nat.shiftLeft_eq, Nat.mod_eq_of_lt (a := w.toNat) (by omega)]
  exact Nat.lt_of_le_of_lt (Nat.mod_le _ _) (by omega)

/-! ## The changes -/

/-- A packet without data is written, and the session goes on or closes. -/
theorem Downstream.written {ok : Bool} (h : Downstream s) (hl : SameLink s t) (hi : IdleSince s.io t.io)
    (hs : t.state = orClosing ok s.state) (hseq : t.localSeq = s.localSeq) (ha : t.acked = s.acked) :
    Downstream t := by
  cases ok with
  | true => exact h.idle hl hi hs hseq ha
  | false => exact h.closed hl hi (.inl hs)

theorem Downstream.closeWait (h : Downstream s) (hs : s.state = .established) :
    Downstream { s with state := .closeWait } :=
  ⟨h.direct, h.unsent, h.scale, h.window, h.contiguous, by simp, fun _ => h.next (.inr (.inl hs)),
    fun _ _ => h.whole (by simp [hs]) (by simp [hs]), fun _ => h.ahead (.inl hs)⟩

theorem Downstream.data {bytes : Bytes} {ok : Bool} (h : Downstream s)
    (hs : s.state = .established ∨ s.state = .closeWait) (hw : bytes.length ≤ (getSendWindow s).toNat)
    (hb : bytes ≠ []) :
    Downstream { s with
      localSeq := if ok then s.localSeq + BitVec.ofNat 32 bytes.length else s.localSeq
      state := orClosing ok s.state
      io := s.io ++ [.recv bytes] ++ [.tun (tunPacket s bytes false true false false) ok] } := by
  have hlive : s.state ≠ .closing ∧ s.state ≠ .close ∧ s.state ≠ .listen := by
    rcases hs with hs | hs <;> simp [hs]
  have hseq := h.next (.inr hs)
  have hwhole := h.whole hlive.1 hlive.2.1
  have hcont : Contiguous s.localStart
      (s.io ++ [.recv bytes] ++ [.tun (tunPacket s bytes false true false false) ok]) := by
    refine (h.contiguous.snoc ?_).snoc ?_
    · rintro _ _ ⟨⟩
    · rintro _ _ ⟨⟩ _
      refine ⟨?_, s.io, rfl, hwhole⟩
      simpa [Io.delivered, tunPacket] using hseq
  cases ok with
  | true =>
      refine ⟨h.direct, h.unsent, h.scale, h.window, hcont, ?_, ?_, ?_, ?_⟩
      · exact fun hl => absurd hl hlive.2.2
      · intro _
        have hlen :
          (delivered (s.io ++ [.recv bytes] ++ [.tun (tunPacket s bytes false true false false) true])).length =
            (delivered s.io).length + bytes.length := by simp [Io.delivered]
        simp only [↓reduceIte, hlen, BitVec.ofNat_add, hseq]
        ring
      · intro _ _
        simp [Io.delivered, Io.received, hwhole]
      · intro _
        refine compareU32_ahead ?_
        have := window_after_write h.window (h.ahead hs) (List.length_pos_iff.2 hb) hw
        have := h.window
        simp only [↓reduceIte]
        omega
  | false =>
      refine ⟨h.direct, h.unsent, h.scale, h.window, hcont, ?_, ?_, ?_, ?_⟩ <;> simp [orClosing]

theorem Move.downstream (hm : Move old op (ph, s) (ph', t)) (h : Downstream s) : Downstream t := by
  have hio := IdleSince.refl s.io
  cases hm with
  | note hc =>
      obtain ⟨calls, rfl, hq⟩ := hc
      exact h.idle ⟨rfl, rfl, rfl, rfl, rfl⟩ ⟨calls, rfl, fun c hc => Io.idle_of_quiet (hq c hc)⟩ rfl rfl rfl
  | window hop =>
      rename_i p e
      exact ⟨h.direct, h.unsent, h.scale, window_lt _ h.scale, h.contiguous, h.first, h.next, h.whole, h.ahead⟩
  | rst ok hl => exact h.writeRst
  | drop hs => exact h.closed ⟨rfl, rfl, rfl, rfl, rfl⟩ hio (.inl rfl)
  | connect hop hd hu hp hn hs => exact absurd (hd.trans hp) h.direct
  | early hop hu hd hn hq => exact absurd hd h.direct
  | queue hop ht hdata ho hw hq =>
      rw [queueTcp_eq]
      exact h.idle ⟨rfl, rfl, rfl, rfl, rfl⟩ hio rfl rfl rfl
  | finQueued hop ht hr hc hsyn hfin hs hf hb => exact h.closeWait hs
  | fin hop ht hr hc hsyn hfin hs hf hb ok =>
      exact (h.closeWait hs).written ⟨rfl, rfl, rfl, rfl, rfl⟩ (hio.snoc (Io.idle_tun rfl)) rfl rfl rfl
  | lastFin hop ht hr hc hsyn hfin hs hb ok =>
      refine h.closed ⟨rfl, rfl, rfl, rfl, rfl⟩ (hio.snoc (Io.idle_tun rfl)) ?_
      cases ok
      · exact .inl rfl
      · exact .inr rfl
  | ackAll hop ht hr ha hc =>
      refine ⟨h.direct, h.unsent, h.scale, h.window, h.contiguous, ?_, ?_, ?_, ?_⟩
      · cases hs : s.state <;> simp [TcpState.afterAck]
        exact h.first hs
      · cases hs : s.state <;> simp [TcpState.afterAck] <;> exact h.next (by simp [hs])
      · intro hc₁ hc₂
        exact h.whole ht.notClosing ht.notClose
      · intro _ hpos
        simp [compareU32_self] at hpos
  | ackPrevious hop ht ha hl hp =>
      refine ⟨h.direct, h.unsent, h.scale, h.window, h.contiguous, h.first, h.next, h.whole, ?_⟩
      intro _ hpos
      simp only [] at hpos
      omega
  | connected hop ho hs hb ok =>
      cases ok with
      | true =>
          obtain ⟨hseq, hnil⟩ := h.first hs
          have hi : IdleSince s.io (s.io ++
              [.tun (tunPacket { s with remoteSeq := s.remoteSeq + 1 } [] true true false false) true]) :=
            hio.snoc (Io.idle_tun rfl)
          refine ⟨h.direct, h.unsent, h.scale, h.window, h.contiguous.idle hi, ?_, ?_, ?_, ?_⟩
          · simp [orClosing]
          · intro _
            simp [hnil, hseq, Io.delivered]
          · intro _ _
            simpa [Io.delivered, Io.received] using h.whole (by simp [hs]) (by simp [hs])
          · simp [orClosing]
      | false => exact h.closed ⟨rfl, rfl, rfl, rfl, rfl⟩ (hio.snoc (Io.idle_tun rfl)) (.inl rfl)
  | proxied hop ho hs hn => exact absurd hn h.unsent
  | send hop ho hs hf hpos hdata hn hle =>
      refine h.idle ⟨rfl, rfl, rfl, rfl, rfl⟩ (hio.snoc ⟨rfl, ?_⟩) rfl rfl rfl
      rintro _ _ ⟨⟩
  | ack hop ho hs hf ok => exact h.written ⟨rfl, rfl, rfl, rfl, rfl⟩ (hio.snoc (Io.idle_tun rfl)) rfl rfl rfl
  | confirmFin hop ho hs hf ok => exact h.written ⟨rfl, rfl, rfl, rfl, rfl⟩ (hio.snoc (Io.idle_tun rfl)) rfl rfl rfl
  | data hop ho hs hw hb ok => exact h.data hs hw hb
  | eof hop ho hs hf ok =>
      have hlive : s.state ≠ .closing ∧ s.state ≠ .close := by rcases hs with hs | hs <;> simp [hs]
      have hi : IdleSince s.io (s.io ++ [.tun (tunPacket s [] false true true false) ok] ++ [.close s.socket]) :=
        (hio.snoc (Io.idle_tun rfl)).snoc ⟨rfl, by rintro _ _ ⟨⟩⟩
      refine ⟨h.direct, h.unsent, h.scale, h.window, h.contiguous.idle hi, ?_, ?_, ?_, ?_⟩
      · cases ok <;> rcases hs with hs | hs <;> simp [orClosing, hs, TcpState.afterEof]
      · cases ok <;> rcases hs with hs | hs <;> simp [orClosing, hs, TcpState.afterEof]
      · intro _ _
        cases ok <;> simpa [Io.delivered, Io.received] using h.whole hlive.1 hlive.2
      · cases ok <;> rcases hs with hs | hs <;> simp [orClosing, hs, TcpState.afterEof]
  | eofQueued hop ho hs hf ok =>
      refine h.closed ⟨rfl, rfl, rfl, rfl, rfl⟩ ((hio.snoc (Io.idle_tun rfl)).snoc ⟨rfl, ?_⟩) (.inl rfl)
      rintro _ _ ⟨⟩
  | keepAlive hop ho hs hb ok => exact h.written ⟨rfl, rfl, rfl, rfl, rfl⟩ (hio.snoc (Io.idle_tun rfl)) rfl rfl rfl
  | close hop hs =>
      refine h.closed ⟨rfl, rfl, rfl, rfl, rfl⟩ ?_ (.inr rfl)
      simp only []
      split
      · exact hio.snoc ⟨rfl, by rintro _ _ ⟨⟩⟩
      · exact hio

/-! ## Runs -/

theorem Downstream.of_new {e : HandleEnv} (h : handleTcpNew p e = some s) (hp : p.dest ≠ 443) (hs : s.sendScale ≤ 14) :
    Downstream s := by
  obtain ⟨-, -, -, mss, ws, rfl⟩ := handleTcpNew_some h
  refine ⟨hp, ?_, hs, window_lt _ hs, Contiguous.nil.snoc (by rintro _ _ ⟨⟩), fun _ => ⟨rfl, rfl⟩, ?_,
    fun _ _ => rfl, ?_⟩
  · simp only [synSession]
    split <;> simp
  · simp [synSession]
  · simp [synSession]

theorem tcpStep_downstream (h : Downstream s) (op : TcpOp) : Downstream (tcpStep s op) := by
  obtain ⟨ph, hs⟩ := tcpStep_invariant op (I := fun x => Downstream x.2) h fun _ _ hx hm => hm.downstream hx
  exact hs

theorem downstream_of_run {e : HandleEnv} {s₀ : TcpSession} {ops : List TcpOp} {ok : TcpSession → TcpOp → Prop}
    (h₀ : handleTcpNew p e = some s₀) (h : Run tcpStep ok s₀ ops s) (hp : p.dest ≠ 443) (hs : s₀.sendScale ≤ 14) :
    Downstream s :=
  h.invariant' (Downstream.of_new h₀ hp hs) fun _ op hs _ => tcpStep_downstream hs op

/-! ## The window at a write -/

/-- The data packets among the calls. -/
def dataPackets (io : List Io) : List TunPacket :=
  io.filterMap fun
    | .tun packet _ => if packet.data = [] then none else some packet
    | _ => none

theorem dataPackets_append : dataPackets (io ++ calls) = dataPackets io ++ dataPackets calls :=
  List.filterMap_append

theorem dataPackets_idle {io' : List Io} (h : IdleSince io io') : dataPackets io' = dataPackets io := by
  obtain ⟨calls, rfl, hi⟩ := h
  rw [dataPackets_append]
  have : dataPackets calls = [] := by
    rw [dataPackets, List.filterMap_eq_nil_iff]
    intro c hc
    cases c with
    | tun packet ok => simp [(hi _ hc).2 packet ok rfl]
    | _ => rfl
  rw [this, List.append_nil]

theorem writeRst_idle {ok : Bool} : IdleSince s.io (writeRst s ok).io := by
  rw [writeRst_eq]
  exact (IdleSince.refl _).snoc (Io.idle_tun rfl)

theorem IdleSince.trans {io' io'' : List Io} (h₁ : IdleSince io io') (h₂ : IdleSince io' io'') : IdleSince io io'' := by
  obtain ⟨calls, rfl, hi⟩ := h₁
  obtain ⟨calls', rfl, hi'⟩ := h₂
  exact ⟨calls ++ calls', by simp, fun c hc => (List.mem_append.1 hc).elim (hi c) (hi' c)⟩

theorem checkListen_idle {e : SocketEnv} : IdleSince s.io (checkListen s e).io := by
  unfold checkListen writeSynAck
  simp only [writeOrClose_eq]
  split
  · split
    · exact writeRst_idle
    · rename_i bytes _
      have hi : IdleSince s.io (s.io ++ [.reply bytes]) := (IdleSince.refl _).snoc ⟨rfl, by rintro _ _ ⟨⟩⟩
      split
      · split
        · exact hi.trans ⟨_, rfl, fun c hc => Io.idle_of_quiet (drained_quiet c hc)⟩
        · exact hi.trans writeRst_idle
      · exact hi
  · have hi : IdleSince s.io (s.io ++
        [.tun (tunPacket { s with remoteSeq := s.remoteSeq + 1 } [] true true false false) e.writeOk]) :=
      (IdleSince.refl _).snoc (Io.idle_tun rfl)
    split
    · exact hi
    · exact hi

theorem forwardLoop_idle {e : SocketEnv} {forward : List Segment} :
    ∀ {round bufferSize fwd s}, IdleSince s.io (forwardLoop e forward round bufferSize fwd s).1.io := by
  induction forward with
  | nil => exact IdleSince.refl _
  | cons q rest ih =>
      intro round bufferSize fwd s
      by_cases hg : q.pos = s.remoteSeq ∧ q.left < bufferSize
      · cases hoffer : offer s.dest q (e.heap round) with
        | none =>
            rw [forwardLoop_fault hg hoffer]
            exact (IdleSince.refl _).snoc ⟨rfl, by rintro _ _ ⟨⟩⟩
        | some data =>
            obtain ⟨n, hn, hle⟩ := clampSent_eq (e.send round data) q s.socket
            rw [forwardLoop_send hg hoffer hn hle]
            have hi : IdleSince s.io (afterSend s q rest data (onSocket s.socket (e.send round data).ret) n hle).io :=
              (IdleSince.refl _).snoc ⟨rfl, by rintro _ _ ⟨⟩⟩
            split
            · exact hi.trans ih
            · exact hi
      · rw [forwardLoop_stop hg]
        exact IdleSince.refl _

theorem acknowledge_idle {e : SocketEnv} {fwd : Bool} : IdleSince s.io (acknowledge s e fwd).io := by
  unfold acknowledge writeAck
  simp only [writeOrClose_eq]
  split
  · split <;> split <;> exact (IdleSince.refl _).snoc (Io.idle_tun rfl)
  · exact IdleSince.refl _

/-- The client has room for what was written: after the call, it is no further ahead of the acknowledged than the
window it offers. -/
def WithinWindow (s : TcpSession) : Prop := (s.localSeq - s.acked).toNat ≤ s.sendWindow.toNat

theorem readEof_idle {e : SocketEnv} : IdleSince s.io (readEof s e).io := by
  have hclose : Io.idle (.close s.socket) := ⟨rfl, by rintro _ _ ⟨⟩⟩
  unfold readEof writeFinAck
  simp only [writeOrClose_eq]
  by_cases hf : s.forward = []
  · simp only [hf, ↓reduceIte]
    cases e.readOk <;> cases s.state <;> exact ((IdleSince.refl _).snoc (Io.idle_tun rfl)).snoc hclose
  · simp only [hf, ↓reduceIte, writeRst_eq]
    exact ((IdleSince.refl _).snoc (Io.idle_tun rfl)).snoc hclose

theorem readSocket_window {e : SocketEnv} (h : Downstream s) (hs : s.state = .established ∨ s.state = .closeWait)
    (hd : dataPackets (readSocket s e).io ≠ dataPackets s.io) : WithinWindow (readSocket s e) := by
  revert hd
  unfold readSocket writeData
  simp only [writeOrClose_eq]
  split
  · rename_i hw
    split
    · split
      · exact fun hd => absurd (dataPackets_idle writeRst_idle) hd
      · exact fun hd => absurd rfl hd
    · exact fun hd => absurd (dataPackets_idle readEof_idle) hd
    · rename_i bytes hne hr
      intro _
      have hlen : bytes.length ≤ (getSendWindow s).toNat := by
        have := RecvResult.length_of_upTo hr
        split at this <;> omega
      have hpos : 0 < (getSendWindow s).toNat := by simpa using BitVec.lt_def.1 hw.2
      have hspec := getSendWindow_spec h.window (h.ahead hs) hpos
      split
      · exact window_after_write h.window (h.ahead hs) (List.length_pos_iff.2 hne) hlen
      · simp only [WithinWindow]
        omega
  · exact fun hd => absurd rfl hd

theorem Moves.downstream (hm : Moves old op (ph, s) (ph', t)) (h : Downstream s) : Downstream t := by
  generalize hx : (ph, s) = x at hm
  generalize hy : (ph', t) = y at hm
  induction hm generalizing ph' t with
  | refl =>
      subst hx
      cases hy
      exact h
  | tail _ hmove ih =>
      rename_i b c _
      subst hy
      exact hmove.downstream (ih rfl)

theorem checkTcpSocket_window {e : SocketEnv} (h : Downstream s) (ho : 0 ≤ s.socket)
    (hd : dataPackets (checkTcpSocket s e).io ≠ dataPackets s.io) : WithinWindow (checkTcpSocket s e) := by
  revert hd
  unfold checkTcpSocket
  split
  · exact fun hd => absurd (dataPackets_idle (writeRst_idle (s := { s with time := e.now }))) hd
  · split
    · exact fun hd => absurd (dataPackets_idle checkListen_idle) hd
    · rename_i hs
      generalize hr : (if e.ev.out then forwardData s e else (s, some false)) = r
      have hmoves : ∃ ph, Moves s (.socket e) (.fresh, s) (ph, r.1) ∧
          (∀ b, r.2 = some b → (b = true ↔ ph = .forwarded)) ∧ r.1.state = s.state ∧ r.1.socket = s.socket := by
        split at hr
        · exact forwardLoop_moves rfl hr ho hs (by simp) .refl
        · subst hr
          exact ⟨.fresh, .refl, by simp, rfl, rfl⟩
      have hidle : IdleSince s.io r.1.io := by
        split at hr
        · rw [← hr]
          exact forwardLoop_idle
        · rw [← hr]
          exact IdleSince.refl _
      obtain ⟨ph, h₁, hfwd, hs₁, ho₁⟩ := hmoves
      obtain ⟨s₁, fwd⟩ := r
      cases fwd with
      | none => exact fun hd => absurd (dataPackets_idle hidle) hd
      | some fwd =>
          intro hd
          obtain ⟨_, hmoves⟩ := acknowledge_moves rfl (ho₁ ▸ ho) (hs₁.symm ▸ hs) (hfwd _ rfl) h₁
          have hdown := Moves.downstream hmoves h
          have hidle₂ : IdleSince s.io (acknowledge s₁ e fwd).io := hidle.trans acknowledge_idle
          simp only [] at hd ⊢
          split at hd
          · rename_i hs₂
            rw [if_pos hs₂]
            exact readSocket_window hdown hs₂ (by rwa [dataPackets_idle hidle₂])
          · exact absurd (dataPackets_idle hidle₂) hd

/-- On a port other than 443, with a scale of at most 14: in every run, the data packets are numbered without gaps and
carry exactly what was read, in order; and each call that writes one stays within the window of the client. -/
theorem downstream_contiguous {e : HandleEnv} {s₀ : TcpSession} {ops : List TcpOp}
    (h₀ : handleTcpNew p e = some s₀) (h : Run tcpStep (fun _ _ => True) s₀ ops s) (hp : p.dest ≠ 443)
    (hs : s₀.sendScale ≤ 14) :
    Contiguous s.localStart s.io ∧
      (s.state ≠ .closing → s.state ≠ .close → delivered s.io = received s.io) ∧
      ∀ e : SocketEnv, 0 ≤ s.socket → dataPackets (checkTcpSocket s e).io ≠ dataPackets s.io →
        WithinWindow (checkTcpSocket s e) := by
  have hdown := downstream_of_run h₀ h hp hs
  exact ⟨hdown.contiguous, hdown.whole, fun e ho hd => checkTcpSocket_window hdown ho hd⟩

/-- The socket is connected, the client acknowledges, and the server sends `ok`. -/
def sampleDownload : List TcpOp :=
  [.socket { ev := ⟨false, false, true⟩ }, .packet (samplePkt 8080 1001 1 []) {},
    .socket { ev := ⟨false, true, false⟩, recv := .got [111, 107] }]

theorem downstream_contiguous_sample :
    Contiguous 0 (List.foldl tcpStep (sampleSession 8080) sampleDownload).io ∧
      delivered (List.foldl tcpStep (sampleSession 8080) sampleDownload).io = [111, 107] ∧
      WithinWindow (checkTcpSocket (List.foldl tcpStep (sampleSession 8080) sampleDownload)
        { ev := ⟨false, true, false⟩, recv := .got [33] }) := by
  have h := downstream_contiguous (sampleSession_new 8080) (Run.ofList tcpStep _ sampleDownload) (by decide) (by decide)
  exact ⟨h.1, by decide, h.2.2 _ (by decide) (by decide)⟩

end TunProxy.Native
