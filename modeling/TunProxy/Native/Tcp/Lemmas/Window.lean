import TunProxy.Native.Tcp.Step

/-!
# The receive window fits into its field

`get_receive_window` is the only source of `recv_window`, and what it returns needs 16 bits when it is scaled.
-/

namespace TunProxy.Native

variable {s t : TcpSession} {p : TcpPkt} {data : Bytes} {syn ack fin rst ok : Bool}

/-- `htons(recv_window >> recv_scale)` loses nothing. -/
def WindowFits (s : TcpSession) : Prop := (s.recvWindow >>> s.recvScale).toNat < 2 ^ 16

/-- The window is never more than `max`. -/
theorem getReceiveWindow_le (s : TcpSession) (b : SockBuf) :
    (getReceiveWindow s b).toNat ≤ (BitVec.ofNat 32 0xFFFF <<< s.recvScale).toNat := by
  unfold getReceiveWindow
  generalize List.foldl (fun n q => n + Segment.left q) 0 s.forward = toforward
  generalize BitVec.ofNat 32 (getReceiveBuffer s b) = window
  generalize BitVec.ofNat 32 0xFFFF <<< s.recvScale = max
  have hclamp : (if window > max then max else window).toNat ≤ max.toNat := by
    split
    · exact Nat.le_refl _
    · rename_i hle
      exact BitVec.le_def.1 (BitVec.not_lt.1 hle)
  simp only []
  generalize (if window > max then max else window) = window at hclamp
  have hsub : (if toforward < window then window - toforward else 0).toNat ≤ max.toNat := by
    split
    · rename_i hlt
      rw [BitVec.toNat_sub_of_le (BitVec.le_of_lt hlt)]
      omega
    · exact Nat.zero_le _
  generalize (if toforward < window then window - toforward else 0) = window at hsub
  split
  · exact Nat.zero_le _
  · exact hsub

theorem getReceiveWindow_fits (s : TcpSession) (b : SockBuf) :
    (getReceiveWindow s b >>> s.recvScale).toNat < 2 ^ 16 := by
  have hle := getReceiveWindow_le s b
  rw [BitVec.toNat_shiftLeft, Nat.shiftLeft_eq] at hle
  rw [BitVec.toNat_ushiftRight, Nat.shiftRight_eq_div_pow]
  have hmax : (getReceiveWindow s b).toNat ≤ 0xFFFF * 2 ^ s.recvScale := hle.trans (Nat.mod_le _ _)
  have hdiv : (getReceiveWindow s b).toNat / 2 ^ s.recvScale ≤ 0xFFFF :=
    Nat.div_le_of_le_mul (Nat.mul_comm _ _ ▸ hmax)
  omega

/-! ## The other functions leave the window alone -/

/-- The window and its scale. -/
def TcpSession.scaled (s : TcpSession) : U32 × Nat := (s.recvWindow, s.recvScale)

theorem WindowFits.congr (h : WindowFits s) (ht : t.scaled = s.scaled) : WindowFits t := by
  simp only [TcpSession.scaled, Prod.mk.injEq] at ht
  rw [WindowFits, ht.1, ht.2]
  exact h

@[simp] theorem writeOrClose_scaled : (writeOrClose s data syn fin ok).scaled = s.scaled := by
  rw [writeOrClose_eq]
  rfl

@[simp] theorem writeRst_scaled : (writeRst s ok).scaled = s.scaled := by
  rw [writeRst_eq]
  rfl

@[simp] theorem queueTcp_scaled : (queueTcp s p).scaled = s.scaled := by
  unfold queueTcp
  split <;> rfl

theorem handleFlags_scaled {e : HandleEnv} : (handleFlags s p e).scaled = s.scaled := by
  unfold handleFlags
  split
  · rfl
  · split
    · split
      · rfl
      · split
        · unfold handleFin writeAck
          split
          · split
            · simp only []
              split
              · exact writeOrClose_scaled
              · exact writeOrClose_scaled
            · rfl
          · simp only []
            split
            · exact writeOrClose_scaled
            · exact writeOrClose_scaled
          · rfl
        · split
          · unfold handleAck
            simp only []
            split <;> rfl
          · rfl
    · unfold handleOtherAck
      split
      · rfl
      · split
        · split <;> rfl
        · exact writeRst_scaled

theorem handleTcp_scaled {e : HandleEnv} : (handleTcp s p e).scaled = s.scaled := by
  have hconnect : (connect443 s p e).scaled = s.scaled := by
    unfold connect443
    simp only []
    split
    · split
      · exact writeRst_scaled
      · rfl
    · rfl
  have hopen : ∀ s : TcpSession, (handleOpen s p e).scaled = s.scaled := by
    intro s
    unfold handleOpen
    split
    · exact writeRst_scaled
    · simp only []
      split
      · split
        · exact writeRst_scaled
        · split
          · exact writeRst_scaled
          · exact handleFlags_scaled.trans queueTcp_scaled
      · exact handleFlags_scaled
  unfold handleTcp
  split
  · rfl
  · simp only []
    split
    · split
      · exact queueTcp_scaled.trans hconnect
      · exact (hopen _).trans hconnect
    · split
      · exact queueTcp_scaled
      · exact hopen _

theorem forwardLoop_scaled {e : SocketEnv} {forward : List Segment} {round : Nat} {bufferSize : U32} {fwd : Bool} :
    (forwardLoop e forward round bufferSize fwd s).1.scaled = s.scaled := by
  induction forward generalizing s round bufferSize fwd with
  | nil => rfl
  | cons q rest ih =>
      simp only [forwardLoop]
      split
      · split
        · rfl
        · split
          · split
            · rfl
            · exact writeRst_scaled
          · split
            · exact ih
            · rfl
      · rfl

theorem forwardData_scaled {e : SocketEnv} : (forwardData s e).1.scaled = s.scaled := forwardLoop_scaled

theorem checkListen_scaled {e : SocketEnv} : (checkListen s e).scaled = s.scaled := by
  unfold checkListen writeSynAck
  split
  · split
    · exact writeRst_scaled
    · simp only []
      split
      · split
        · rfl
        · exact writeRst_scaled
      · rfl
  · simp only []
    split
    · exact writeOrClose_scaled
    · exact writeOrClose_scaled

theorem readEof_scaled {e : SocketEnv} : (readEof s e).scaled = s.scaled := by
  unfold readEof writeFinAck
  by_cases hf : s.forward = []
  · have hw : ∀ ok, (writeOrClose s [] false true ok).scaled = s.scaled := fun _ => writeOrClose_scaled
    simp only [hf, ↓reduceIte]
    cases e.readOk with
    | true =>
        simp only [↓reduceIte]
        split <;> exact hw _
    | false =>
        simp only [Bool.false_eq_true, ↓reduceIte]
        split <;> exact hw _
  · simp only [hf, ↓reduceIte]
    exact writeRst_scaled

theorem readSocket_scaled {e : SocketEnv} : (readSocket s e).scaled = s.scaled := by
  unfold readSocket writeData
  simp only []
  split
  · split
    · split
      · exact writeRst_scaled
      · rfl
    · exact readEof_scaled
    · split
      · exact writeOrClose_scaled
      · exact writeOrClose_scaled
  · rfl

theorem monitorTcpSession_scaled {e : MonitorEnv} : (monitorTcpSession s e).scaled = s.scaled := by
  have halive : (keepAlive s e).scaled = s.scaled := by
    unfold keepAlive writeAck
    split
    · exact writeOrClose_scaled
    · rfl
  unfold monitorTcpSession
  simp only []
  split
  · split
    · split
      · exact halive
      · exact halive
    · exact halive
  · split
    · split <;> rfl
    · rfl

theorem checkTcpSession_scaled {e : CheckEnv} : (checkTcpSession s e).1.scaled = s.scaled := by
  have htimeout : (checkTimeout s e).scaled = s.scaled := by
    unfold checkTimeout
    split
    · split
      · rfl
      · exact writeRst_scaled
    · rfl
  have hclosing : ∀ s : TcpSession, (checkClosing s e).scaled = s.scaled := by
    intro s
    unfold checkClosing
    split
    · simp only []
      split <;> rfl
    · rfl
  unfold checkTcpSession
  simp only []
  split
  · exact (hclosing _).trans htimeout
  · exact (hclosing _).trans htimeout

/-! ## Every call keeps it -/

theorem acknowledge_fits {e : SocketEnv} {fwd : Bool} : WindowFits (acknowledge s e fwd) := by
  have hnew : WindowFits { s with recvWindow := getReceiveWindow s e.winBuf } := getReceiveWindow_fits s e.winBuf
  unfold acknowledge writeAck
  simp only []
  split
  · split
    · split
      · exact hnew.congr writeOrClose_scaled
      · exact hnew.congr writeOrClose_scaled
    · split
      · exact hnew.congr writeOrClose_scaled
      · exact hnew.congr writeOrClose_scaled
  · exact hnew

theorem checkTcpSocket_fits {e : SocketEnv} (h : WindowFits s) : WindowFits (checkTcpSocket s e) := by
  unfold checkTcpSocket
  split
  · exact h.congr writeRst_scaled
  · split
    · exact h.congr checkListen_scaled
    · have hfwd : (if e.ev.out then forwardData s e else (s, some false)).1.scaled = s.scaled := by
        split
        · exact forwardData_scaled
        · rfl
      generalize (if e.ev.out then forwardData s e else (s, some false)) = x at hfwd
      obtain ⟨t, fwd⟩ := x
      cases fwd with
      | none => exact h.congr hfwd
      | some fwd =>
          simp only []
          split
          · exact acknowledge_fits.congr readSocket_scaled
          · exact acknowledge_fits

theorem tcpStep_fits (h : WindowFits s) (op : TcpOp) : WindowFits (tcpStep s op) := by
  cases op with
  | packet p e =>
      simp only [tcpStep]
      split
      · exact h.congr handleTcp_scaled
      · exact h
  | socket e =>
      simp only [tcpStep]
      split
      · exact checkTcpSocket_fits h
      · exact h
  | monitor e =>
      simp only [tcpStep]
      split
      · exact h.congr monitorTcpSession_scaled
      · exact h
  | check e => exact h.congr checkTcpSession_scaled
  | stop writeOk =>
      simp only [tcpStep, stopTcp]
      split
      · exact h.congr writeRst_scaled
      · exact h

end TunProxy.Native
