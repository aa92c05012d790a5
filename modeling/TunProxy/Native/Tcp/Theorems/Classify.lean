import TunProxy.Native.Tcp.Lemmas.Coherent

/-!
# How an ACK is classified

`compare_u32` orders sequence numbers as signed numbers, so an ACK is taken for another one where the numbers from
`acked` to `local_seq` and the ACK lie on both sides of 2^31, or at the one distance where the test for wrapping is off
by one.
-/

namespace TunProxy.Native

open Lib Lib.Serial

variable {s s₀ s₁ : TcpSession} {ops : List TcpOp} {p p₀ : TcpPkt} {e e₀ : HandleEnv} {ok : TcpSession → TcpOp → Prop}
  {acked ack localSeq : U32}

/-- A packet with ACK, and neither SYN, FIN, RST nor data. -/
structure TcpPkt.IsBareAck (p : TcpPkt) : Prop where
  ack : p.ack = true
  syn : p.syn = false
  fin : p.fin = false
  rst : p.rst = false
  data : p.data = []

/-- A reset is among the calls that were made since. -/
def Resets (s s' : TcpSession) : Prop := ∃ packet ok, .tun packet ok ∈ s'.io.drop s.io.length ∧ packet.rst = true

/-- `ack` is strictly between `acked` and the number before `localSeq`. -/
def Between (acked ack localSeq : U32) : Prop := 0 < dist acked ack ∧ dist acked ack + 1 < dist acked localSeq

instance Between.decidable : Decidable (Between acked ack localSeq) := inferInstanceAs (Decidable (_ ∧ _))

/-- What the ACK should do. -/
structure Classified (s s' : TcpSession) (p : TcpPkt) : Prop where
  reset : Resets s s' → Before s.localSeq p.ackSeq
  previous : Between s.acked p.ackSeq s.localSeq → s'.acked = p.ackSeq
  all : p.ackSeq = s.localSeq → s'.acked = s.localSeq
  forward : NotBefore s'.acked s.acked

/-- The order of the signed numbers is the one that is needed. -/
structure Ordered (acked ack localSeq : U32) : Prop where
  /-- `localSeq` is not the farthest back, seen from an ACK past it. -/
  future : ack.toInt - localSeq.toInt < 2 ^ 31
  distance : localSeq.toInt - ack.toInt ≠ 2 ^ 31 - 1
  repeated : acked.toInt < localSeq.toInt → acked.toInt - ack.toInt ≠ 2 ^ 31 - 1
  previous : Between acked ack localSeq → acked.toInt < ack.toInt

theorem ordered_def : Ordered acked ack localSeq ↔
    ack.toInt - localSeq.toInt < 2 ^ 31 ∧ localSeq.toInt - ack.toInt ≠ 2 ^ 31 - 1 ∧
      (acked.toInt < localSeq.toInt → acked.toInt - ack.toInt ≠ 2 ^ 31 - 1) ∧
      (Between acked ack localSeq → acked.toInt < ack.toInt) :=
  ⟨fun ⟨h₁, h₂, h₃, h₄⟩ => ⟨h₁, h₂, h₃, h₄⟩, fun ⟨h₁, h₂, h₃, h₄⟩ => ⟨h₁, h₂, h₃, h₄⟩⟩

instance Ordered.decidable : Decidable (Ordered acked ack localSeq) := decidable_of_iff _ ordered_def.symm

/-- The ACK acknowledges everything, or is a keep alive, or is ordered. A packet with URG is dropped, and must have
nothing new to say. -/
def AckOrdered (s : TcpSession) (p : TcpPkt) : Prop :=
  if p.urg then ¬Between s.acked p.ackSeq s.localSeq ∧ (p.ackSeq = s.localSeq → s.acked = s.localSeq)
  else p.ackSeq = s.localSeq ∨ p.ackSeq + 1 = s.localSeq ∨ Ordered s.acked p.ackSeq s.localSeq

instance AckOrdered.decidable : Decidable (AckOrdered s p) := by
  unfold AckOrdered
  infer_instance

/-! ## Numbers -/

theorem dist_toNat (a b : U32) : dist a b = (2 ^ 32 - a.toNat + b.toNat) % 2 ^ 32 := by
  show (b - a).toNat = _
  rw [BitVec.toNat_sub]

theorem toInt_cases (a : U32) :
    (a.toNat < 2 ^ 31 ∧ a.toInt = a.toNat) ∨ (2 ^ 31 ≤ a.toNat ∧ a.toNat < 2 ^ 32 ∧ a.toInt = a.toNat - 2 ^ 32) := by
  have hlt := a.isLt
  rw [BitVec.toInt_eq_toNat_cond]
  split
  · exact .inl ⟨by omega, rfl⟩
  · exact .inr ⟨by omega, hlt, rfl⟩

theorem ne_toNat {a b : U32} (h : a ≠ b) : a.toNat ≠ b.toNat := fun h' => h (BitVec.eq_of_toNat_eq h')

theorem succ_toNat (a : U32) : (a + 1).toNat = (a.toNat + 1) % 2 ^ 32 := by
  rw [BitVec.toNat_add]
  rfl

/-- What was sent before is not ahead. -/
theorem not_before_of_between (hw : dist acked localSeq < 2 ^ 30) (h : Between acked ack localSeq) :
    ¬Before localSeq ack := by
  rintro ⟨-, hlt⟩
  have hrest := dist_of_le (a := acked) (b := ack) (c := localSeq) (by have := h.2; omega)
  have hpos : 0 < dist ack localSeq := by
    have := h.2
    omega
  have hsum := dist_trans (a := localSeq) (b := ack) (c := localSeq) (by have := h.1; omega)
  rw [dist_self] at hsum
  omega

/-- An ACK that is not taken for an old one is ahead. -/
theorem future_iff (hl : ack ≠ localSeq) : (¬compareU32 ack localSeq < 0 → Before localSeq ack) ↔
    ack.toInt - localSeq.toInt < 2 ^ 31 ∧ localSeq.toInt - ack.toInt ≠ 2 ^ 31 - 1 := by
  have hl := ne_toNat hl
  have hx := toInt_cases ack
  have hb := toInt_cases localSeq
  rw [compareU32_neg, Before, dist_toNat]
  generalize ack.toNat = x, ack.toInt = x', localSeq.toNat = l, localSeq.toInt = l' at *
  omega

/-- An old ACK that is taken for a repeated one is not past `acked`. -/
theorem previous_iff (hw : dist acked localSeq < 2 ^ 30) :
    (compareU32 ack localSeq < 0 → compareU32 ack acked ≤ 0 → ¬Between acked ack localSeq) ↔
      (Between acked ack localSeq → acked.toInt < ack.toInt) := by
  have ha := toInt_cases acked
  have hx := toInt_cases ack
  have hb := toInt_cases localSeq
  rw [← not_lt (b := compareU32 ack acked), compareU32_pos, compareU32_neg, Between]
  simp only [dist_toNat] at hw ⊢
  generalize acked.toNat = a, acked.toInt = a', ack.toNat = x, ack.toInt = x', localSeq.toNat = l,
    localSeq.toInt = l' at *
  omega

/-- An old ACK that is not taken for a repeated one is not before `acked`. -/
theorem repeated_iff (hw : dist acked localSeq < 2 ^ 30) :
    (compareU32 ack localSeq < 0 → ¬compareU32 ack acked ≤ 0 → NotBefore ack acked) ↔
      (acked.toInt < localSeq.toInt → acked.toInt - ack.toInt ≠ 2 ^ 31 - 1) := by
  have ha := toInt_cases acked
  have hx := toInt_cases ack
  have hb := toInt_cases localSeq
  rw [not_le, compareU32_pos, compareU32_neg, NotBefore]
  simp only [dist_toNat] at hw ⊢
  generalize acked.toNat = a, acked.toInt = a', ack.toNat = x, ack.toInt = x', localSeq.toNat = l,
    localSeq.toInt = l' at *
  omega

/-- What `compare_u32` makes of the ACK, and when that is right. -/
theorem ordered_iff (hw : dist acked localSeq < 2 ^ 30) (hl : ack ≠ localSeq) :
    Ordered acked ack localSeq ↔
      (¬compareU32 ack localSeq < 0 → Before localSeq ack) ∧
        (compareU32 ack localSeq < 0 → compareU32 ack acked ≤ 0 → ¬Between acked ack localSeq) ∧
        (compareU32 ack localSeq < 0 → ¬compareU32 ack acked ≤ 0 → NotBefore ack acked) := by
  rw [ordered_def, future_iff hl, previous_iff hw, repeated_iff hw]
  tauto

/-! ## The handler -/

theorem handleFlags_bareAck (hp : p.IsBareAck) :
    handleFlags s p e = if p.ackSeq = s.localSeq then handleAck s p else handleOtherAck s p e := by
  simp only [handleFlags, hp.rst, hp.syn, hp.fin, hp.ack, TcpPkt.current, Bool.false_eq_true, ↓reduceIte,
    Bool.true_eq_false, false_or]

theorem handleOpen_bareAck (hp : p.IsBareAck) (hs : s.state.isConnected = true) : handleOpen s p e =
    handleFlags { s with time := e.now, sendWindow := p.window.setWidth 32 <<< s.sendScale } p e := by
  have hne : ¬(s.state = .closing ∨ s.state = .close) := by
    rintro (h | h) <;> rw [h] at hs <;> cases hs
  rw [handleOpen, if_neg hne]
  exact if_neg (by simp [hp.data])

/-- Behind the CONNECT phase, the code under "Session found" gets the packet. -/
theorem handleTcp_proxied (hu : p.urg = false) (hc : p.dest = 443 → s.connectSent = .established) :
    ∃ hostname, handleTcp s p e = handleOpen { s with hostname } p e := by
  rw [handleTcp, hu, if_neg Bool.false_ne_true]
  by_cases hd : p.dest = 443
  · have hconnect : connect443 s p e = { s with hostname := serverName s p e } := by
      rw [connect443]
      exact if_neg (by simp [hc hd])
    refine ⟨serverName s p e, ?_⟩
    rw [if_pos hd, hconnect]
    exact if_neg (by simp [hc hd])
  · refine ⟨s.hostname, ?_⟩
    rw [if_neg hd]
    exact if_neg fun h => hd h.1

theorem resets_same (h : s₁.io = s.io) : ¬Resets s s₁ := by
  rintro ⟨packet, ok, hm, -⟩
  rw [h, List.drop_length] at hm
  cases hm

theorem resets_writeRst {ok : Bool} (h : s₁.io = s.io) : Resets s (writeRst s₁ ok) := by
  rw [writeRst_eq, Resets, h, List.drop_left]
  exact ⟨_, ok, List.mem_cons_self, rfl⟩

/-- An ACK that changes nothing must not be one that sets `acked`. -/
theorem classified_same (hio : s₁.io = s.io) (ha : s₁.acked = s.acked) :
    Classified s s₁ p ↔ ¬Between s.acked p.ackSeq s.localSeq ∧ (p.ackSeq = s.localSeq → s.acked = s.localSeq) := by
  constructor
  · intro h
    refine ⟨fun hb => ?_, fun hl => ha.symm.trans (h.all hl)⟩
    have heq := h.previous hb
    rw [ha] at heq
    have hpos := hb.1
    rw [← heq, dist_self] at hpos
    exact absurd hpos (lt_irrefl 0)
  · rintro ⟨hb, hl⟩
    refine ⟨fun h => absurd h (resets_same hio), fun h => absurd h hb, fun h => ha.trans (hl h), ?_⟩
    rw [ha]
    exact NotBefore.refl _

theorem not_between_localSeq : ¬Between acked localSeq localSeq := fun h => by
  have := h.2
  omega

theorem classified_all (hw : dist s.acked s.localSeq < 2 ^ 30) (hl : p.ackSeq = s.localSeq) (hio : s₁.io = s.io)
    (hs : s₁.localSeq = s.localSeq) : Classified s (handleAck s₁ p) p := by
  rw [handleAck_eq (hl.trans hs.symm), hs]
  refine ⟨fun h => absurd h (resets_same hio), fun h => ?_, fun _ => rfl, ?_⟩
  · rw [hl] at h
    exact absurd h not_between_localSeq
  · change dist s.acked s.localSeq < 2 ^ 31
    omega

/-- A keep alive is behind everything that could be acknowledged. -/
theorem not_between_keepAlive (hk : ack + 1 = localSeq) : ¬Between acked ack localSeq := by
  rintro ⟨-, h⟩
  have hd := congrArg BitVec.toNat hk
  rw [succ_toNat] at hd
  simp only [dist_toNat] at h
  have := acked.isLt
  have := ack.isLt
  omega

theorem classified_other (hw : dist s.acked s.localSeq < 2 ^ 30) (hl : p.ackSeq ≠ s.localSeq) (hio : s₁.io = s.io)
    (ha : s₁.acked = s.acked) (hs : s₁.localSeq = s.localSeq) :
    Classified s (handleOtherAck s₁ p e) p ↔ p.ackSeq + 1 = s.localSeq ∨ Ordered s.acked p.ackSeq s.localSeq := by
  by_cases hk : p.ackSeq + 1 = s.localSeq
  · rw [handleOtherAck, hs, if_pos hk, classified_same hio ha]
    exact iff_of_true ⟨not_between_keepAlive hk, fun h => absurd h hl⟩ (.inl hk)
  · rw [handleOtherAck, hs, if_neg hk, ha, or_iff_right hk, ordered_iff hw hl]
    by_cases hlt : compareU32 p.ackSeq s.localSeq < 0
    · rw [if_pos hlt]
      by_cases hle : compareU32 p.ackSeq s.acked ≤ 0
      · rw [if_pos hle, classified_same hio ha]
        simp [hlt, hle, hl]
      · rw [if_neg hle]
        simp only [hlt, hle, not_true_eq_false, not_false_eq_true, true_imp_iff, false_imp_iff, true_and]
        constructor
        · exact fun h => h.forward
        · exact fun h => ⟨fun hr => absurd hr (resets_same hio), fun _ => rfl, fun hl' => absurd hl' hl, h⟩
    · rw [if_neg hlt]
      simp only [hlt, not_false_eq_true, true_imp_iff, false_imp_iff, and_true]
      constructor
      · exact fun h => h.reset (resets_writeRst hio)
      · intro hb
        have hacked : (writeRst s₁ e.writeOk).acked = s.acked := by rw [writeRst_eq, ha]
        refine ⟨fun _ => hb, fun hbetween => ?_, fun hl' => absurd hl' hl, ?_⟩
        · exact absurd hb (not_before_of_between hw hbetween)
        · rw [hacked]
          exact NotBefore.refl _

/-! ## Exactly when it is right -/

/-- In every session that is connected to its client, with less than 2^30 bytes on the way. -/
theorem ack_classified_iff (h₀ : handleTcpNew p₀ e₀ = some s₀) (hrun : Run tcpStep ok s₀ ops s)
    (hs : s.state.isConnected = true) (hw : dist s.acked s.localSeq < 2 ^ 30) (hb : p.belongs s = true)
    (hp : p.IsBareAck) (e : HandleEnv) : Classified s (handleTcp s p e) p ↔ AckOrdered s p := by
  rw [AckOrdered]
  by_cases hu : p.urg = true
  · rw [if_pos hu, handleTcp, if_pos hu]
    exact classified_same rfl rfl
  · rw [if_neg hu]
    have hc : p.dest = 443 → s.connectSent = .established := fun hd =>
      (coherent_of_run h₀ hrun).proxied hs ((belongs_dest hb).trans hd)
    obtain ⟨hostname, hstep⟩ := handleTcp_proxied (e := e) (by simpa using hu) hc
    rw [hstep, handleOpen_bareAck (s := { s with hostname }) hp hs, handleFlags_bareAck hp]
    by_cases hl : p.ackSeq = s.localSeq
    · rw [if_pos hl]
      exact iff_of_true (classified_all hw hl rfl rfl) (.inl hl)
    · rw [if_neg hl, or_iff_right hl]
      exact classified_other hw hl rfl rfl rfl

/-- The handshake, and ten bytes from the server. -/
def sampleExchange (rand : U32) : List TcpOp :=
  [.socket { ev := ⟨false, false, true⟩ }, .packet (samplePkt 80 1001 (rand + 1) []) {},
    .socket { ev := ⟨false, true, false⟩, recv := .got (List.replicate 10 0) }]

/-- A session with the first number `rand + 1`, and the ten bytes not acknowledged. -/
def sampleUnacked (rand : U32) : TcpSession :=
  (sampleExchange rand).foldl tcpStep (synSession (sampleSyn 80) { socket := 5, rand } 9960 0)

theorem ack_classified_first :
    let s := sampleUnacked 0
    let p := samplePkt 80 1001 5 []
    s.acked = 1 ∧ s.localSeq = 11 ∧ AckOrdered s p ∧ Classified s (handleTcp s p {}) p := by
  have hnew : handleTcpNew (sampleSyn 80) { socket := 5, buf := ⟨1, 0⟩ } =
      some (synSession (sampleSyn 80) { socket := 5, rand := 0 } 9960 0) := rfl
  refine ⟨by decide, by decide, by decide, ?_⟩
  exact (ack_classified_iff hnew (Run.ofList tcpStep _ (sampleExchange 0)) (by decide) (by decide) (by decide)
    ⟨rfl, rfl, rfl, rfl, rfl⟩ {}).2 (by decide)

/-- The session has sent the bytes from 0x7FFFFFFB on. The ACK of three of them is answered with a reset. -/
theorem ack_reset_across :
    let s := sampleUnacked 0x7FFFFFFA
    let p := samplePkt 80 1001 0x7FFFFFFE []
    handleTcpNew (sampleSyn 80) { socket := 5, rand := 0x7FFFFFFA, buf := ⟨1, 0⟩ } =
        some (synSession (sampleSyn 80) { socket := 5, rand := 0x7FFFFFFA } 9960 0) ∧
      s.state = .established ∧ dist s.acked s.localSeq < 2 ^ 30 ∧ p.belongs s = true ∧ p.IsBareAck ∧
      ¬Classified s (handleTcp s p {}) p := by
  refine ⟨rfl, by decide, by decide, by decide, ⟨rfl, rfl, rfl, rfl, rfl⟩, fun h => ?_⟩
  have hacked :
    (handleTcp (sampleUnacked 0x7FFFFFFA) (samplePkt 80 1001 0x7FFFFFFE []) {}).acked = 0x7FFFFFFB := by decide
  have hprev := h.previous (by decide)
  rw [hacked] at hprev
  exact absurd hprev (by decide)

end TunProxy.Native
