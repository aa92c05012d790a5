import TunProxy.Native.Tcp.Lemmas.Coherent

/-!
# A closing session

From `TCP_CLOSING` a session goes to `TCP_CLOSE` and stays there, except where the code for port 443 sends the CONNECT
request of a session that is closing.
-/

namespace TunProxy.Native

open Lib

variable {op : TcpOp} {old s s' : TcpSession} {ph ph' : Phase} {p : TcpPkt}

/-- The call is a packet of the session for which the CONNECT request is sent now. -/
def Connects (s : TcpSession) : TcpOp → Prop
  | .packet p e => p.belongs s = true ∧ p.urg = false ∧ p.dest = 443 ∧ s.connectSent = .notSent ∧
      0 ≤ onSocket s.socket e.connect
  | _ => False

/-- The call does not send the CONNECT request of a closing session. -/
def NotRevived (s : TcpSession) (op : TcpOp) : Prop := s.state = .closing → ¬Connects s op

/-- What the call does to a session that is closing or closed. -/
def ClosingKept (s : TcpSession) (op : TcpOp) : Prop :=
  (s.state = .closing → (tcpStep s op).state = .closing ∨ (tcpStep s op).state = .close) ∧
    (s.state = .close → (tcpStep s op).state = .close)

instance : (op : TcpOp) → Decidable (Connects s op)
  | .packet _ _ => inferInstanceAs (Decidable (_ ∧ _))
  | .socket _ | .monitor _ | .check _ | .stop _ => .isFalse id

instance : Decidable (NotRevived s op) := inferInstanceAs (Decidable (_ → ¬_))

instance : Decidable (ClosingKept s op) := inferInstanceAs (Decidable (_ ∧ _))

/-- `Connects` does not hold later in the call either. -/
def CannotConnect (s : TcpSession) (op : TcpOp) : Prop :=
  ∀ p e, op = .packet p e → s.dest = p.dest → p.urg = false → p.dest = 443 → s.connectSent = .notSent →
    onSocket s.socket e.connect < 0

theorem Move.closing_kept (hm : Move old op (ph, s) (ph', s')) (h : Coherent s)
    (hs : s.state = .closing ∨ s.state = .close) (hn : CannotConnect s op) :
    (s'.state = .closing ∨ s'.state = .close) ∧ (s.state = .close → s'.state = .close) ∧ CannotConnect s' op := by
  cases hm with
  | note hio => exact ⟨hs, id, hn⟩
  | window hop => exact ⟨hs, id, hn⟩
  | rst ok hl =>
      rw [writeRst_eq]
      refine ⟨?_, ?_, hn⟩
      · rcases hs with hs | hs <;> simp [hs]
      · intro hc
        simp [hc]
  | drop hd =>
      refine ⟨.inl rfl, ?_, hn⟩
      intro hc
      have := h.shut_socket (by simp [hc, TcpState.isShut])
      have := hd hc
      omega
  | connect hop hd hu hp hc ho =>
      have := hn _ _ hop hd hu hp hc
      omega
  | early hop hu hd hc hq =>
      rw [queueTcp_eq]
      exact ⟨hs, id, hn⟩
  | queue hop ht hdata ho hw hq => simp [ht.notClosing, ht.notClose] at hs
  | finQueued hop ht hr hc hsyn hfin he hf hb => simp [he] at hs
  | fin hop ht hr hc hsyn hfin he hf hb ok => simp [he] at hs
  | lastFin hop ht hr hc hsyn hfin he hb ok => simp [he] at hs
  | ackAll hop ht hr ha hc => simp [ht.notClosing, ht.notClose] at hs
  | ackPrevious hop ht ha hl hp => exact ⟨hs, id, hn⟩
  | connected hop ho he hb ok => simp [he] at hs
  | proxied hop ho he hc => simp [he] at hs
  | send hop ho he hf hpos hdata hc hle => exact ⟨hs, id, hn⟩
  | ack hop ho he hf ok =>
      have hc : s.state ≠ .close := fun hc => by
        have := h.shut_socket (by simp [hc, TcpState.isShut])
        omega
      have hs : s.state = .closing := by simpa [hc] using hs
      refine ⟨.inl ?_, fun hc' => absurd hc' hc, hn⟩
      cases ok <;> simp [orClosing, hs]
  | confirmFin hop ho he hf ok => simp [he] at hs
  | data hop ho he hw hb ok => rcases he with he | he <;> simp [he] at hs
  | eof hop ho he hf ok => rcases he with he | he <;> simp [he] at hs
  | eofQueued hop ho he hf ok => rcases he with he | he <;> simp [he] at hs
  | keepAlive hop ho he hb ok => rcases he with he | he <;> simp [he] at hs
  | close hop he =>
      refine ⟨.inr rfl, fun _ => rfl, ?_⟩
      intro p e hop' _ _ _ _
      rw [hop] at hop'
      cases hop'

/-- Where the call cannot connect, a closing session goes on closing. -/
theorem closingKept_of_cannotConnect (h : Coherent s) (hn : CannotConnect s op) : ClosingKept s op := by
  have key : s.state = .closing ∨ s.state = .close →
      ((tcpStep s op).state = .closing ∨ (tcpStep s op).state = .close) ∧
        (s.state = .close → (tcpStep s op).state = .close) := by
    intro hs
    obtain ⟨_, -, -, h₁, h₂⟩ := tcpStep_invariant op
      (I := fun x => Coherent x.2 ∧ CannotConnect x.2 op ∧ (x.2.state = .closing ∨ x.2.state = .close) ∧
        (s.state = .close → x.2.state = .close))
      ⟨h, hn, hs, id⟩ (by
        rintro ⟨_, t⟩ ⟨_, t'⟩ ⟨hc, hn, hs, hk⟩ hm
        obtain ⟨hs', hk', hn'⟩ := hm.closing_kept hc hs hn
        exact ⟨hm.coherent hc, hn', hs', fun h => hk' (hk h)⟩)
    exact ⟨h₁, h₂⟩
  exact ⟨fun hs => (key (.inl hs)).1, fun hs => (key (.inr hs)).2 hs⟩

/-- A closing session is put back into `TCP_LISTEN` by the packets for which CONNECT is sent. -/
theorem tcpStep_of_connects (hc : Connects s op) : (tcpStep s op).state = .listen := by
  cases op with
  | packet p e =>
      obtain ⟨hb, hu, hp, hn, ho⟩ := hc
      have h443 : (connect443 s p e).state = .listen ∧ (connect443 s p e).connectSent = .sent := by
        unfold connect443
        simp only [hn, ↓reduceIte]
        rw [if_neg (by omega)]
        exact ⟨rfl, rfl⟩
      simp [tcpStep, hb, handleTcp, hu, hp, h443.2, queueTcp_eq, h443.1]
  | _ => exact hc.elim

theorem cannotConnect_of_notRevived (h : Coherent s) (hn : NotRevived s op)
    (hs : s.state = .closing ∨ s.state = .close) (hb : ∀ p e, op = .packet p e → p.belongs s = true) :
    CannotConnect s op := by
  intro p e hop hd hu hp hc
  rcases hs with hs | hs
  · by_contra ho
    refine hn hs ?_
    rw [hop]
    exact ⟨hb p e hop, hu, hp, hc, by omega⟩
  · have := h.shut_socket (by simp [hs, TcpState.isShut])
    simp [onSocket, this]

theorem closingKept_iff (h : Coherent s) : ClosingKept s op ↔ NotRevived s op := by
  constructor
  · intro hk hs hc
    rcases hk.1 hs with h₁ | h₁ <;> simp [tcpStep_of_connects hc] at h₁
  · intro hn
    by_cases hs : s.state = .closing ∨ s.state = .close
    · by_cases hb : ∀ p e, op = .packet p e → p.belongs s = true
      · exact closingKept_of_cannotConnect h (cannotConnect_of_notRevived h hn hs hb)
      · -- a packet of another session
        push Not at hb
        obtain ⟨p, e, rfl, hb⟩ := hb
        simp [ClosingKept, tcpStep, hb]
        tauto
    · rw [not_or] at hs
      exact ⟨fun h => absurd h hs.1, fun h => absurd h hs.2⟩

/-! ## Runs -/

variable {e : HandleEnv} {s₀ : TcpSession} {ops : List TcpOp}

theorem closing_of_allOk (hc : Coherent s) {js : List TcpOp} (h : AllOk tcpStep ClosingKept s js) :
    (s.state = .closing ∨ s.state = .close →
        (js.foldl tcpStep s).state = .closing ∨ (js.foldl tcpStep s).state = .close) ∧
      (s.state = .close → (js.foldl tcpStep s).state = .close) := by
  induction js generalizing s with
  | nil => exact ⟨id, id⟩
  | cons op js ih =>
      obtain ⟨hk, h⟩ := h
      obtain ⟨ih₁, ih₂⟩ := ih (tcpStep_coherent hc op) h
      refine ⟨?_, fun hs => ih₂ (hk.2 hs)⟩
      rintro (hs | hs)
      · exact ih₁ (hk.1 hs)
      · exact ih₁ (.inr (hk.2 hs))

/-- After any run, calls keep a closing session closing, one by one and together, exactly as long as none of them sends
the CONNECT request of a closing session. -/
theorem closing_final_iff (h₀ : handleTcpNew p e = some s₀) (h : Run tcpStep (fun _ _ => True) s₀ ops s)
    (js : List TcpOp) :
    (AllOk tcpStep ClosingKept s js ↔ AllOk tcpStep NotRevived s js) ∧
      (AllOk tcpStep NotRevived s js →
        (s.state = .closing ∨ s.state = .close →
            (js.foldl tcpStep s).state = .closing ∨ (js.foldl tcpStep s).state = .close) ∧
          (s.state = .close → (js.foldl tcpStep s).state = .close)) := by
  have hc := coherent_of_run h₀ h
  clear h
  have hiff : AllOk tcpStep ClosingKept s js ↔ AllOk tcpStep NotRevived s js := by
    induction js generalizing s with
    | nil => exact Iff.rfl
    | cons op js ih => exact and_congr (closingKept_iff hc) (ih (tcpStep_coherent hc op))
  exact ⟨hiff, fun h => closing_of_allOk hc (hiff.2 h)⟩

/-- The session is stopped, then checked. -/
theorem closing_final_iff_stopped :
    handleTcpNew (sampleSyn 443) { socket := 5, buf := ⟨1, 0⟩ } = some (sampleSession 443) ∧
      ((tcpStep (tcpStep (sampleSession 443) (.stop true)) (.check { now := 1 })).state = .closing ∨
        (tcpStep (tcpStep (sampleSession 443) (.stop true)) (.check { now := 1 })).state = .close) :=
  ⟨sampleSession_new 443,
    ((closing_final_iff (sampleSession_new 443) (.snoc .nil trivial) [.check { now := 1 }]).2 (by decide)).1
      (.inl (by decide))⟩

/-- A session to port 443 that was stopped listens again once its client sends an ACK. -/
theorem closing_revived :
    handleTcpNew (sampleSyn 443) { socket := 5, buf := ⟨1, 0⟩ } = some (sampleSession 443) ∧
      (tcpStep (sampleSession 443) (.stop true)).state = .closing ∧
      ¬ClosingKept (tcpStep (sampleSession 443) (.stop true))
        (.packet (samplePkt 443 1001 1 []) { connect := 40 }) :=
  ⟨sampleSession_new 443, by decide, by decide⟩

end TunProxy.Native
