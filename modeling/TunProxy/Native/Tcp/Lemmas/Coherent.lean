import TunProxy.Lib.Run
import TunProxy.Native.Tcp.Lemmas.Moves

/-!
# State, socket and queue belong together

What holds between `state`, `socket`, `connectSent` and `forward` in every reachable session.
-/

namespace TunProxy.Native

open Lib

variable {op : TcpOp} {old s s' : TcpSession} {ph ph' : Phase} {p : TcpPkt}

/-- What every change keeps, every call keeps. -/
theorem tcpStep_invariant (op : TcpOp) {I : Phase × TcpSession → Prop} (h : I (.fresh, s))
    (hm : ∀ x y, I x → Move s op x y → I y) : ∃ ph, I (ph, tcpStep s op) := by
  obtain ⟨ph, hs⟩ := tcpStep_moves s op
  refine ⟨ph, ?_⟩
  generalize (ph, tcpStep s op) = y at hs
  induction hs with
  | refl => exact h
  | tail _ hmove ih => exact hm _ _ ih hmove

/-- The fields set once, when the session is created. -/
def TcpSession.fixed (s : TcpSession) :
    Nat × Nat × Nat × Nat × U32 × U32 × Bytes × BitVec 16 × Bytes × BitVec 16 :=
  (s.version, s.mss, s.recvScale, s.sendScale, s.remoteStart, s.localStart, s.saddr, s.source, s.daddr, s.dest)

theorem Move.fixed (hm : Move old op (ph, s) (ph', s')) : s'.fixed = s.fixed := by
  cases hm with
  | rst ok hl => rw [writeRst_eq]; rfl
  | early hop hu hd hn hq => rw [queueTcp_eq]; rfl
  | queue hop ht hdata hs hw hq => rw [queueTcp_eq]; rfl
  | _ => rfl

theorem tcpStep_fixed (s : TcpSession) (op : TcpOp) : (tcpStep s op).fixed = s.fixed := by
  obtain ⟨ph, hs⟩ := tcpStep_invariant op (s := s) (I := fun x => x.2.fixed = s.fixed) rfl
    fun _ _ hx hm => hm.fixed.trans hx
  exact hs

theorem belongs_congr (h : s.fixed = s'.fixed) : p.belongs s = p.belongs s' := by
  simp only [TcpSession.fixed, Prod.mk.injEq] at h
  obtain ⟨hv, -, -, -, -, -, hsa, hso, hda, hde⟩ := h
  simp only [TcpPkt.belongs, hv, hsa, hso, hda, hde]

/-- The states in which the socket is open. -/
def TcpState.isOpen : TcpState → Bool
  | .listen | .synRecv | .established | .closeWait => true
  | _ => false

/-- The states in which the socket is closed. -/
def TcpState.isShut : TcpState → Bool
  | .finWait1 | .lastAck | .close => true
  | _ => false

/-- The states after the handshake with the client. -/
def TcpState.isConnected : TcpState → Bool
  | .established | .closeWait | .finWait1 | .lastAck => true
  | _ => false

/-- Opening and closing the socket. -/
def Io.isFd : Io → Bool
  | .open _ | .close _ => true
  | _ => false

theorem Io.isFd_of_quiet {c : Io} (h : c.quiet = true) : c.isFd = false := by
  cases c <;> simp_all [Io.quiet, Io.isFd]

structure Coherent (s : TcpSession) : Prop where
  open_socket : s.state.isOpen = true → 0 ≤ s.socket
  shut_socket : s.state.isShut = true → s.socket = -1
  proxied : s.state.isConnected = true → s.dest = 443 → s.connectSent = .established
  drained : s.state = .finWait1 ∨ s.state = .lastAck → s.forward = []
  fds : ∃ fd, 0 ≤ fd ∧
    (s.socket = fd ∧ s.io.filter Io.isFd = [.open fd] ∨
      s.socket = -1 ∧ s.io.filter Io.isFd = [.open fd, .close fd])

/-- A closing session may have its socket open or closed. -/
theorem Coherent.closing (hs : s.state = .closing) (hfds : ∃ fd, 0 ≤ fd ∧
    (s.socket = fd ∧ s.io.filter Io.isFd = [.open fd] ∨
      s.socket = -1 ∧ s.io.filter Io.isFd = [.open fd, .close fd])) : Coherent s :=
  ⟨by simp [hs, TcpState.isOpen], by simp [hs, TcpState.isShut], by simp [hs, TcpState.isConnected], by simp [hs],
    hfds⟩

theorem Coherent.writeRst {ok : Bool} (h : Coherent s) : Coherent (writeRst s ok) := by
  rw [writeRst_eq]
  have hfds := h.fds
  by_cases hc : s.state = .close
  · have hs := h.shut_socket (by simp [hc, TcpState.isShut])
    exact ⟨by simp [hc, TcpState.isOpen], fun _ => hs, by simp [hc, TcpState.isConnected], by simp [hc],
      by simpa [Io.isFd] using hfds⟩
  · exact .closing (by simp [hc]) (by simpa [Io.isFd] using hfds)

/-- A packet is sent, and the session is closing if that fails. -/
theorem Coherent.reply {t : TcpSession} {ok : Bool} (h : Coherent s) (hs : t.state = orClosing ok s.state)
    (hsock : t.socket = s.socket) (hdest : t.dest = s.dest) (hconn : t.connectSent = s.connectSent)
    (hf : t.forward = s.forward) (hio : t.io.filter Io.isFd = s.io.filter Io.isFd) : Coherent t := by
  have hfds := h.fds
  rw [← hsock, ← hio] at hfds
  cases ok with
  | true =>
      have hs : t.state = s.state := hs
      refine ⟨?_, ?_, ?_, ?_, hfds⟩
      · rw [hs, hsock]
        exact h.open_socket
      · rw [hs, hsock]
        exact h.shut_socket
      · rw [hs, hdest, hconn]
        exact h.proxied
      · rw [hs, hf]
        exact h.drained
  | false => exact .closing hs hfds

theorem Move.coherent (hm : Move old op (ph, s) (ph', s')) (h : Coherent s) : Coherent s' := by
  have hfds := h.fds
  cases hm with
  | note hio =>
      obtain ⟨calls, rfl, hq⟩ := hio
      refine ⟨h.1, h.2, h.3, h.4, ?_⟩
      have hnil : calls.filter Io.isFd = [] := by
        simp only [List.filter_eq_nil_iff]
        intro c hc
        simp [Io.isFd_of_quiet (hq c hc)]
      simpa [hnil] using hfds
  | window hop => exact ⟨h.1, h.2, h.3, h.4, h.5⟩
  | rst ok hl => exact h.writeRst
  | drop hs => exact .closing rfl h.5
  | connect hop hd hu hp hn hs =>
      have ho : 0 ≤ s.socket := by
        unfold onSocket at hs
        split at hs <;> omega
      exact ⟨fun _ => ho, by simp [TcpState.isShut], by simp [TcpState.isConnected], by simp, h.5⟩
  | early hop hu hd hn hq =>
      rw [queueTcp_eq]
      refine ⟨h.1, h.2, h.3, ?_, h.5⟩
      rintro (hs | hs) <;> exact absurd (h.proxied (by simp_all [TcpState.isConnected]) hd) hn
  | queue hop ht hdata ho hw hq =>
      rw [queueTcp_eq]
      refine ⟨h.1, h.2, h.3, ?_, h.5⟩
      rintro (hs | hs) <;> have := h.shut_socket (by simp_all [TcpState.isShut]) <;> omega
  | finQueued hop ht hr hc hsyn hfin hs hf hb =>
      have ho := h.open_socket (by simp [hs, TcpState.isOpen])
      exact ⟨fun _ => ho, by simp [TcpState.isShut], fun _ hd => ht.connected hd, by simp, h.5⟩
  | fin hop ht hr hc hsyn hfin hs hf hb ok =>
      have ho := h.open_socket (by simp [hs, TcpState.isOpen])
      refine ⟨fun _ => ho, ?_, fun _ hd => ht.connected hd, ?_, by simpa [Io.isFd] using hfds⟩
      · cases ok <;> simp [orClosing, TcpState.isShut]
      · cases ok <;> simp [orClosing]
  | lastFin hop ht hr hc hsyn hfin hs hb ok =>
      have ho := h.shut_socket (by simp [hs, TcpState.isShut])
      refine ⟨?_, fun _ => ho, fun _ hd => ht.connected hd, ?_, by simpa [Io.isFd] using hfds⟩
      · cases ok <;> simp [orClosing, TcpState.isOpen]
      · cases ok <;> simp [orClosing]
  | ackAll hop ht hr ha hc =>
      refine ⟨?_, ?_, ?_, ?_, h.5⟩
      · cases hs : s.state <;> simp [TcpState.afterAck, TcpState.isOpen] <;>
          exact h.open_socket (by simp [hs, TcpState.isOpen])
      · cases hs : s.state <;> simp [TcpState.afterAck, TcpState.isShut] <;>
          exact h.shut_socket (by simp [hs, TcpState.isShut])
      · exact fun _ hd => ht.connected hd
      · cases hs : s.state <;> simp [TcpState.afterAck]
        exact h.drained (.inl hs)
  | ackPrevious hop ht ha hl hp => exact ⟨h.1, h.2, h.3, h.4, h.5⟩
  | connected hop ho hs hb ok =>
      refine ⟨fun _ => ho, ?_, ?_, ?_, by simpa [Io.isFd] using hfds⟩
      · cases ok <;> simp [orClosing, TcpState.isShut]
      · cases ok <;> simp [orClosing, TcpState.isConnected]
      · cases ok <;> simp [orClosing]
  | proxied hop ho hs hn =>
      exact ⟨fun _ => ho, by simp [TcpState.isShut], by simp [TcpState.isConnected], by simp, h.5⟩
  | send hop ho hs hf hpos hdata hn hle =>
      refine ⟨h.1, h.2, h.3, ?_, by simpa [Io.isFd] using hfds⟩
      intro hs
      have := h.drained hs
      simp [hf] at this
  | ack hop ho hs hf ok => exact h.reply rfl rfl rfl rfl rfl (by simp [Io.isFd])
  | confirmFin hop ho hs hf ok => exact h.reply rfl rfl rfl rfl rfl (by simp [Io.isFd])
  | data hop ho hs hw hb ok => exact h.reply rfl rfl rfl rfl rfl (by simp [Io.isFd])
  | eof hop ho hs hf ok =>
      obtain ⟨fd, hfd, ⟨rfl, hio⟩ | ⟨hn, _⟩⟩ := hfds
      · refine ⟨?_, fun _ => rfl, ?_, fun _ => hf, s.socket, hfd, .inr ⟨rfl, by simp [Io.isFd, hio]⟩⟩
        · cases ok <;> rcases hs with hs | hs <;> simp [orClosing, hs, TcpState.afterEof, TcpState.isOpen]
        · exact fun _ => h.proxied (by rcases hs with hs | hs <;> simp [hs, TcpState.isConnected])
      · omega
  | eofQueued hop ho hs hf ok =>
      obtain ⟨fd, hfd, ⟨rfl, hio⟩ | ⟨hn, _⟩⟩ := hfds
      · exact .closing rfl ⟨s.socket, hfd, .inr ⟨rfl, by simp [Io.isFd, hio]⟩⟩
      · omega
  | keepAlive hop ho hs hb ok => exact h.reply rfl rfl rfl rfl rfl (by simp [Io.isFd])
  | close hop hs =>
      obtain ⟨fd, hfd, ⟨rfl, hio⟩ | ⟨hn, hio⟩⟩ := hfds
      · refine ⟨by simp [TcpState.isOpen], by simp [hfd], by simp [TcpState.isConnected], by simp, s.socket, hfd,
          .inr ⟨by simp [hfd], by simp [hfd, Io.isFd, hio]⟩⟩
      · have hneg : ¬0 ≤ s.socket := by omega
        exact ⟨by simp [TcpState.isOpen], by simp [hn], by simp [TcpState.isConnected], by simp, fd, hfd,
          .inr ⟨by simp [hn], by simp [hneg, hio]⟩⟩

/-! ## Runs -/

variable {ok : TcpSession → TcpOp → Prop} {s₀ : TcpSession} {ops : List TcpOp}

/-- A registered session is that of a SYN, with an open socket. -/
theorem handleTcpNew_some {e : HandleEnv} (h : handleTcpNew p e = some s) :
    p.urg = false ∧ p.syn = true ∧ 0 ≤ e.socket ∧
      ∃ mss ws, s = { synSession p e mss ws with recvWindow := getReceiveWindow (synSession p e mss ws) e.buf } := by
  unfold handleTcpNew at h
  split at h
  · cases h
  · rename_i hu
    split at h
    · rename_i hsyn
      simp only [] at h
      split at h
      · cases h
      · rename_i mss ws _
        split at h
        · cases h
        · rename_i ho
          simp only [Option.some.injEq] at h
          exact ⟨by simpa using hu, hsyn, by simpa [synSession] using ho, mss, ws, h.symm⟩
    · cases h

theorem handleTcpNew_coherent {e : HandleEnv} (h : handleTcpNew p e = some s) : Coherent s := by
  obtain ⟨-, -, ho, mss, ws, rfl⟩ := handleTcpNew_some h
  exact ⟨fun _ => ho, by simp [synSession, TcpState.isShut], by simp [synSession, TcpState.isConnected],
    by simp [synSession], e.socket, ho, .inl ⟨rfl, by simp [synSession, Io.isFd]⟩⟩

theorem tcpStep_coherent (h : Coherent s) (op : TcpOp) : Coherent (tcpStep s op) := by
  obtain ⟨ph, hs⟩ := tcpStep_invariant op (I := fun x => Coherent x.2) h fun _ _ hx hm => hm.coherent hx
  exact hs

theorem coherent_of_run {e : HandleEnv} (h₀ : handleTcpNew p e = some s₀) (h : Run tcpStep ok s₀ ops s) :
    Coherent s :=
  h.invariant' (handleTcpNew_coherent h₀) fun _ op hs _ => tcpStep_coherent hs op

end TunProxy.Native
