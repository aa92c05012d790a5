import TunProxy.Native.Tcp.Lemmas.Coherent
import TunProxy.Native.Tcp.Lemmas.Log

/-!
# The calls that each function makes

A property of the calls made in a row is proved once for each function: it needs to hold of the calls that are made
together. Beside CONNECT and the answer to it, no function touches `connectSent` or goes to `TCP_LISTEN`.
-/

namespace TunProxy.Native

variable {R : List Io → Prop} {s t u : TcpSession} {p : TcpPkt}

/-- The calls made together, and what is made of them. -/
structure CallRule (R : List Io → Prop) : Prop where
  nil : R []
  append {calls calls' : List Io} : R calls → R calls' → R (calls ++ calls')
  tun {packet : TunPacket} (ok : Bool) : packet.data = [] → R [.tun packet ok]
  send (data : Bytes) (ret : Int) : R [.send data ret]
  close (fd : Int) : R [.close fd]
  fault : R [.fault]
  data {packet : TunPacket} {bytes : Bytes} (ok : Bool) : packet.data = bytes → R [.recv bytes, .tun packet ok]

/-- From `s` to `t`, calls were made of which `R` holds. -/
structure Adds (R : List Io → Prop) (s t : TcpSession) : Prop where
  calls : ∃ calls, t.io = s.io ++ calls ∧ R calls
  connectSent : t.connectSent = s.connectSent
  listen : t.state = .listen → s.state = .listen

theorem Adds.mk' {calls : List Io} (hR : R calls) (hio : t.io = s.io ++ calls)
    (hc : t.connectSent = s.connectSent) (hl : t.state = .listen → s.state = .listen) : Adds R s t :=
  ⟨⟨calls, hio, hR⟩, hc, hl⟩

theorem Adds.trans (hR : CallRule R) (h : Adds R s t) (h' : Adds R t u) : Adds R s u := by
  obtain ⟨⟨calls, hio, hcalls⟩, hc, hl⟩ := h
  obtain ⟨⟨calls', hio', hcalls'⟩, hc', hl'⟩ := h'
  refine ⟨⟨calls ++ calls', ?_, hR.append hcalls hcalls'⟩, hc'.trans hc, fun hs => hl (hl' hs)⟩
  rw [hio', hio, List.append_assoc]

/-- Nothing was called, and the session does not listen where it did not. -/
theorem CallRule.same (hR : CallRule R) (hio : t.io = s.io) (hc : t.connectSent = s.connectSent)
    (hl : t.state = .listen → s.state = .listen) : Adds R s t :=
  ⟨⟨[], by rw [hio, List.append_nil], hR.nil⟩, hc, hl⟩

theorem CallRule.refl (hR : CallRule R) (s : TcpSession) : Adds R s s := hR.same rfl rfl id

/-! ## The writers -/

theorem CallRule.writeRst (hR : CallRule R) (ok : Bool) : Adds R s (writeRst s ok) := by
  rw [writeRst_eq]
  refine .mk' (hR.tun ok rfl) rfl rfl ?_
  simp only []
  split <;> simp

theorem orClosing_listen {ok : Bool} {state : TcpState} (h : orClosing ok state = .listen) : state = .listen := by
  cases ok with
  | true => exact h
  | false => cases h

theorem CallRule.write (hR : CallRule R) (syn fin ok : Bool) : Adds R s (writeOrClose s [] syn fin ok) := by
  rw [writeOrClose_eq]
  exact .mk' (hR.tun ok rfl) rfl rfl orClosing_listen

/-! ## `handle_tcp` -/

theorem CallRule.queueTcp (hR : CallRule R) : Adds R s (queueTcp s p) := by
  rw [queueTcp_eq]
  exact hR.same rfl rfl id

theorem CallRule.handleFin (hR : CallRule R) (e : HandleEnv) : Adds R s (handleFin s e) := by
  have hcount : Adds R s { s with remoteSeq := s.remoteSeq + 1 } := hR.same rfl rfl id
  have hack : Adds R s (writeAck { s with remoteSeq := s.remoteSeq + 1 } e.writeOk) := hcount.trans hR (hR.write ..)
  unfold Native.handleFin
  split
  · split
    · dsimp only
      split
      · exact hack.trans hR (hR.same rfl rfl (by simp))
      · exact hack
    · exact hR.same rfl rfl (by simp)
  · dsimp only
    split
    · exact hack.trans hR (hR.same rfl rfl (by simp))
    · exact hack
  · exact hR.refl s

theorem CallRule.handleAck (hR : CallRule R) : Adds R s (handleAck s p) := by
  unfold Native.handleAck
  dsimp only
  split
  · exact hR.same rfl rfl (by simp)
  · exact hR.same rfl rfl (by simp)
  · exact hR.same rfl rfl id

theorem CallRule.handleOtherAck (hR : CallRule R) (e : HandleEnv) : Adds R s (handleOtherAck s p e) := by
  unfold Native.handleOtherAck
  split
  · exact hR.refl s
  · split
    · split
      · exact hR.refl s
      · exact hR.same rfl rfl id
    · exact hR.writeRst _

theorem CallRule.handleFlags (hR : CallRule R) (e : HandleEnv) : Adds R s (handleFlags s p e) := by
  unfold Native.handleFlags
  split
  · exact hR.same rfl rfl (by simp)
  · split
    · split
      · exact hR.refl s
      · split
        · exact hR.handleFin e
        · split
          · exact hR.handleAck
          · exact hR.refl s
    · exact hR.handleOtherAck e

theorem CallRule.handleOpen (hR : CallRule R) (e : HandleEnv) : Adds R s (handleOpen s p e) := by
  unfold Native.handleOpen
  split
  · exact hR.writeRst _
  · have hset : Adds R s { s with time := e.now, sendWindow := p.window.setWidth 32 <<< s.sendScale } :=
      hR.same rfl rfl id
    refine hset.trans hR ?_
    dsimp only
    split
    · split
      · exact hR.writeRst _
      · split
        · exact hR.writeRst _
        · exact hR.queueTcp.trans hR (hR.handleFlags e)
    · exact hR.handleFlags e

/-- What `handle_tcp` does behind the code for port 443. -/
theorem CallRule.handleTcp (hR : CallRule R) (e : HandleEnv) (hu : p.urg = false) :
    Adds R (if p.dest = 443 then connect443 s p e else s) (handleTcp s p e) := by
  unfold Native.handleTcp
  rw [hu, if_neg Bool.false_ne_true]
  dsimp only
  generalize (if p.dest = 443 then connect443 s p e else s) = t
  split
  · exact hR.queueTcp
  · exact hR.handleOpen e

/-! ## `check_tcp_socket` -/

theorem CallRule.forwardLoop (hR : CallRule R) (e : SocketEnv) {forward : List Segment} :
    ∀ round bufferSize fwd s, Adds R s (forwardLoop e forward round bufferSize fwd s).1 := by
  induction forward with
  | nil => exact fun _ _ _ s => hR.same rfl rfl id
  | cons q rest ih =>
      intro round bufferSize fwd s
      by_cases hg : q.pos = s.remoteSeq ∧ q.left < bufferSize
      · cases hoffer : offer s.dest q (e.heap round) with
        | none =>
            rw [forwardLoop_fault hg hoffer]
            exact .mk' hR.fault rfl rfl id
        | some data =>
            obtain ⟨n, hn, hle⟩ := clampSent_eq (e.send round data) q s.socket
            rw [forwardLoop_send hg hoffer hn hle]
            have hsend : Adds R s (afterSend s q rest data (onSocket s.socket (e.send round data).ret) n hle) :=
              .mk' (hR.send ..) rfl rfl id
            split
            · exact hsend.trans hR (ih ..)
            · exact .mk' (hR.send ..) rfl rfl id
      · rw [forwardLoop_stop hg]
        exact hR.same rfl rfl id

theorem CallRule.acknowledge (hR : CallRule R) (e : SocketEnv) (fwd : Bool) : Adds R s (acknowledge s e fwd) := by
  unfold Native.acknowledge writeAck
  simp only [writeOrClose_eq]
  split
  · split <;> split <;> exact .mk' (hR.tun _ rfl) rfl rfl orClosing_listen
  · exact hR.same rfl rfl id

theorem CallRule.readEof (hR : CallRule R) (e : SocketEnv) : Adds R s (readEof s e) := by
  have hclose (t : TcpSession) : Adds R t { t with io := t.io ++ [.close t.socket], socket := -1 } :=
    .mk' (hR.close _) rfl rfl id
  unfold Native.readEof
  dsimp only
  refine Adds.trans hR ?_ (hclose _)
  split
  · unfold writeFinAck
    simp only [writeOrClose_eq]
    split <;> split <;> exact .mk' (hR.tun _ rfl) rfl rfl (by first | exact orClosing_listen | simp)
  · exact hR.writeRst _

theorem CallRule.readSocket (hR : CallRule R) (e : SocketEnv) : Adds R s (readSocket s e) := by
  unfold Native.readSocket writeData
  simp only [writeOrClose_eq]
  split
  · have htime : Adds R s { s with time := e.now } := hR.same rfl rfl id
    split
    · split
      · exact htime.trans hR (hR.writeRst _)
      · exact htime
    · exact htime.trans hR (hR.readEof e)
    · split <;> exact .mk' (hR.data _ tunPacket_data) (List.append_assoc ..) rfl orClosing_listen
  · exact hR.refl s

theorem checkTcpSocket_listen {e : SocketEnv} (hl : s.state = .listen) (he : e.ev.err = false) :
    checkTcpSocket s e = checkListen s e := by
  rw [checkTcpSocket, he, if_neg Bool.false_ne_true, if_pos hl]

/-- Everywhere but in the code for `TCP_LISTEN`. -/
theorem CallRule.checkTcpSocket (hR : CallRule R) (e : SocketEnv) (hl : s.state = .listen → e.ev.err = true) :
    Adds R s (checkTcpSocket s e) := by
  unfold Native.checkTcpSocket
  split
  · have htime : Adds R s { s with time := e.now } := hR.same rfl rfl id
    exact htime.trans hR (hR.writeRst _)
  · rename_i he
    rw [if_neg fun hs => he (hl hs)]
    have hfwd : Adds R s (if e.ev.out then forwardData s e else (s, some false)).1 := by
      split
      · exact hR.forwardLoop e ..
      · exact hR.refl s
    generalize (if e.ev.out then forwardData s e else (s, some false)) = r at hfwd ⊢
    obtain ⟨s₁, fwd⟩ := r
    cases fwd with
    | none => exact hfwd
    | some fwd =>
        have hack := hfwd.trans hR (hR.acknowledge e fwd)
        dsimp only
        split
        · exact hack.trans hR (hR.readSocket e)
        · exact hack

/-! ## The checks -/

theorem CallRule.monitorTcpSession (hR : CallRule R) (e : MonitorEnv) : Adds R s (monitorTcpSession s e) := by
  have hkeep : Adds R s (keepAlive s e) := by
    unfold keepAlive writeAck
    simp only [writeOrClose_eq]
    split
    · exact .mk' (hR.tun _ rfl) rfl rfl orClosing_listen
    · exact hR.refl s
  unfold Native.monitorTcpSession
  dsimp only
  have hkept : Adds R s
      (if (s.state = .established ∨ s.state = .closeWait) ∧ getSendWindow s = 0 then keepAlive s e else s) := by
    split
    · exact hkeep
    · exact hR.refl s
  generalize (if (s.state = .established ∨ s.state = .closeWait) ∧ getSendWindow s = 0 then keepAlive s e else s) = t
    at hkept ⊢
  refine hkept.trans hR ?_
  split
  · split
    · exact hR.same rfl rfl id
    · exact hR.same rfl rfl (by simp)
  · exact hR.refl t

theorem CallRule.checkTcpSession (hR : CallRule R) (e : CheckEnv) : Adds R s (checkTcpSession s e).1 := by
  have htimeout : Adds R s (checkTimeout s e) := by
    unfold checkTimeout
    split
    · split
      · exact hR.same rfl rfl (by simp)
      · exact hR.writeRst _
    · exact hR.refl s
  have hclosing (t : TcpSession) : Adds R t (checkClosing t e) := by
    unfold checkClosing
    split
    · dsimp only
      split
      · exact .mk' (hR.close _) rfl rfl (by simp)
      · exact hR.same rfl rfl (by simp)
    · exact hR.refl t
  unfold Native.checkTcpSession
  dsimp only
  refine (htimeout.trans hR (hclosing _)).trans hR ?_
  split
  · exact hR.same rfl rfl id
  · exact hR.refl _

theorem CallRule.stopTcp (hR : CallRule R) (writeOk : Bool) : Adds R s (stopTcp s writeOk) := by
  unfold Native.stopTcp
  split
  · exact hR.writeRst _
  · exact hR.refl s

/-- Every call but one that may send CONNECT, or read the answer to it. -/
theorem CallRule.tcpStep (hR : CallRule R) {op : TcpOp}
    (hl : ∀ e, op = .socket e → 0 ≤ s.socket → s.state = .listen → e.ev.err = true)
    (hc : ∀ p e, op = .packet p e → p.belongs s = true → p.urg = false → p.dest = 443 → s.connectSent ≠ .notSent) :
    Adds R s (tcpStep s op) := by
  cases op with
  | packet p e =>
      by_cases hb : p.belongs s = true
      · rw [tcpStep_packet hb]
        by_cases hu : p.urg = true
        · rw [Native.handleTcp, if_pos hu]
          exact hR.refl s
        · have hu : p.urg = false := by simpa using hu
          have hconnect : Adds R s (if p.dest = 443 then connect443 s p e else s) := by
            split
            · rename_i hp
              have hn : s.connectSent ≠ .notSent := hc p e rfl hb hu hp
              simp only [connect443, hn, ↓reduceIte]
              exact hR.same rfl rfl id
            · exact hR.refl s
          exact hconnect.trans hR (hR.handleTcp e hu)
      · rw [tcpStep_other hb]
        exact hR.refl s
  | socket e =>
      unfold Native.tcpStep
      dsimp only
      split
      · rename_i ho
        exact hR.checkTcpSocket e (hl e rfl ho)
      · exact hR.refl s
  | monitor e =>
      unfold Native.tcpStep
      dsimp only
      split
      · exact hR.monitorTcpSession e
      · exact hR.refl s
  | check e => exact hR.checkTcpSession e
  | stop writeOk => exact hR.stopTcp writeOk

/-- The calls of a run once CONNECT was sent and answered. -/
theorem CallRule.run (hR : CallRule R) (hl : s.state ≠ .listen) (hc : s.connectSent ≠ .notSent) (ops : List TcpOp) :
    Adds R s (ops.foldl Native.tcpStep s) := by
  induction ops generalizing s with
  | nil => exact hR.refl s
  | cons op ops ih =>
      have hstep : Adds R s (Native.tcpStep s op) :=
        hR.tcpStep (fun _ _ _ hs => absurd hs hl) fun _ _ _ _ _ _ => hc
      rw [List.foldl_cons]
      exact hstep.trans hR (ih (fun hs => hl (hstep.listen hs)) (hstep.connectSent ▸ hc))

end TunProxy.Native
