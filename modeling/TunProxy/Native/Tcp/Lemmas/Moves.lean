import TunProxy.Native.Tcp.Lemmas.Forward
import TunProxy.Native.Tcp.Lemmas.Queue
import TunProxy.Native.Tcp.Moves

/-!
# Every call is a chain of changes

One lemma for each function of the model, from the writers up to `tcpStep`. Each of them extends a chain that has
reached the session the function is called on.
-/

namespace TunProxy.Native

variable {old : TcpSession} {op : TcpOp} {x : Phase × TcpSession} {s : TcpSession} {ph : Phase} {p : TcpPkt}

/-- Only fields that no invariant is about change. -/
theorem Move.fields {time : Int} {recvWindow : U32} {hostname : Bytes} {lastKeepAlive : Int} {events : Epoll}
    {sent received : Nat} :
    Move old op (ph, s) (ph, { s with time, recvWindow, hostname, lastKeepAlive, events, sent, received }) :=
  .note ⟨[], (List.append_nil _).symm, by simp⟩

theorem belongs_dest (h : p.belongs s = true) : s.dest = p.dest := by
  simp only [TcpPkt.belongs, decide_eq_true_eq] at h
  exact h.2.2.1

/-! ## `handle_tcp` -/

theorem connect443_moves {e : HandleEnv} (hop : op = .packet p e) (hb : p.belongs s = true) (hu : p.urg = false)
    (hp : p.dest = 443) : Moves s op (.fresh, s) (.fresh, connect443 s p e) := by
  unfold connect443
  simp only []
  split
  · rename_i hn
    have h₁ : Moves s op (.fresh, s) (.fresh, { s with
        hostname := serverName s p e
        io := s.io ++ [.connect (connectRequest (serverName s p e)) (onSocket s.socket e.connect)] }) :=
      .single (.note ⟨_, rfl, by simp [Io.quiet]⟩)
    have h443 : p.dest = 443 ∧ s.connectSent ≠ .established := ⟨hp, by simp [hn]⟩
    split
    · rename_i hs
      refine h₁.tail (.rst _ fun hl _ => ⟨⟨hl, ?_⟩, rfl, ?_⟩)
      · rw [hop]
        simp only [h443, ne_eq, not_false_eq_true, and_self, ↓reduceIte]
        exact ⟨hb, hu, hn, hs⟩
      · rw [hop]
        simp only [queueAtCount, queueAtFlags, h443, ne_eq, not_false_eq_true, and_self, or_true, ↓reduceIte]
    · rename_i hs
      exact h₁.tail (.connect hop (belongs_dest hb) hu hp hn (by simpa using hs))
  · exact .single .fields

/-- A session at the flags of the packet: since the beginning of the call, only the queue has changed. -/
structure AtFlags (old s : TcpSession) (p : TcpPkt) : Prop where
  belongs : p.belongs old = true
  data : p.data = [] ∨ 0 ≤ old.socket
  state : s.state = old.state
  remoteSeq : s.remoteSeq = old.remoteSeq
  localSeq : s.localSeq = old.localSeq
  connectSent : s.connectSent = old.connectSent
  forward : s.forward = queueAtFlags old p

theorem AtFlags.finishes (hb : AtFlags old s p) (ht : s.Takes p) (hr : p.rst = false) (hc : p.current s)
    (hsyn : p.syn = false) (hfin : p.fin = true) (hs : s.state = .established ∨ s.state = .finWait1) :
    p.Finishes old ∧ s.remoteSeq = old.remoteSeq ∧ s.forward = queueAtFlags old p := by
  refine ⟨⟨hb.belongs, ht.urg, ?_, hb.data, hr, ?_, hsyn, hfin, hb.state ▸ hs⟩, hb.remoteSeq, hb.forward⟩
  · intro hp
    exact hb.connectSent ▸ ht.connected (ht.dest.trans hp)
  · simpa only [TcpPkt.current, hb.localSeq] using hc

theorem handleFin_moves {e : HandleEnv} (hop : op = .packet p e) (ht : s.Takes p) (hr : p.rst = false)
    (hc : p.current s) (hsyn : p.syn = false) (hfin : p.fin = true) (hb : AtFlags old s p)
    (h : Moves old op x (p.phase, s)) :
    Moves old op x (p.phase, handleFin s e) := by
  unfold handleFin
  cases hs : s.state with
  | established =>
      have hb' := hb.finishes ht hr hc hsyn hfin (.inl hs)
      simp only []
      split
      · rename_i hf
        refine h.tail ?_
        cases e.writeOk with
        | true => exact .fin hop ht hr hc hsyn hfin hs hf hb' true
        | false => exact .fin hop ht hr hc hsyn hfin hs hf hb' false
      · rename_i hf
        exact h.tail (.finQueued hop ht hr hc hsyn hfin hs hf hb')
  | finWait1 =>
      have hb' := hb.finishes ht hr hc hsyn hfin (.inr hs)
      refine h.tail ?_
      cases e.writeOk with
      | true => exact .lastFin hop ht hr hc hsyn hfin hs hb' true
      | false => exact .lastFin hop ht hr hc hsyn hfin hs hb' false
  | _ => exact h

theorem handleAck_eq (hc : p.ackSeq = s.localSeq) :
    handleAck s p = { s with acked := s.localSeq, state := s.state.afterAck } := by
  unfold handleAck
  cases hs : s.state <;> simp [TcpState.afterAck, hc]

theorem handleOtherAck_moves {e : HandleEnv} (hop : op = .packet p e) (ht : s.Takes p) (hr : p.rst = false)
    (hc : ¬p.current s) (hb : AtFlags old s p) (h : Moves old op x (p.phase, s)) :
    Moves old op x (p.phase, handleOtherAck s p e) := by
  have ha : p.ack = true := by
    simp only [TcpPkt.current, not_or, Bool.not_eq_false] at hc
    exact hc.1
  unfold handleOtherAck
  split
  · exact h
  · rename_i hk
    split
    · rename_i hl
      split
      · exact h
      · rename_i hp
        exact h.tail (.ackPrevious hop ht ha hl (by omega))
    · rename_i hl
      refine h.tail (.rst _ fun hs _ => ⟨⟨hb.state ▸ hs, ?_⟩, hb.remoteSeq, ?_⟩)
      · have h443 : ¬(p.dest = 443 ∧ old.connectSent ≠ .established) := by
          rintro ⟨hp, hn⟩
          exact hn (hb.connectSent ▸ ht.connected (ht.dest.trans hp))
        rw [hop]
        simp only [h443, ↓reduceIte]
        rw [hb.localSeq] at hk hl
        exact ⟨hb.belongs, ht.urg, hr, by simpa only [TcpPkt.current, hb.localSeq] using hc, hk, hl⟩
      · rw [hop]
        exact hb.forward

theorem handleFlags_moves {e : HandleEnv} (hop : op = .packet p e) (ht : s.Takes p) (hb : AtFlags old s p)
    (h : Moves old op x (p.phase, s)) :
    Moves old op x (p.phase, handleFlags s p e) := by
  unfold handleFlags
  split
  · exact h.tail (.drop fun hs => absurd hs ht.notClose)
  · rename_i hr
    have hr : p.rst = false := by simpa using hr
    split
    · rename_i hc
      split
      · exact h
      · rename_i hsyn
        split
        · rename_i hfin
          exact handleFin_moves hop ht hr hc (by simpa using hsyn) hfin hb h
        · split
          · rename_i ha
            have hseq : p.ackSeq = s.localSeq := by simpa [TcpPkt.current, ha] using hc
            rw [handleAck_eq hseq]
            exact h.tail (.ackAll hop ht hr ha hseq)
          · exact h
    · rename_i hc
      exact handleOtherAck_moves hop ht hr hc hb h

/-- A session with another name for its host: what `handle_tcp` makes of it before "Session found". -/
theorem handleOpen_moves {e : HandleEnv} (hostname : Bytes) (hop : op = .packet p e) (hb : p.belongs old = true)
    (hu : p.urg = false) (hn : old.dest = 443 → old.connectSent = .established)
    (h : Moves old op x (.fresh, { old with hostname })) :
    ∃ ph, Moves old op x (ph, handleOpen { old with hostname } p e) := by
  have hd := belongs_dest hb
  have h443 : ¬(p.dest = 443 ∧ old.connectSent ≠ .established) := by
    rintro ⟨hp, hne⟩
    exact hne (hn (hd.trans hp))
  unfold handleOpen
  split
  · rename_i hs
    have hne : old.state ≠ .listen := by rcases hs with hs | hs <;> simp only [] at hs <;> simp [hs]
    exact ⟨_, h.tail (.rst _ fun hl _ => absurd hl hne)⟩
  · rename_i hs
    rw [not_or] at hs
    have h₁ : Moves old op x (.fresh, { old with
        hostname, time := e.now, sendWindow := p.window.setWidth 32 <<< old.sendScale }) :=
      (h.tail (.window hop)).tail .fields
    have ht : TcpSession.Takes { old with
        hostname, time := e.now, sendWindow := p.window.setWidth 32 <<< old.sendScale } p :=
      ⟨hd, hu, hn, hs.1, hs.2⟩
    simp only []
    split
    · rename_i hdata
      split
      · rename_i ho
        exact ⟨_, h₁.tail (.rst _ fun _ ho' => absurd ho' (by simpa using ho))⟩
      · rename_i ho
        have ho : 0 ≤ old.socket := by simpa using ho
        split
        · rename_i hw
          exact ⟨_, h₁.tail (.rst _ fun hl _ => by simp only [hw] at hl; cases hl)⟩
        · rename_i hw
          have hph : p.phase = .queued := by simp [TcpPkt.phase, hdata]
          have hq : p.Queues old := by
            refine ⟨hb, hu, ?_⟩
            rw [if_neg h443]
            exact ⟨hdata, ho, hw, hs.1, hs.2⟩
          have hseq : old.remoteSeq = seqAtQueue old p e := by
            rw [seqAtQueue, if_neg]
            rintro ⟨hp, hne, -⟩
            exact h443 ⟨hp, by simp [hne]⟩
          have hforward : queueAtFlags old p = (queueTcp old p).forward := by
            rw [queueAtFlags, if_neg]
            simp only [hdata, h443, or_self, not_false_eq_true]
          refine ⟨p.phase, handleFlags_moves hop ?_ ?_ ?_⟩
          · rw [queueTcp_eq]
            exact ⟨ht.1, ht.2, ht.3, ht.4, ht.5⟩
          · rw [queueTcp_eq] at hforward ⊢
            exact ⟨hb, .inr ho, rfl, rfl, rfl, rfl, hforward.symm⟩
          · rw [hph]
            exact h₁.tail (.queue hop ht hdata ho hw ⟨hq, hseq, rfl⟩)
    · rename_i hdata
      have hdata : p.data = [] := by simpa using hdata
      have hph : p.phase = .fresh := by simpa [TcpPkt.phase] using hdata
      have hforward : queueAtFlags old p = old.forward := by rw [queueAtFlags, if_pos (.inl hdata)]
      refine ⟨p.phase, handleFlags_moves hop ht ⟨hb, .inl hdata, rfl, rfl, rfl, rfl, hforward.symm⟩ ?_⟩
      rw [hph]
      exact h₁

theorem connect443_forward {e : HandleEnv} : (connect443 s p e).forward = s.forward := by
  unfold connect443
  simp only [writeRst_eq]
  split
  · split <;> rfl
  · rfl

theorem connect443_remoteSeq {e : HandleEnv} (hp : p.dest = 443) :
    (connect443 s p e).remoteSeq = seqAtQueue s p e := by
  unfold connect443 seqAtQueue
  simp only [writeRst_eq, hp, true_and]
  by_cases hn : s.connectSent = .notSent
  · by_cases hs : onSocket s.socket e.connect < 0
    · by_cases hl : s.state = .listen <;> simp [hn, hs, hl, rstSeq]
    · simp [hn, hs]
  · simp [hn]

/-- Once the proxy has accepted the connection, only the name of the host is set. -/
theorem connect443_established {e : HandleEnv} (hn : (connect443 s p e).connectSent = .established) :
    connect443 s p e = { s with hostname := serverName s p e } ∧ s.connectSent = .established := by
  unfold connect443 at hn ⊢
  simp only [writeRst_eq] at hn ⊢
  by_cases hs : s.connectSent = .notSent
  · rw [if_pos hs] at hn
    split at hn <;> simp_all
  · rw [if_neg hs] at hn ⊢
    exact ⟨rfl, hn⟩

theorem connect443_dest {e : HandleEnv} : (connect443 s p e).dest = s.dest := by
  unfold connect443
  simp only [writeRst_eq]
  split
  · split <;> rfl
  · rfl

theorem handleTcp_moves {e : HandleEnv} (hop : op = .packet p e) (hb : p.belongs s = true) :
    ∃ ph, Moves s op (.fresh, s) (ph, handleTcp s p e) := by
  unfold handleTcp
  split
  · exact ⟨_, .refl⟩
  · rename_i hu
    have hu : p.urg = false := by simpa using hu
    have hd := belongs_dest hb
    simp only []
    split
    · rename_i hp
      have h₁ := connect443_moves hop hb hu hp
      split
      · rename_i hn
        have hne : s.connectSent ≠ .established := by
          intro he
          refine hn.2 ?_
          simp [connect443, he]
        have hq : p.Queues s := ⟨hb, hu, by rw [if_pos ⟨hp, hne⟩]; trivial⟩
        exact ⟨_, h₁.tail (.early hop hu (connect443_dest.trans (hd.trans hp)) hn.2
          ⟨hq, connect443_remoteSeq hp, connect443_forward⟩)⟩
      · rename_i hn
        have hne : (connect443 s p e).connectSent = .established := by simpa only [hp, true_and, not_not] using hn
        obtain ⟨heq, hs⟩ := connect443_established hne
        rw [heq] at h₁ ⊢
        exact handleOpen_moves _ hop hb hu (fun _ => hs) h₁
    · rename_i hp
      rw [if_neg (fun hn => hp hn.1)]
      exact handleOpen_moves s.hostname hop hb hu (fun hs => absurd (hd.symm.trans hs) hp) .refl

/-! ## `check_tcp_socket` -/

/-- The conditions under which `check_tcp_socket` counts the SYN. -/
theorem countsSyn_socket {e : SocketEnv} (hop : op = .socket e) (ho : 0 ≤ s.socket) (hs : s.state = .listen)
    (h : e.ev.err = true ∨ e.ev.inp = false ∨ refused s e = true) :
    CountsSyn s op ∧ s.remoteSeq = s.remoteSeq ∧ s.forward = queueAtCount s op := by
  rw [hop]
  exact ⟨⟨hs, ho, h⟩, rfl, rfl⟩

theorem drained_quiet {rs : List RecvResult} : ∀ c ∈ drained rs, c.quiet = true := by
  induction rs with
  | nil => simp [drained]
  | cons r rest ih =>
      unfold drained
      split
      · simp
      · simp
      · exact List.forall_mem_cons.2 ⟨rfl, ih⟩

theorem checkListen_moves {e : SocketEnv} (hop : op = .socket e) (ho : 0 ≤ s.socket) (hs : s.state = .listen) :
    Moves s op (.fresh, s) (.fresh, checkListen s e) := by
  unfold checkListen
  split
  · split
    · rename_i hr
      exact .single (.rst _ fun _ _ => countsSyn_socket hop ho hs (.inr (.inr (by rw [refused, hr]))))
    · rename_i bytes hr
      have h₁ : Moves s op (.fresh, s) (.fresh, { s with io := s.io ++ [.reply bytes] }) :=
        .single (.note ⟨_, rfl, by simp [Io.quiet]⟩)
      simp only []
      split
      · rename_i hn
        split
        · exact (h₁.tail (.proxied hop ho hs hn)).tail (.note ⟨_, rfl, drained_quiet⟩)
        · rename_i hno
          have href : refused s e = true := by
            rw [refused, hr]
            exact decide_eq_true ⟨hn, hno⟩
          exact h₁.tail (.rst _ fun _ _ => countsSyn_socket hop ho hs (.inr (.inr href)))
      · exact h₁
  · rename_i hinp
    have hb := countsSyn_socket hop ho hs (.inr (.inl (by simpa using hinp)))
    cases he : e.writeOk with
    | true => exact (Relation.ReflTransGen.single (.connected hop ho hs hb true)).tail .fields
    | false => exact .single (.connected hop ho hs hb false)

/-- The loop, called where the chain has reached the session with the queue `forward`. -/
theorem forwardLoop_moves {e : SocketEnv} (hop : op = .socket e) {forward : List Segment} :
    ∀ {round bufferSize fwd s ph r}, forwardLoop e forward round bufferSize fwd s = r → 0 ≤ s.socket →
      s.state ≠ .listen → (fwd = true ↔ ph = .forwarded) → Moves old op x (ph, { s with forward }) →
      ∃ ph', Moves old op x (ph', r.1) ∧ (∀ b, r.2 = some b → (b = true ↔ ph' = .forwarded)) ∧
        r.1.state = s.state ∧ r.1.socket = s.socket := by
  induction forward with
  | nil =>
      rintro round bufferSize fwd s ph r rfl _ _ hfwd h
      exact ⟨ph, h, by simp [forwardLoop, hfwd], rfl, rfl⟩
  | cons q rest ih =>
      intro round bufferSize fwd s ph r hr ho hs hfwd h
      by_cases hg : q.pos = s.remoteSeq ∧ q.left < bufferSize
      · cases hoffer : offer s.dest q (e.heap round) with
        | none =>
            rw [forwardLoop_fault hg hoffer] at hr
            subst hr
            exact ⟨ph, h.tail (.note ⟨[.fault], rfl, by simp [Io.quiet]⟩), by simp, rfl, rfl⟩
        | some data =>
            obtain ⟨n, hn, hle⟩ := clampSent_eq (e.send round data) q s.socket
            rw [forwardLoop_send hg hoffer hn hle] at hr
            rw [onSocket_of_nonneg ho] at hr hn
            have h₁ := h.tail
              (.send (s := { s with forward := q :: rest }) hop ho hs rfl hg.1 ⟨round, hoffer, rfl⟩ hn hle)
            split at hr
            · rename_i he
              rw [if_pos he] at h₁
              have h₂ := ih hr ho hs (iff_of_true rfl rfl) (h₁.tail .fields)
              exact h₂
            · rename_i he
              rw [if_neg he] at h₁
              subst hr
              exact ⟨.forwarded, h₁.tail .fields, by simp, rfl, rfl⟩
      · rw [forwardLoop_stop hg] at hr
        subst hr
        exact ⟨ph, h, by simp [hfwd], rfl, rfl⟩

theorem acknowledge_moves {e : SocketEnv} {fwd : Bool} (hop : op = .socket e) (ho : 0 ≤ s.socket)
    (hs : s.state ≠ .listen) (hfwd : fwd = true ↔ ph = .forwarded) (h : Moves old op x (ph, s)) :
    ∃ ph, Moves old op x (ph, acknowledge s e fwd) := by
  have h₁ : Moves old op x (ph, { s with recvWindow := getReceiveWindow s e.winBuf }) := h.tail .fields
  unfold acknowledge writeAck
  simp only [writeOrClose_eq]
  split
  · by_cases hc : fwd = true ∧ s.forward = [] ∧ s.state = .closeWait
    · obtain rfl := hfwd.1 hc.1
      have h₂ := fun ok => h₁.tail
        (.confirmFin (s := { s with recvWindow := getReceiveWindow s e.winBuf }) hop ho hc.2.2 hc.2.1 ok)
      rw [if_pos hc]
      split
      · exact ⟨_, (h₂ _).tail .fields⟩
      · exact ⟨_, h₂ _⟩
    · have hq : ph = .forwarded → s.state = .closeWait → s.forward ≠ [] :=
        fun hp hw hf => hc ⟨hfwd.2 hp, hf, hw⟩
      have h₂ := fun ok => h₁.tail
        (.ack (s := { s with recvWindow := getReceiveWindow s e.winBuf }) hop ho hs hq ok)
      rw [if_neg hc]
      split
      · exact ⟨_, (h₂ _).tail .fields⟩
      · exact ⟨_, h₂ _⟩
  · exact ⟨_, h₁⟩

theorem acknowledge_socket {e : SocketEnv} {fwd : Bool} : (acknowledge s e fwd).socket = s.socket := by
  unfold acknowledge writeAck
  simp only [writeOrClose_eq]
  split
  · split <;> split <;> rfl
  · rfl

theorem readEof_moves {e : SocketEnv} (hop : op = .socket e) (ho : 0 ≤ s.socket)
    (hs : s.state = .established ∨ s.state = .closeWait) (h : Moves old op x (ph, s)) :
    Moves old op x (ph, readEof s e) := by
  refine h.tail ?_
  unfold readEof
  split
  · rename_i hf
    have hm : Move old op (ph, s) _ := Move.eof hop ho hs hf e.readOk
    cases he : e.readOk <;> rcases hs with hs | hs <;>
      simpa [he, hs, writeFinAck, writeOrClose_eq, orClosing, TcpState.afterEof] using hm
  · rename_i hf
    have hl : s.state ≠ .listen ∧ s.state ≠ .close := by
      rcases hs with hs | hs <;> simp [hs]
    rw [writeRst_of_ne hl.1 hl.2]
    have hm : Move old op (ph, s) _ := Move.eofQueued hop ho hs hf e.readOk
    simpa using hm

theorem readSocket_moves {e : SocketEnv} (hop : op = .socket e) (ho : 0 ≤ s.socket)
    (hs : s.state = .established ∨ s.state = .closeWait) (h : Moves old op x (ph, s)) :
    Moves old op x (ph, readSocket s e) := by
  unfold readSocket writeData
  simp only [writeOrClose_eq]
  split
  · have h₁ : Moves old op x (ph, { s with time := e.now }) := h.tail .fields
    split
    · split
      · have hne : s.state ≠ .listen := by rcases hs with hs | hs <;> simp [hs]
        exact h₁.tail (.rst _ fun hl _ => absurd hl hne)
      · exact h₁
    · exact readEof_moves hop ho hs h₁
    · rename_i bytes hne hr
      have hw : bytes.length ≤ (getSendWindow s).toNat := by
        have := RecvResult.length_of_upTo hr
        split at this <;> omega
      have h₂ := fun ok => h₁.tail (.data (s := { s with time := e.now }) hop ho hs hw hne ok)
      cases he : e.readOk with
      | true => exact (h₂ true).tail .fields
      | false => exact (h₂ false).tail .fields
  · exact h

/-- The part of `check_tcp_socket` behind the forward loop. -/
theorem afterForward_moves {e : SocketEnv} {fwd : Bool} (hop : op = .socket e) (ho : 0 ≤ s.socket)
    (hs : s.state ≠ .listen) (hfwd : fwd = true ↔ ph = .forwarded) (h : Moves old op x (ph, s)) :
    ∃ ph, Moves old op x (ph,
      if (acknowledge s e fwd).state = .established ∨ (acknowledge s e fwd).state = .closeWait then
        readSocket (acknowledge s e fwd) e else acknowledge s e fwd) := by
  obtain ⟨_, h₁⟩ := acknowledge_moves hop ho hs hfwd h
  split
  · rename_i hs
    exact ⟨_, readSocket_moves hop (by rw [acknowledge_socket]; exact ho) hs h₁⟩
  · exact ⟨_, h₁⟩

theorem checkTcpSocket_moves {e : SocketEnv} (hop : op = .socket e) (ho : 0 ≤ s.socket) :
    ∃ ph, Moves s op (.fresh, s) (ph, checkTcpSocket s e) := by
  unfold checkTcpSocket
  split
  · rename_i herr
    have h₁ : Moves s op (.fresh, s) (.fresh, { s with time := e.now }) := .single .fields
    exact ⟨_, h₁.tail (.rst _ fun hs _ => countsSyn_socket hop ho hs (.inl herr))⟩
  · split
    · rename_i hs
      exact ⟨_, checkListen_moves hop ho hs⟩
    · rename_i hs
      generalize hr : (if e.ev.out then forwardData s e else (s, some false)) = r
      obtain ⟨ph, h₁, hfwd, hs₁, ho₁⟩ : ∃ ph, Moves s op (.fresh, s) (ph, r.1) ∧
          (∀ b, r.2 = some b → (b = true ↔ ph = .forwarded)) ∧ r.1.state = s.state ∧ r.1.socket = s.socket := by
        split at hr
        · exact forwardLoop_moves hop hr ho hs (by simp) .refl
        · subst hr
          exact ⟨.fresh, .refl, by simp, rfl, rfl⟩
      obtain ⟨s₁, fwd⟩ := r
      cases fwd with
      | none => exact ⟨ph, h₁⟩
      | some fwd =>
          exact afterForward_moves hop (ho₁ ▸ ho) (hs₁.symm ▸ hs) (hfwd _ rfl) h₁

/-! ## The checks -/

theorem keepAlive_moves {e : MonitorEnv} (hop : op = .monitor e) (ho : 0 ≤ s.socket)
    (hs : s.state = .established ∨ s.state = .closeWait) (hw : getSendWindow s = 0) :
    Moves s op (.fresh, s) (.fresh, keepAlive s e) := by
  unfold keepAlive writeAck
  simp only [writeOrClose_eq, BitVec.sub_add_cancel]
  split
  · rename_i hk
    have hb : KeepsAlive s op := by
      rw [hop]
      exact ⟨ho, hs, hw, hk⟩
    exact (Relation.ReflTransGen.single (.keepAlive hop ho hs ⟨hb, rfl⟩ e.writeOk)).tail .fields
  · exact .refl

theorem keepAlive_socket {e : MonitorEnv} : (keepAlive s e).socket = s.socket := by
  unfold keepAlive writeAck
  simp only [writeOrClose_eq]
  split <;> rfl

theorem monitorTcpSession_moves {e : MonitorEnv} (hop : op = .monitor e) (ho : 0 ≤ s.socket) :
    Moves s op (.fresh, s) (.fresh, monitorTcpSession s e) := by
  have hk : ∃ t, t = (if (s.state = .established ∨ s.state = .closeWait) ∧ getSendWindow s = 0 then keepAlive s e
      else s) ∧ Moves s op (.fresh, s) (.fresh, t) ∧ 0 ≤ t.socket := by
    refine ⟨_, rfl, ?_⟩
    split
    · rename_i hs
      exact ⟨keepAlive_moves hop ho hs.1 hs.2, by rw [keepAlive_socket]; exact ho⟩
    · exact ⟨.refl, ho⟩
  obtain ⟨t, ht, h₁, ho₁⟩ := hk
  unfold monitorTcpSession
  simp only [← ht]
  split
  · have h₂ : Moves s op (.fresh, s) (.fresh, { t with events := waitFor s e.buf }) := h₁.tail .fields
    split
    · exact h₂
    · exact h₂.tail (.drop fun _ => ho₁)
  · exact h₁

theorem checkTimeout_moves {e : CheckEnv} (h : Moves old op x (ph, s)) : Moves old op x (ph, checkTimeout s e) := by
  unfold checkTimeout
  split
  · rename_i hs
    split
    · exact h.tail (.drop fun hc => absurd hc hs.2.1)
    · rename_i hl
      exact h.tail (.rst _ fun hl' _ => absurd hl' hl)
  · exact h

theorem checkClosing_moves {e : CheckEnv} (hop : op = .check e) (h : Moves old op x (ph, s)) :
    Moves old op x (ph, checkClosing s e) := by
  unfold checkClosing
  split
  · rename_i hs
    have h₁ := h.tail (.close hop hs)
    by_cases ho : 0 ≤ s.socket <;> simp only [ho, ↓reduceIte] at h₁ ⊢
    · exact h₁.tail .fields
    · exact h₁.tail .fields
  · exact h

theorem checkTcpSession_moves {e : CheckEnv} (hop : op = .check e) (h : Moves old op x (ph, s)) :
    Moves old op x (ph, (checkTcpSession s e).1) := by
  have h₁ := checkClosing_moves hop (checkTimeout_moves (e := e) h)
  unfold checkTcpSession
  simp only []
  split
  · exact h₁.tail .fields
  · exact h₁

/-- Every call is a chain of changes. -/
theorem tcpStep_moves (s : TcpSession) (op : TcpOp) : ∃ ph, Moves s op (.fresh, s) (ph, tcpStep s op) := by
  cases hop : op with
  | packet p e =>
      by_cases hb : p.belongs s = true
      · rw [tcpStep_packet hb]
        exact handleTcp_moves rfl hb
      · rw [tcpStep_other hb]
        exact ⟨_, .refl⟩
  | socket e =>
      unfold tcpStep
      simp only []
      split
      · rename_i ho
        exact checkTcpSocket_moves rfl ho
      · exact ⟨_, .refl⟩
  | monitor e =>
      unfold tcpStep
      simp only []
      split
      · rename_i ho
        exact ⟨_, monitorTcpSession_moves rfl ho⟩
      · exact ⟨_, .refl⟩
  | check e => exact ⟨_, checkTcpSession_moves rfl .refl⟩
  | stop writeOk =>
      unfold tcpStep stopTcp
      simp only []
      split
      · exact ⟨_, .single (.rst _ fun hs _ => ⟨⟨hs, trivial⟩, rfl, rfl⟩)⟩
      · exact ⟨_, .refl⟩

end TunProxy.Native
