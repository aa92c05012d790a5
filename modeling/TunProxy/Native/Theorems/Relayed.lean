import Mathlib.Data.List.Flatten
import TunProxy.Native.Tcp.Theorems.Downstream
import TunProxy.Native.Tcp.Theorems.Upstream
import TunProxy.Native.Theorems.Answers
import TunProxy.Native.Theorems.Apart

/-!
# What the loop relays

All sessions at once: the bytes and datagrams of one conversation stay in it, in order, whatever happens in the others.
-/

namespace TunProxy.Native

open Lib

variable {w : World} {op : NgOp} {ops : List NgOp} {l l' : List NgSession} {s : TcpSession} {i : Nat}
  {stream : Key → U32 → Bytes}

/-! ## Connections -/

/-- What the client sends on each connection, known by its key and its first number, and what the sockets take. -/
def Clients (stream : Key → U32 → Bytes) (w : World) (op : NgOp) : Prop :=
  ∀ i s call, w.sessions[i]? = some (.tcp s) → op.tcpCall i = some call →
    UploadSafe (stream (NgSession.tcp s).key s.remoteStart) s.remoteStart s call

/-- The invariants of the two directions. -/
structure Connected (stream : Key → U32 → Bytes) (s : TcpSession) : Prop where
  down : s.dest ≠ 443 → s.sendScale ≤ 14 → Downstream s
  up : s.dest ≠ 80 → s.dest ≠ 443 → Uploads (stream (NgSession.tcp s).key s.remoteStart) s.remoteStart s

theorem Connected.of_new {p : TcpPkt} {e : HandleEnv} (hstream : ∀ k isn, (stream k isn).length < 2 ^ 31)
    (h : handleTcpNew p e = some s) : Connected stream s := by
  obtain ⟨-, -, -, mss, ws, hs⟩ := handleTcpNew_some h
  have hdest : s.dest = p.dest := by rw [hs]; rfl
  have hstart : s.remoteStart = p.seq := by rw [hs]; rfl
  refine ⟨fun hd hscale => .of_new h (hdest ▸ hd) hscale, fun hd hd' => ?_⟩
  rw [hstart]
  exact .of_new h (hstream _ _) ⟨hdest ▸ hd, hdest ▸ hd'⟩

theorem Connected.called {call : Option TcpOp} (hstream : ∀ k isn, (stream k isn).length < 2 ^ 31)
    (h : Connected stream s) (hsafe : ∀ c, call = some c →
      UploadSafe (stream (NgSession.tcp s).key s.remoteStart) s.remoteStart s c) :
    Connected stream (called s call) := by
  cases call with
  | none => exact h
  | some c =>
      have hkey := tcpStep_key s c
      have hfixed := tcpStep_fixed s c
      simp only [TcpSession.fixed, Prod.mk.injEq] at hfixed
      obtain ⟨-, -, -, hscale, hstart, -, -, -, -, hdest⟩ := hfixed
      refine ⟨fun hd hs => ?_, fun hd hd' => ?_⟩
      · exact tcpStep_downstream (h.down (hdest ▸ hd) (hscale ▸ hs)) c
      · rw [Native.called, Option.elim_some, hkey, hstart]
        exact tcpStep_uploads (hstream _ _) (hsafe c rfl) (h.up (hdest ▸ hd) (hdest ▸ hd'))

/-- What an invariant of the TCP sessions needs of a step. -/
theorem tcp_forall_step {I : TcpSession → Prop} (hw : w.TcpUnique)
    (ho : ∀ p e s, op = .tcp p e → handleTcpNew p e = some s → I s)
    (hc : ∀ i s, w.sessions[i]? = some (.tcp s) → I s → I (called s (op.tcpCall i)))
    (h : ∀ s, .tcp s ∈ w.sessions → I s) : ∀ s, .tcp s ∈ (ngStep w op).sessions → I s := by
  have hafter : ∀ s, .tcp s ∈ w.after op → I s := by
    intro s' hs'
    obtain ⟨i, hi⟩ := List.mem_iff_getElem?.1 hs'
    obtain ⟨s, hs⟩ := tcp_before (after_changes w op) hi
    rw [after_called hw hs, Option.some.injEq, NgSession.tcp.injEq] at hi
    exact hi ▸ hc i s hs (h s (List.mem_of_getElem? hs))
  intro s hs
  rcases ngStep_cases w op with hsub | ⟨t, hnew, -, -, hstep⟩
  · exact hafter s (hsub.subset hs)
  · rw [hstep] at hs
    rcases List.mem_cons.1 hs with rfl | hs
    · cases hnew with
      | tcp hnew => exact ho _ _ s rfl hnew
    · exact h s hs

/-- In every order of packets, events and sweeps, with any number of connections. A connection to a port other than 443
gets exactly the bytes its own socket returned, numbered without gaps. On a port other than 80, too, the bytes its
socket took are a prefix of what the client sent on it. -/
theorem connections_relayed (hstream : ∀ k isn, (stream k isn).length < 2 ^ 31)
    (h : Run ngStep (Clients stream) World.init ops w) : ∀ s, .tcp s ∈ w.sessions →
      (s.dest ≠ 443 → s.sendScale ≤ 14 → Contiguous s.localStart s.io ∧
        (s.state ≠ .closing → s.state ≠ .close → delivered s.io = received s.io)) ∧
      (s.dest ≠ 80 → s.dest ≠ 443 → s.state.isOpen = true →
        accepted s.io <+: stream (NgSession.tcp s).key s.remoteStart ∧
        (s.state = .synRecv ∨ s.state = .established →
          s.remoteSeq = s.remoteStart + 1 + BitVec.ofNat 32 (accepted s.io).length)) := by
  have hinv := h.invariant' (I := fun w => w.TcpUnique ∧ ∀ s, .tcp s ∈ w.sessions → Connected stream s)
    ⟨List.nodup_nil, fun s hs => by cases hs⟩ fun w op ⟨hunique, hI⟩ hop =>
      ⟨ngStep_tcpUnique hunique op, tcp_forall_step hunique (fun p e s _ hnew => .of_new hstream hnew)
        (fun i s hs hIs => hIs.called hstream fun c hc => hop i s c hs hc) hI⟩
  intro s hs
  have hs := hinv.2 s hs
  refine ⟨fun hd hscale => ⟨(hs.down hd hscale).contiguous, (hs.down hd hscale).whole⟩, fun hd hd' hopen => ?_⟩
  have hup := (hs.up hd hd').upstream hopen
  refine ⟨?_, fun hst => hup.next (hst.imp_right .inl)⟩
  rw [hup.taken]
  exact List.take_prefix _ _

/-- The socket of the connection is connected, and can be written to. -/
def sampleOpened : SocketEnv where
  ev := ⟨false, false, true⟩
  fwdBuf := ⟨16384, 0⟩
  send _ data := { ret := min data.length 4, errno := .other, ret_ge := by omega, ret_lt := by omega }

/-- Two connections. The second one in the list, which was opened first, gets its data in the wrong order. -/
def sampleConversations : List NgOp :=
  [.tcp (sampleSyn 8080) { socket := 5, buf := ⟨1, 0⟩ }, .tcp (sampleSyn 8081) { socket := 6, buf := ⟨1, 0⟩ },
    .event 1 (.tcp sampleOpened), .tcp (samplePkt 8080 1001 1 []) {}, .tcp (samplePkt 8080 1003 1 [33, 10]) {},
    .tcp (samplePkt 8080 1001 1 [72, 105]) {}, .event 1 (.tcp sampleOpened)]

/-- The client sends the same on every connection that begins with the number 1000. -/
def sampleStreams (_ : Key) (isn : U32) : Bytes := if isn = 1000 then [72, 105, 33, 10] else []

def NgSession.beginsAt (isn : U32) : NgSession → Bool
  | .tcp s => s.remoteStart = isn
  | _ => true

theorem clients_sample (hw : w.sessions.all (NgSession.beginsAt 1000) = true) (hop : op ∈ sampleConversations) :
    Clients sampleStreams w op := by
  intro i s call hi hcall
  have hstart : s.remoteStart = 1000 := by
    have h := List.all_eq_true.1 hw _ (List.mem_of_getElem? hi)
    simpa [NgSession.beginsAt] using h
  have hstream : sampleStreams (NgSession.tcp s).key s.remoteStart = [72, 105, 33, 10] := by
    rw [sampleStreams, hstart]
    rfl
  rw [hstream, hstart]
  have hsocket : UploadSafe [72, 105, 33, 10] 1000 s (.socket sampleOpened) := by
    refine ⟨fun round data => ?_, trivial⟩
    simp only [sampleOpened]
    omega
  simp only [sampleConversations, List.mem_cons, List.not_mem_nil, or_false] at hop
  rcases hop with rfl | rfl | rfl | rfl | rfl | rfl | rfl
  · cases hcall
    exact ⟨fun _ _ hdata => absurd rfl hdata, fun _ _ hdata => absurd rfl hdata⟩
  · cases hcall
    exact ⟨fun _ _ hdata => absurd rfl hdata, fun _ _ hdata => absurd rfl hdata⟩
  · simp only [NgOp.tcpCall, Option.ite_none_right_eq_some, Option.some.injEq] at hcall
    exact hcall.2 ▸ hsocket
  · cases hcall
    exact ⟨fun _ _ hdata => absurd rfl hdata, fun _ hsyn => by cases hsyn⟩
  · cases hcall
    exact ⟨fun _ _ _ => ⟨2, by decide, by decide, by decide⟩, fun _ hsyn => by cases hsyn⟩
  · cases hcall
    exact ⟨fun _ _ _ => ⟨0, by decide, by decide, by decide⟩, fun _ hsyn => by cases hsyn⟩
  · simp only [NgOp.tcpCall, Option.ite_none_right_eq_some, Option.some.injEq] at hcall
    exact hcall.2 ▸ hsocket

theorem sampleConversations_run : Run ngStep (Clients sampleStreams) World.init sampleConversations
    (sampleConversations.foldl ngStep World.init) := by
  have hbegins : ∀ k < 7, ((sampleConversations.take k).foldl ngStep World.init).sessions.all
      (NgSession.beginsAt 1000) = true := by decide +kernel
  refine Run.ofAllOk ⟨clients_sample (hbegins 0 ?_) ?_, clients_sample (hbegins 1 ?_) ?_,
    clients_sample (hbegins 2 ?_) ?_, clients_sample (hbegins 3 ?_) ?_, clients_sample (hbegins 4 ?_) ?_,
    clients_sample (hbegins 5 ?_) ?_, clients_sample (hbegins 6 ?_) ?_, trivial⟩
  all_goals first | decide | simp [sampleConversations]

def World.tcpAt (w : World) (i : Nat) : Option TcpSession :=
  match w.sessions[i]? with
  | some (.tcp s) => some s
  | _ => none

theorem tcpAt_eq (h : w.tcpAt i = some s) : w.sessions[i]? = some (.tcp s) := by
  unfold World.tcpAt at h
  split at h
  · cases h
    assumption
  · cases h

theorem connections_relayed_sample : ∃ s, (sampleConversations.foldl ngStep World.init).sessions[1]? = some (.tcp s) ∧
    accepted s.io = [72, 105, 33, 10] ∧ accepted s.io <+: sampleStreams (NgSession.tcp s).key s.remoteStart := by
  have hsecond : ((sampleConversations.foldl ngStep World.init).tcpAt 1).map
      (fun s => (s.dest, s.state.isOpen, accepted s.io)) = some (8080, true, [72, 105, 33, 10]) := by decide +kernel
  obtain ⟨s, hs, hok⟩ := Option.map_eq_some_iff.1 hsecond
  simp only [Prod.mk.injEq] at hok
  obtain ⟨hdest, hopen, haccepted⟩ := hok
  have ht := tcpAt_eq hs
  have hstream : ∀ k isn, (sampleStreams k isn).length < 2 ^ 31 := by
    intro k isn
    unfold sampleStreams
    split <;> decide
  have hrelayed := (connections_relayed hstream sampleConversations_run s (List.mem_of_getElem? ht)).2
  rw [hdest] at hrelayed
  exact ⟨s, ht, haccepted, (hrelayed (by decide) (by decide) hopen).1⟩

/-! ## Datagrams -/

section Datagrams

variable {s s' : UdpSession} {data : List Bytes} {io calls : List Io}

/-- A datagram the socket returned. -/
def Io.heard : Io → List Bytes
  | .recv bytes => [bytes]
  | _ => []

/-- A datagram for the client. -/
def Io.told : Io → List Bytes
  | .datagram bytes _ => [bytes]
  | _ => []

def heard (io : List Io) : List Bytes := io.flatMap Io.heard
def told (io : List Io) : List Bytes := io.flatMap Io.told

@[simp] theorem heard_append : heard (io ++ calls) = heard io ++ heard calls := List.flatMap_append
@[simp] theorem told_append : told (io ++ calls) = told io ++ told calls := List.flatMap_append

/-- `check_dhcp` sees the packets of the session. -/
def UdpSession.isDhcp (s : UdpSession) : Bool := s.source = 68 ∨ s.dest = 67

/-- What a call does, which brings `data`: it forwards it or not, and tells the client what it hears, unless it never
returns. -/
structure Tells (s s' : UdpSession) (data : List Bytes) : Prop where
  isDhcp : s'.isDhcp = s.isDhcp
  io : s.io <+: s'.io
  forwarded : ∃ new, new.Sublist data ∧ forwarded s'.io = forwarded s.io ++ new
  own : s.isDhcp = false → s'.fixed = s.fixed
  answers : s.isDhcp = false → .hang ∉ s'.io →
    ∃ new, heard s'.io = heard s.io ++ new ∧ told s'.io = told s.io ++ new

theorem Tells.refl (s : UdpSession) (data : List Bytes) : Tells s s data :=
  ⟨rfl, List.prefix_rfl, ⟨[], List.nil_sublist _, by simp⟩, fun _ => rfl, fun _ _ => ⟨[], by simp, by simp⟩⟩

theorem isDhcp_congr (h : s'.fixed = s.fixed) : s'.isDhcp = s.isDhcp := by
  simp only [UdpSession.fixed, Prod.mk.injEq] at h
  obtain ⟨-, -, hso, -, hde⟩ := h
  rw [UdpSession.isDhcp, UdpSession.isDhcp, hso, hde]

/-- A call that neither forwards nor answers. -/
theorem tells_quiet (calls : List Io) (hf : s'.fixed = s.fixed) (hio : s'.io = s.io ++ calls)
    (hforwarded : forwarded calls = []) (hheard : heard calls = []) (htold : told calls = []) : Tells s s' data :=
  ⟨isDhcp_congr hf, ⟨calls, hio.symm⟩, ⟨[], List.nil_sublist _, by simp [hio, hforwarded]⟩, fun _ => hf,
    fun _ _ => ⟨[], by simp [hio, hheard], by simp [hio, htold]⟩⟩

/-- A call that makes no system call. -/
theorem tells_silent (hf : s'.fixed = s.fixed) (hio : s'.io = s.io) : Tells s s' data :=
  tells_quiet [] hf (by rw [hio, List.append_nil]) rfl rfl rfl

/-- A call that never returns. -/
theorem tells_hang (calls : List Io) (hf : s'.fixed = s.fixed) (hio : s'.io = s.io ++ calls ++ [.hang])
    (hforwarded : forwarded calls = []) : Tells s s' data := by
  refine ⟨isDhcp_congr hf, ⟨calls ++ [.hang], by rw [hio, List.append_assoc]⟩, ⟨[], List.nil_sublist _, ?_⟩,
    fun _ => hf, fun _ hreturns => ?_⟩
  · have hhang : forwarded [.hang] = [] := rfl
    simp [hio, hforwarded, hhang]
  · exact absurd (by simp [hio]) hreturns

theorem Tells.of_nil (h : Tells s s' []) : Tells s s' data := by
  obtain ⟨new, hnew, hforwarded⟩ := h.forwarded
  exact { h with forwarded := ⟨new, List.sublist_nil.1 hnew ▸ List.nil_sublist _, hforwarded⟩ }

theorem tells_forwardUdp {p : UdpPkt} (e : UdpEnv) (hb : p.belongs s = true) :
    Tells s (forwardUdp s p e) [p.data] := by
  obtain ⟨hso, hde⟩ := belongs_port hb
  unfold forwardUdp
  split
  · exact tells_hang [] rfl (by simp) rfl
  split
  · rename_i s' hs'
    split at hs'
    · rename_i hport
      rw [hso, hde] at hport
      unfold checkDhcp at hs'
      split at hs'
      · cases hs'
      · split at hs'
        · cases hs'
        · split at hs'
          · cases hs'
          · split at hs'
            · cases hs'
              have hdhcp : s.isDhcp = true := by simpa [UdpSession.isDhcp] using hport
              refine ⟨rfl, (List.prefix_append _ _).trans (List.prefix_append _ _), ⟨[], List.nil_sublist _, ?_⟩,
                fun hd => ?_, fun hd => ?_⟩
              · simp [writeUdp, Native.forwarded, Io.forwarded]
              · rw [hdhcp] at hd
                cases hd
              · rw [hdhcp] at hd
                cases hd
            · cases hs'
              exact .refl s _
    · cases hs'
  · have hsent : ∀ s' : UdpSession, s'.fixed = s.fixed →
        s'.io = s.io ++ [.sendto p.data (onSocket s.socket e.sendto.ret)] → Tells s s' [p.data] := by
      intro s' hf hio
      refine ⟨isDhcp_congr hf, ⟨_, hio.symm⟩, ⟨[p.data], List.Sublist.refl _, ?_⟩, fun _ => hf, fun _ _ => ⟨[], ?_, ?_⟩⟩
      · simp [hio, Native.forwarded, Io.forwarded]
      · simp [hio, heard, Io.heard]
      · simp [hio, told, Io.told]
    dsimp only
    split
    · split
      · exact hsent _ rfl rfl
      · exact hsent _ rfl rfl
    · exact hsent _ rfl rfl

theorem tells_handleUdp {p : UdpPkt} (e : UdpEnv) (hb : p.belongs s = true) : Tells s (handleUdp s p e) [p.data] := by
  unfold handleUdp
  split
  · exact .refl s _
  · exact tells_forwardUdp e hb

theorem tells_checkUdpSocket (s : UdpSession) (e : DatagramEnv) : Tells s (checkUdpSocket s e) [] := by
  unfold checkUdpSocket
  split
  · exact tells_silent rfl rfl
  · split
    · dsimp only
      split
      · split
        · exact tells_silent rfl rfl
        · exact tells_silent rfl rfl
      · exact tells_silent rfl rfl
      · rename_i bytes hne hrecv
        have hheard : ∀ s' : UdpSession, s'.fixed = s.fixed →
            s'.io = s.io ++ [.recv bytes] ++ [.datagram bytes e.writeOk] → Tells s s' [] := by
          intro s' hf hio
          refine ⟨isDhcp_congr hf, ⟨_, by rw [hio, List.append_assoc]⟩, ⟨[], List.Sublist.refl _, ?_⟩, fun _ => hf,
            fun _ _ => ⟨[bytes], ?_, ?_⟩⟩
          · simp [hio, Native.forwarded, Io.forwarded]
          · simp [hio, heard, Io.heard]
          · simp [hio, told, Io.told]
        split
        · exact tells_hang [.recv bytes] rfl rfl rfl
        · split
          · exact hheard _ rfl rfl
          · split
            · exact hheard _ rfl rfl
            · exact hheard _ rfl rfl
    · exact .refl s _

theorem tells_checkUdpSession (s : UdpSession) (e : CheckEnv) : Tells s (checkUdpSession s e).1 [] := by
  have htime : ∃ state, checkUdpTimeout s e = { s with state } := by
    unfold checkUdpTimeout
    split
    · exact ⟨_, rfl⟩
    · exact ⟨s.state, rfl⟩
  obtain ⟨state, htime⟩ := htime
  have hfinished : Tells s (checkUdpFinished { s with state } e) [] := by
    unfold checkUdpFinished
    split
    · exact tells_quiet [.close s.socket] rfl rfl rfl rfl rfl
    · exact tells_silent rfl rfl
  unfold checkUdpSession
  rw [htime]
  dsimp only
  split
  · exact ⟨hfinished.isDhcp, hfinished.io, hfinished.forwarded, hfinished.own, hfinished.answers⟩
  · exact hfinished

theorem tells_stopUdp (s : UdpSession) : Tells s (stopUdp s).1 [] := by
  unfold stopUdp
  split
  · exact tells_silent rfl rfl
  · split <;> exact .refl s _

/-! ## The payloads of a run -/

/-- The payload of a UDP packet. -/
def NgOp.payload : NgOp → List Bytes
  | .udp p _ => [p.data]
  | _ => []

/-- The payload of a packet for the session. -/
def UdpSession.payload (s : UdpSession) : NgOp → List Bytes
  | .udp p _ => if p.belongs s then [p.data] else []
  | _ => []

def NgSession.forwarded : NgSession → List Bytes
  | .udp s => Native.forwarded s.io
  | _ => []

theorem Changes.tells (h : Changes op (.udp s) (.udp s')) : Tells s s' (s.payload op) := by
  cases h with
  | refl => exact .refl s _
  | @udpPacket _ p e hop hb =>
      rw [hop, UdpSession.payload, if_pos hb]
      exact tells_handleUdp e hb
  | udpSocket s e => exact (tells_checkUdpSocket s e).of_nil
  | udpCheck s e => exact (tells_checkUdpSession s e).of_nil
  | udpStop s => exact (tells_stopUdp s).of_nil

theorem payload_congr (h : s'.fixed = s.fixed) : s'.payload = s.payload := by
  simp only [UdpSession.fixed, Prod.mk.injEq] at h
  obtain ⟨hv, hsa, hso, hda, hde⟩ := h
  funext op
  cases op with
  | udp p e =>
      have hb : p.belongs s' = p.belongs s := by simp only [UdpPkt.belongs, hv, hsa, hso, hda, hde]
      simp only [UdpSession.payload, hb]
  | _ => rfl

/-- The session that a packet opens. -/
theorem tells_new {p : UdpPkt} {e : UdpEnv} (h : handleUdpNew p e = some s) :
    forwarded s.io = [] ∧ heard s.io = [] ∧ told s.io = [] ∧ p.belongs s = true := by
  unfold handleUdpNew at h
  split at h
  · cases h
  · cases h
    exact ⟨rfl, rfl, rfl, by simp [UdpPkt.belongs]⟩

/-- What is known of a session after the calls `ops`. -/
structure Conveys (ops : List NgOp) (s : UdpSession) : Prop where
  forwarded : (forwarded s.io).Sublist (ops.flatMap s.payload)
  told : .hang ∉ s.io → told s.io = heard s.io

theorem Conveys.tells (h : s.isDhcp = false → Conveys ops s) (ht : Tells s s' (s.payload op))
    (hd : s'.isDhcp = false) : Conveys (ops ++ [op]) s' := by
  rw [ht.isDhcp] at hd
  obtain ⟨hf, hs⟩ := h hd
  obtain ⟨sent, hsent, hforwarded⟩ := ht.forwarded
  refine ⟨?_, fun hreturns => ?_⟩
  · rw [hforwarded, payload_congr (ht.own hd), List.flatMap_append, List.flatMap_singleton]
    exact hf.append hsent
  · obtain ⟨new, hheard, htold⟩ := ht.answers hd hreturns
    rw [hheard, htold, hs fun hhang => hreturns (ht.io.subset hhang)]

theorem Conveys.of_opens (h : Opens op (.udp s)) (hd : s.isDhcp = false) : Conveys (ops ++ [op]) s := by
  cases h with
  | @udp p e s hnew =>
      obtain ⟨hforwarded, hheard, htold, hb⟩ := tells_new hnew
      have hempty : Conveys ops s := ⟨by simp [hforwarded], fun _ => by rw [hheard, htold]⟩
      have ht := tells_handleUdp e hb
      have hpayload : s.payload (.udp p e) = [p.data] := if_pos hb
      rw [← hpayload] at ht
      exact .tells (fun _ => hempty) ht hd
  | block => exact ⟨by simp [blockUdp, Native.forwarded], fun _ => rfl⟩

/-! ## All sessions -/

/-- Only a UDP packet changes what the sessions have forwarded. -/
theorem forwarded_other (h : List.Forall₂ (Changes op) l l') (hop : ∀ p e, op ≠ .udp p e) :
    l'.flatMap NgSession.forwarded = l.flatMap NgSession.forwarded := by
  induction h with
  | nil => rfl
  | @cons t t' l l' hc _ ih =>
      rw [List.flatMap_cons, List.flatMap_cons, ih]
      congr 1
      cases t with
      | udp s =>
          obtain ⟨s', rfl⟩ : ∃ s', t' = .udp s' := by cases hc <;> exact ⟨_, rfl⟩
          obtain ⟨new, hnew, hforwarded⟩ := hc.tells.forwarded
          have hnone : s.payload op = [] := by
            cases op with
            | udp p e => exact absurd rfl (hop p e)
            | _ => rfl
          rw [hnone, List.sublist_nil] at hnew
          rw [NgSession.forwarded, NgSession.forwarded, hforwarded, hnew, List.append_nil]
      | icmp s => cases hc <;> rfl
      | tcp s => cases hc <;> rfl

/-- At most one session forwards a packet. -/
theorem forwarded_after (w : World) (op : NgOp) :
    ((w.after op).flatMap NgSession.forwarded).Subperm (w.sessions.flatMap NgSession.forwarded ++ op.payload) := by
  have hother : (∀ p e, op ≠ .udp p e) → ((w.after op).flatMap NgSession.forwarded).Subperm
      (w.sessions.flatMap NgSession.forwarded ++ op.payload) := by
    intro hop
    rw [forwarded_other (after_changes w op) hop]
    exact (List.sublist_append_left _ _).subperm
  cases op with
  | udp p e =>
      simp only [World.after]
      cases hu : updateFirst _ w.sessions with
      | none => exact (List.sublist_append_left _ _).subperm
      | some l =>
          obtain ⟨l₁, t, t', l₂, hl, -, ht, rfl⟩ := updateFirst_eq_some hu
          rw [hl, Option.getD_some]
          cases t with
          | udp s =>
              simp only [Option.ite_none_right_eq_some, Option.some.injEq] at ht
              obtain ⟨hb, rfl⟩ := ht
              obtain ⟨new, hnew, hforwarded⟩ := (tells_handleUdp e hb).forwarded
              simp only [List.flatMap_append, List.flatMap_cons, NgSession.forwarded, hforwarded, NgOp.payload]
              have hperm : (l₁.flatMap NgSession.forwarded ++
                  (forwarded s.io ++ new ++ l₂.flatMap NgSession.forwarded)).Perm
                  (l₁.flatMap NgSession.forwarded ++ (forwarded s.io ++ l₂.flatMap NgSession.forwarded) ++ new) := by
                rw [List.append_assoc, List.append_assoc, List.append_assoc]
                exact ((List.perm_append_comm.append_left _).append_left _)
              exact hperm.subperm.trans (hnew.append_left _).subperm
          | icmp s => cases ht
          | tcp s => cases ht
  | _ => exact hother fun _ _ h => by cases h

/-- In every order of packets, events and sweeps, with any number of sessions, each session forwards payloads of its own
packets, in their order, and, as long as its calls return, tells the client exactly the datagrams its socket returned,
in their order (the sessions of DHCP answer themselves). No packet is forwarded by two sessions, or twice. -/
theorem datagrams_relayed (h : Run ngStep (fun _ _ => True) World.init ops w) :
    (∀ s, .udp s ∈ w.sessions → s.isDhcp = false →
      (forwarded s.io).Sublist (ops.flatMap s.payload) ∧ (.hang ∉ s.io → told s.io = heard s.io)) ∧
    (w.sessions.flatMap NgSession.forwarded).Subperm (ops.flatMap NgOp.payload) := by
  have hinv := h.invariant (I := fun ops w => (∀ s, .udp s ∈ w.sessions → s.isDhcp = false → Conveys ops s) ∧
    (w.sessions.flatMap NgSession.forwarded).Subperm (ops.flatMap NgOp.payload)) ?_ ?_
  · exact ⟨fun s hs hd => ⟨(hinv.1 s hs hd).forwarded, (hinv.1 s hs hd).told⟩, hinv.2⟩
  · refine ⟨fun s hs => ?_, List.nil_subperm⟩
    cases hs
  · rintro ops w op ⟨hI, hsub⟩ -
    have hafter : ∀ s, .udp s ∈ w.after op → s.isDhcp = false → Conveys (ops ++ [op]) s := by
      intro s' hs' hd
      obtain ⟨t, ht, hc⟩ := mem_of_forall₂ (after_changes w op) hs'
      obtain ⟨s, rfl⟩ : ∃ s, t = .udp s := by cases hc <;> exact ⟨_, rfl⟩
      exact .tells (hI s ht) hc.tells hd
    have hgrows : (w.sessions.flatMap NgSession.forwarded ++ op.payload).Subperm
        ((ops ++ [op]).flatMap NgOp.payload) := by
      rw [List.flatMap_append, List.flatMap_singleton]
      exact hsub.append (List.Subperm.refl _)
    rcases ngStep_cases w op with hstep | ⟨t, hnew, -, heq, hstep⟩
    · refine ⟨fun s hs => hafter s (hstep.subset hs), ?_⟩
      exact (hstep.flatMap _).subperm.trans ((forwarded_after w op).trans hgrows)
    · rw [hstep]
      refine ⟨fun s hs hd => ?_, ?_⟩
      · rcases List.mem_cons.1 hs with rfl | hs
        · exact .of_opens hnew hd
        · exact hafter s (heq ▸ hs) hd
      · have hpayload : t.forwarded.Sublist op.payload := by
          cases hnew with
          | @udp p e s hnew =>
              obtain ⟨hforwarded, -, -, hb⟩ := tells_new hnew
              obtain ⟨new, hsub, hnew⟩ := (tells_handleUdp e hb).forwarded
              rw [NgSession.forwarded, hnew, hforwarded]
              exact hsub
          | block => exact List.nil_sublist _
          | _ => exact List.nil_sublist _
        rw [List.flatMap_cons]
        refine (List.perm_append_comm.subperm.trans ?_).trans hgrows
        exact (hpayload.append_left _).subperm

def sampleQuestion (server : UInt8) (data : Bytes) : UdpPkt where
  version := 4
  saddr := [10, 1, 10, 1]
  daddr := [8, 8, 8, server]
  source := 40000
  dest := 123
  data := data

/-- Two servers are asked in turns, and one of them answers. -/
def sampleQuestions : List NgOp :=
  [.udp (sampleQuestion 1 (ascii "first")) { socket := 7, sendto := { ret := 5, errno := .other } },
    .udp (sampleQuestion 2 (ascii "other")) { socket := 8, sendto := { ret := 5, errno := .other } },
    .udp (sampleQuestion 1 (ascii "again")) { sendto := { ret := 5, errno := .other } },
    .event 1 (.datagram { ev := ⟨false, true, false⟩, recv := .got [4, 5] })]

def World.udpAt (w : World) (i : Nat) : Option UdpSession :=
  match w.sessions[i]? with
  | some (.udp s) => some s
  | _ => none

theorem udpAt_eq (h : w.udpAt i = some s) : w.sessions[i]? = some (.udp s) := by
  unfold World.udpAt at h
  split at h
  · cases h
    assumption
  · cases h

theorem datagrams_relayed_sample : ∃ s, (sampleQuestions.foldl ngStep World.init).sessions[1]? = some (.udp s) ∧
    told s.io = [[4, 5]] ∧ forwarded s.io = [ascii "first", ascii "again"] ∧
      (forwarded s.io).Sublist (sampleQuestions.flatMap s.payload) ∧ told s.io = heard s.io := by
  have hsecond : ((sampleQuestions.foldl ngStep World.init).udpAt 1).map
      (fun s => (s.isDhcp, s.io.contains .hang, told s.io, forwarded s.io)) =
        some (false, false, [[4, 5]], [ascii "first", ascii "again"]) := by decide +kernel
  obtain ⟨s, hs, hok⟩ := Option.map_eq_some_iff.1 hsecond
  simp only [Prod.mk.injEq] at hok
  obtain ⟨hdhcp, hreturns, htold, hforwarded⟩ := hok
  have ht := udpAt_eq hs
  have hrun := Run.ofList ngStep World.init sampleQuestions
  have hs := (datagrams_relayed hrun).1 s (List.mem_of_getElem? ht) hdhcp
  exact ⟨s, ht, htold, hforwarded, hs.1, hs.2 (by simpa using hreturns)⟩

end Datagrams

end TunProxy.Native
