import TunProxy.Native.Lemmas.Session
import TunProxy.Native.Tcp.Lemmas.Coherent

/-!
# Sessions and their descriptors

In every reachable list of sessions, the state of a session says whether its descriptor is open. A session that is freed
has had its descriptor closed exactly once.
-/

namespace TunProxy.Native

open Lib

variable {s s' : NgSession} {w : World} {io : List Io}

/-- The session has its descriptor, open. -/
def HoldsFd (socket : Int) (io : List Io) : Prop := 0 ≤ socket ∧ io.filter Io.isFd = [.open socket]

/-- The descriptor was opened and closed once each. -/
def ClosedFd (socket : Int) (io : List Io) : Prop :=
  socket = -1 ∧ ∃ fd, 0 ≤ fd ∧ io.filter Io.isFd = [.open fd, .close fd]

/-- State and descriptor of a session. A blocked session never had one. -/
def NgSession.Ok : NgSession → Prop
  | .icmp s => HoldsFd s.socket s.io
  | .udp s =>
      match s.state with
      | .active | .finishing => HoldsFd s.socket s.io
      | .closed => ClosedFd s.socket s.io
      | .blocked => s.socket = -1 ∧ s.io.filter Io.isFd = []
  | .tcp s => Coherent s

/-- No descriptor is left open. -/
def NgSession.Released (s : NgSession) : Prop :=
  ClosedFd s.socket s.io ∨ s.socket = -1 ∧ s.io.filter Io.isFd = [] ∧ ∃ u, s = .udp u ∧ u.state = .blocked

structure World.Ok (w : World) : Prop where
  sessions : ∀ s ∈ w.sessions, s.Ok
  freed : ∀ s ∈ w.freed, s.Released

/-! ## UDP sessions -/

section Udp

variable {s : UdpSession} {p : UdpPkt} {data : Bytes}

theorem HoldsFd.append {socket : Int} (h : HoldsFd socket io) (calls : List Io) (hc : calls.filter Io.isFd = []) :
    HoldsFd socket (io ++ calls) := by
  refine ⟨h.1, ?_⟩
  rw [List.filter_append, hc, List.append_nil]
  exact h.2

/-- An active or finishing session holds its descriptor. -/
theorem udp_ok_of_holds (h : HoldsFd s.socket s.io) (hs : s.state = .active ∨ s.state = .finishing) :
    (NgSession.udp s).Ok := by
  rcases hs with hs | hs <;> simpa [NgSession.Ok, hs] using h

theorem holds_of_udp_ok (h : (NgSession.udp s).Ok) (hs : s.state = .active ∨ s.state = .finishing) :
    HoldsFd s.socket s.io := by
  rcases hs with hs | hs <;> simpa [NgSession.Ok, hs] using h

theorem handleUdpNew_ok {e : UdpEnv} (h : handleUdpNew p e = some s) : HoldsFd s.socket s.io ∧ s.state = .active := by
  unfold handleUdpNew at h
  split at h
  · cases h
  · rename_i ho
    rw [← Option.some.inj h]
    exact ⟨⟨by simpa using ho, rfl⟩, rfl⟩

/-- DHCP changes neither the state nor the descriptor. -/
theorem checkDhcp_holds {ok : Bool} {s' : UdpSession} (h : checkDhcp s data ok = some s')
    (hs : HoldsFd s.socket s.io) : HoldsFd s'.socket s'.io ∧ s'.state = s.state := by
  unfold checkDhcp at h
  split at h
  · cases h
  · split at h
    · cases h
    · split at h
      · cases h
      · split at h
        · rw [← Option.some.inj h]
          exact ⟨(hs.append _ rfl).append _ rfl, rfl⟩
        · rw [← Option.some.inj h]
          exact ⟨hs, rfl⟩

theorem handleUdp_ok {e : UdpEnv} (h : (NgSession.udp s).Ok) : (NgSession.udp (handleUdp s p e)).Ok := by
  unfold handleUdp
  split
  · exact h
  · rename_i hs
    have hs : s.state = .active := by simpa using hs
    have hholds := holds_of_udp_ok h (.inl hs)
    unfold forwardUdp
    split
    · exact udp_ok_of_holds (hholds.append [.hang] rfl) (.inl hs)
    · split
      · rename_i s' hdhcp
        split at hdhcp
        · obtain ⟨h', hs'⟩ := checkDhcp_holds hdhcp hholds
          exact udp_ok_of_holds h' (.inl (hs'.trans hs))
        · cases hdhcp
      · have h' := hholds.append [.sendto p.data (onSocket s.socket e.sendto.ret)] rfl
        simp only []
        split
        · split
          · exact udp_ok_of_holds h' (.inr rfl)
          · exact udp_ok_of_holds h' (.inl hs)
        · exact udp_ok_of_holds h' (.inl hs)

/-- While the descriptor is open, the session is active or finishing. -/
theorem udp_live (h : (NgSession.udp s).Ok) (ho : 0 ≤ s.socket) : s.state = .active ∨ s.state = .finishing := by
  cases hs : s.state with
  | active => exact .inl rfl
  | finishing => exact .inr rfl
  | closed =>
      have h : ClosedFd s.socket s.io := by simpa [NgSession.Ok, hs] using h
      have := h.1
      omega
  | blocked =>
      have h : s.socket = -1 ∧ s.io.filter Io.isFd = [] := by simpa [NgSession.Ok, hs] using h
      have := h.1
      omega

theorem checkUdpSocket_ok {e : DatagramEnv} (h : (NgSession.udp s).Ok) (ho : 0 ≤ s.socket) :
    (NgSession.udp (checkUdpSocket s e)).Ok := by
  have hlive := udp_live h ho
  have hholds := holds_of_udp_ok h hlive
  unfold checkUdpSocket
  split
  · exact udp_ok_of_holds hholds (.inr rfl)
  · split
    · simp only []
      split
      · split
        · exact udp_ok_of_holds hholds (.inr rfl)
        · exact udp_ok_of_holds hholds hlive
      · exact udp_ok_of_holds hholds (.inr rfl)
      · rename_i bytes _ _
        have hrecv := hholds.append [.recv bytes] rfl
        have h' := hrecv.append [.datagram bytes e.writeOk] rfl
        split
        · exact udp_ok_of_holds (hrecv.append [.hang] rfl) hlive
        · split
          · exact udp_ok_of_holds h' (.inr rfl)
          · split
            · exact udp_ok_of_holds h' (.inr rfl)
            · exact udp_ok_of_holds h' hlive
    · exact h

/-- Closing the descriptor of a session that holds it. -/
theorem HoldsFd.close {socket : Int} (h : HoldsFd socket io) : ClosedFd (-1) (io ++ [.close socket]) := by
  refine ⟨rfl, socket, h.1, ?_⟩
  rw [List.filter_append, h.2]
  rfl

/-- A session that was closed, or blocked, has no descriptor. -/
theorem released_of_udp_ok (h : (NgSession.udp s).Ok) (hs : s.state = .closed ∨ s.state = .blocked) :
    (NgSession.udp s).Released := by
  rcases hs with hs | hs
  · have h : ClosedFd s.socket s.io := by simpa [NgSession.Ok, hs] using h
    exact .inl h
  · have h : s.socket = -1 ∧ s.io.filter Io.isFd = [] := by simpa [NgSession.Ok, hs] using h
    exact .inr ⟨h.1, h.2, s, rfl, hs⟩

theorem checkUdpTimeout_ok {e : CheckEnv} (h : (NgSession.udp s).Ok) : (NgSession.udp (checkUdpTimeout s e)).Ok := by
  unfold checkUdpTimeout
  split
  · rename_i hs
    have hholds := holds_of_udp_ok h (.inl hs.1)
    exact udp_ok_of_holds hholds (.inr rfl)
  · exact h

theorem checkUdpFinished_ok {e : CheckEnv} (h : (NgSession.udp s).Ok) :
    (NgSession.udp (checkUdpFinished s e)).Ok := by
  unfold checkUdpFinished
  split
  · rename_i hs
    exact (holds_of_udp_ok h (.inr hs)).close
  · exact h

theorem checkUdpSession_ok {e : CheckEnv} (h : (NgSession.udp s).Ok) :
    (NgSession.udp (checkUdpSession s e).1).Ok ∧
      ((checkUdpSession s e).2 = true → (NgSession.udp (checkUdpSession s e).1).Released) := by
  have h' := checkUdpFinished_ok (e := e) (checkUdpTimeout_ok (e := e) h)
  unfold checkUdpSession
  generalize checkUdpFinished (checkUdpTimeout s e) e = s' at h'
  have hok : (NgSession.udp (if s'.state = .closed ∧ (s'.sent ≠ 0 ∨ s'.received ≠ 0) then
      { s' with sent := 0, received := 0 } else s')).Ok := by
    split
    · exact h'
    · exact h'
  refine ⟨hok, fun hdel => ?_⟩
  simp only [decide_eq_true_eq] at hdel
  exact released_of_udp_ok hok hdel.1

theorem stopUdp_ok (h : (NgSession.udp s).Ok) :
    (NgSession.udp (stopUdp s).1).Ok ∧ ((stopUdp s).2 = true → (NgSession.udp (stopUdp s).1).Released) := by
  unfold stopUdp
  split
  · rename_i hs
    have hholds := holds_of_udp_ok h (.inl hs)
    exact ⟨udp_ok_of_holds hholds (.inr rfl), fun hdel => absurd hdel Bool.false_ne_true⟩
  · split
    · rename_i hs
      exact ⟨h, fun _ => released_of_udp_ok h (.inr hs)⟩
    · exact ⟨h, fun hdel => absurd hdel Bool.false_ne_true⟩

end Udp

/-! ## ICMP sessions -/

section Icmp

variable {s : IcmpSession} {p : IcmpPkt}

theorem handleIcmpNew_ok {e : IcmpEnv} (h : handleIcmpNew p e = some s) : HoldsFd s.socket s.io := by
  unfold handleIcmpNew at h
  split at h
  · cases h
  · rename_i ho
    rw [← Option.some.inj h]
    exact ⟨by simpa using ho, rfl⟩

theorem handleIcmp_ok {e : IcmpEnv} (h : HoldsFd s.socket s.io) :
    HoldsFd (handleIcmp s p e).socket (handleIcmp s p e).io := by
  unfold handleIcmp
  simp only []
  split
  · exact h.append _ rfl
  · exact h.append _ rfl

theorem checkIcmpSocket_ok {e : DatagramEnv} (h : HoldsFd s.socket s.io) :
    HoldsFd (checkIcmpSocket s e).socket (checkIcmpSocket s e).io := by
  unfold checkIcmpSocket
  split
  · exact h
  · split
    · simp only []
      split
      · split
        · exact h
        · exact h
      · exact h
      · split
        · exact (h.append _ rfl).append _ rfl
        · exact (h.append _ rfl).append _ rfl
    · exact h

theorem checkIcmpSession_ok {e : CheckEnv} (h : HoldsFd s.socket s.io) :
    (checkIcmpSession s e).2 = false ∧ HoldsFd (checkIcmpSession s e).1.socket (checkIcmpSession s e).1.io ∨
      (checkIcmpSession s e).2 = true ∧ ClosedFd (checkIcmpSession s e).1.socket (checkIcmpSession s e).1.io := by
  unfold checkIcmpSession
  split
  · exact .inr ⟨rfl, h.close⟩
  · exact .inl ⟨rfl, h⟩

end Icmp

/-! ## TCP sessions -/

section Tcp

variable {s : TcpSession}

/-- A session in `TCP_CLOSE` has closed its descriptor. -/
theorem Coherent.closedFd (h : Coherent s) (hs : s.state = .close) : ClosedFd s.socket s.io := by
  have hneg := h.shut_socket (by simp [hs, TcpState.isShut])
  obtain ⟨fd, hfd, ⟨rfl, -⟩ | ⟨-, hio⟩⟩ := h.fds
  · omega
  · exact ⟨hneg, fd, hfd, hio⟩

theorem checkTcpSession_ok {e : CheckEnv} (h : Coherent s) :
    Coherent (checkTcpSession s e).1 ∧
      ((checkTcpSession s e).2 = true → ClosedFd (checkTcpSession s e).1.socket (checkTcpSession s e).1.io) := by
  have h' : Coherent (checkTcpSession s e).1 := tcpStep_coherent h (.check e)
  refine ⟨h', fun hdel => h'.closedFd ?_⟩
  have hdel : (checkTcpSession s e).1.state = .close ∧
      (checkTcpSession s e).1.time + TCP_KEEP_TIMEOUT < e.now := of_decide_eq_true hdel
  exact hdel.1

end Tcp

/-! ## The list -/

section List

variable {sessions : List NgSession} {handle : NgSession → Option NgSession}
    {check : Nat → NgSession → NgSession × Bool}

/-- The search changes at most the session it finds. -/
theorem mem_updateFirst {l : List NgSession} (h : updateFirst handle l = some sessions) (hs : s ∈ sessions) :
    s ∈ l ∨ ∃ t ∈ l, handle t = some s := by
  obtain ⟨l₁, t, t', l₂, rfl, -, ht, rfl⟩ := updateFirst_eq_some h
  rw [List.mem_append, List.mem_cons] at hs
  rcases hs with hs | rfl | hs
  · exact .inl (List.mem_append_left _ hs)
  · exact .inr ⟨t, List.mem_append_right _ List.mem_cons_self, ht⟩
  · exact .inl (List.mem_append_right _ (List.mem_cons_of_mem _ hs))

theorem World.Ok.update (h : w.Ok) (hu : updateFirst handle w.sessions = some sessions)
    (hh : ∀ t s, t.Ok → handle t = some s → s.Ok) : ({ w with sessions } : World).Ok := by
  refine ⟨fun s hs => ?_, h.freed⟩
  rcases mem_updateFirst hu hs with hs | ⟨t, ht, hts⟩
  · exact h.sessions s hs
  · exact hh t s (h.sessions t ht) hts

theorem World.Ok.cons (h : w.Ok) (hs : s.Ok) : ({ w with sessions := s :: w.sessions } : World).Ok := by
  refine ⟨fun t ht => ?_, h.freed⟩
  rcases List.mem_cons.1 ht with rfl | ht
  · exact hs
  · exact h.sessions t ht

theorem World.Ok.mapIdx {f : Nat → NgSession → NgSession} (h : w.Ok) (hf : ∀ i s, s.Ok → (f i s).Ok) :
    ({ w with sessions := w.sessions.mapIdx f } : World).Ok := by
  refine ⟨fun s hs => ?_, h.freed⟩
  obtain ⟨i, hi, rfl⟩ := List.mem_mapIdx.1 hs
  exact hf i _ (h.sessions _ (List.getElem_mem hi))

/-- A loop that unlinks sessions keeps the invariant where each check leaves a session that is right, or one without a
descriptor. -/
theorem World.Ok.unlink (h : w.Ok)
    (hc : ∀ i s, s.Ok → ((check i s).2 = false → (check i s).1.Ok) ∧ ((check i s).2 = true → (check i s).1.Released)) :
    ({ w with sessions := (Native.unlink check 0 [] w.sessions).1
              freed := w.freed ++ (Native.unlink check 0 [] w.sessions).2 } : World).Ok := by
  have hmem : ∀ x ∈ w.sessions.mapIdx fun j => check (0 + j),
      (x.2 = false → x.1.Ok) ∧ (x.2 = true → x.1.Released) := by
    intro x hx
    obtain ⟨i, hi, rfl⟩ := List.mem_mapIdx.1 hx
    exact hc _ _ (h.sessions _ (List.getElem_mem hi))
  rw [unlink_eq]
  constructor
  · intro s hs
    simp only [List.nil_append, List.mem_map, List.mem_filter, Bool.not_eq_true'] at hs
    obtain ⟨x, ⟨hx, hkept⟩, rfl⟩ := hs
    exact (hmem x hx).1 hkept
  · intro s hs
    rcases List.mem_append.1 hs with hs | hs
    · exact h.freed s hs
    · simp only [List.mem_map, List.mem_filter] at hs
      obtain ⟨x, ⟨hx, hdel⟩, rfl⟩ := hs
      exact (hmem x hx).2 hdel

end List

/-! ## One step -/

theorem World.Ok.handleIcmp {p : IcmpPkt} {e : IcmpEnv} (h : w.Ok) : (w.handleIcmp p e).Ok := by
  unfold World.handleIcmp
  split
  · simp only []
    split
    · rename_i sessions hu
      refine h.update hu fun t s ht hts => ?_
      cases t with
      | icmp t =>
          simp only [Option.ite_none_right_eq_some, Option.some.injEq] at hts
          rw [← hts.2]
          exact handleIcmp_ok ht
      | udp t => cases hts
      | tcp t => cases hts
    · split
      · rename_i s hnew
        exact h.cons (handleIcmp_ok (handleIcmpNew_ok hnew))
      · exact h
  · exact h

theorem World.Ok.handleUdp {p : UdpPkt} {e : UdpEnv} (h : w.Ok) : (w.handleUdp p e).Ok := by
  unfold World.handleUdp
  simp only []
  split
  · rename_i sessions hu
    refine h.update hu fun t s ht hts => ?_
    cases t with
    | udp t =>
        simp only [Option.ite_none_right_eq_some, Option.some.injEq] at hts
        rw [← hts.2]
        exact handleUdp_ok ht
    | icmp t => cases hts
    | tcp t => cases hts
  · split
    · rename_i s hnew
      obtain ⟨hholds, hactive⟩ := handleUdpNew_ok hnew
      exact h.cons (handleUdp_ok (udp_ok_of_holds hholds (.inl hactive)))
    · exact h

theorem World.Ok.handleTcp {p : TcpPkt} {e : HandleEnv} (h : w.Ok) : (w.handleTcp p e).Ok := by
  unfold World.handleTcp
  simp only []
  split
  · rename_i sessions hu
    refine h.update hu fun t s ht hts => ?_
    cases t with
    | tcp t =>
        simp only [Option.ite_none_right_eq_some, Option.some.injEq] at hts
        rw [← hts.2]
        exact tcpStep_coherent ht _
    | icmp t => cases hts
    | udp t => cases hts
  · split
    · rename_i s hnew
      exact h.cons (handleTcpNew_coherent hnew)
    · split
      · exact h
      · exact ⟨h.sessions, h.freed⟩

theorem checkSocket_ok {e : Event} (h : s.Ok) : (checkSocket s e).Ok := by
  unfold checkSocket
  split
  · exact h
  · rename_i ho
    have ho : 0 ≤ s.socket := by omega
    split
    · exact checkIcmpSocket_ok h
    · exact checkUdpSocket_ok h ho
    · exact tcpStep_coherent h _
    · exact h

theorem World.Ok.event {i : Nat} {e : Event} (h : w.Ok) : (w.event i e).Ok := by
  refine ⟨fun s hs => ?_, h.freed⟩
  obtain ⟨j, hj, rfl⟩ := List.mem_iff_getElem.1 hs
  have hj' : j < w.sessions.length := by simpa [World.event] using hj
  have hok := h.sessions _ (List.getElem_mem hj')
  simp only [World.event, List.getElem_modify]
  split
  · exact checkSocket_ok hok
  · exact hok

theorem World.Ok.monitor {e : Nat → MonitorEnv} (h : w.Ok) : (w.monitor e).Ok := by
  refine h.mapIdx fun i s hs => ?_
  cases s with
  | tcp s => exact tcpStep_coherent hs _
  | icmp s => exact hs
  | udp s => exact hs

theorem checkSession_ok {e : CheckEnv} (h : s.Ok) :
    ((checkSession s e).2 = false → (checkSession s e).1.Ok) ∧
      ((checkSession s e).2 = true → (checkSession s e).1.Released) := by
  cases s with
  | icmp s =>
      rcases checkIcmpSession_ok (e := e) h with ⟨hkept, hok⟩ | ⟨hdel, hclosed⟩
      · exact ⟨fun _ => hok, fun hdel => by simp [checkSession, hkept] at hdel⟩
      · exact ⟨fun hkept => by simp [checkSession, hdel] at hkept, fun _ => .inl hclosed⟩
  | udp s => exact ⟨fun _ => (checkUdpSession_ok h).1, (checkUdpSession_ok h).2⟩
  | tcp s => exact ⟨fun _ => (checkTcpSession_ok h).1, fun hdel => .inl ((checkTcpSession_ok h).2 hdel)⟩

theorem stopSession_ok {writeOk : Bool} (h : s.Ok) :
    ((stopSession s writeOk).2 = false → (stopSession s writeOk).1.Ok) ∧
      ((stopSession s writeOk).2 = true → (stopSession s writeOk).1.Released) := by
  cases s with
  | icmp s => exact ⟨fun _ => h, fun hdel => absurd hdel Bool.false_ne_true⟩
  | udp s => exact ⟨fun _ => (stopUdp_ok h).1, (stopUdp_ok h).2⟩
  | tcp s => exact ⟨fun _ => tcpStep_coherent h _, fun hdel => absurd hdel Bool.false_ne_true⟩

theorem ngStep_ok (h : w.Ok) (op : NgOp) : (ngStep w op).Ok := by
  cases op with
  | icmp p e => exact h.handleIcmp
  | udp p e => exact h.handleUdp
  | tcp p e => exact h.handleTcp
  | block p now memory => exact h.cons ⟨rfl, rfl⟩
  | event i e => exact h.event
  | monitor e => exact h.monitor
  | sweep e => exact h.unlink fun i s hs => checkSession_ok hs
  | allowed writeOk => exact h.unlink fun i s hs => stopSession_ok hs

/-! ## Runs -/

variable {ops : List NgOp}

theorem world_ok_of_run (h : Run ngStep (fun _ _ => True) World.init ops w) : w.Ok :=
  h.invariant' ⟨by simp [World.init], by simp [World.init]⟩ fun _ op hw _ => ngStep_ok hw op

/-- A registered session has its descriptor open, or has closed it once, or never had one. -/
theorem NgSession.Ok.holds_or_released (h : s.Ok) : HoldsFd s.socket s.io ∨ s.Released := by
  cases s with
  | icmp s => exact .inl h
  | udp s =>
      cases hs : s.state with
      | active => exact .inl (holds_of_udp_ok h (.inl hs))
      | finishing => exact .inl (holds_of_udp_ok h (.inr hs))
      | closed => exact .inr (released_of_udp_ok h (.inl hs))
      | blocked => exact .inr (released_of_udp_ok h (.inr hs))
  | tcp s =>
      obtain ⟨fd, hfd, ⟨rfl, hio⟩ | ⟨hs, hio⟩⟩ := Coherent.fds h
      · exact .inl ⟨hfd, hio⟩
      · exact .inr (.inl ⟨hs, fd, hfd, hio⟩)

/-- What the sweep makes of each session, and whether it is removed. -/
def World.checked (w : World) (e : Nat → CheckEnv) : List (NgSession × Bool) :=
  w.sessions.mapIdx fun i s => checkSession s (e i)

/-- The sweep frees the sessions for which the check says so, and keeps all others in their order. -/
theorem sweep_sessions (w : World) (e : Nat → CheckEnv) :
    (w.sweep e).sessions = ((w.checked e).filter (!·.2)).map (·.1) ∧
      (w.sweep e).freed = w.freed ++ ((w.checked e).filter (·.2)).map (·.1) := by
  simp only [World.sweep, unlink_eq, List.nil_append, Nat.zero_add]
  exact ⟨rfl, rfl⟩

/-- In every reachable list, state and descriptor of each session agree; a descriptor is closed at most once, and
exactly once before its session is freed; and the sweep keeps the order of the others. -/
theorem descriptors (h : Run ngStep (fun _ _ => True) World.init ops w) :
    (∀ s, .tcp s ∈ w.sessions →
      (s.state.isOpen = true → 0 ≤ s.socket) ∧ (s.state.isShut = true → s.socket = -1)) ∧
    (∀ s, .udp s ∈ w.sessions →
      (s.state = .active ∨ s.state = .finishing → 0 ≤ s.socket) ∧
        (s.state = .closed ∨ s.state = .blocked → s.socket = -1)) ∧
    (∀ s ∈ w.sessions, HoldsFd s.socket s.io ∨ s.Released) ∧
    (∀ s ∈ w.freed, s.Released) ∧
    ∀ e, (w.sweep e).sessions = ((w.checked e).filter (!·.2)).map (·.1) ∧
      (w.sweep e).freed = w.freed ++ ((w.checked e).filter (·.2)).map (·.1) ∧
      ∀ s ∈ (w.sweep e).freed, s.Released := by
  have hw := world_ok_of_run h
  refine ⟨fun s hs => ?_, fun s hs => ?_, fun s hs => (hw.sessions s hs).holds_or_released, hw.freed, fun e => ?_⟩
  · have hok : Coherent s := hw.sessions _ hs
    exact ⟨hok.open_socket, hok.shut_socket⟩
  · have hok := hw.sessions _ hs
    refine ⟨fun hlive => (holds_of_udp_ok hok hlive).1, fun hdone => ?_⟩
    rcases released_of_udp_ok hok hdone with hclosed | hnone
    · exact hclosed.1
    · exact hnone.1
  · obtain ⟨hsessions, hfreed⟩ := sweep_sessions w e
    exact ⟨hsessions, hfreed, (ngStep_ok hw (.sweep e)).freed⟩

def sampleUdp : UdpPkt :=
  { version := 4, saddr := [10, 1, 10, 1], daddr := [8, 8, 8, 8], source := 5000, dest := 53, data := [1, 2] }

/-- A connection and a DNS request time out, and both sessions are freed in the end. -/
def sampleOps : List NgOp :=
  [.tcp (sampleSyn 80) { socket := 5, buf := ⟨1, 0⟩ },
    .udp sampleUdp { socket := 6, sendto := { ret := 2, errno := .eagain } },
    .sweep fun _ => { now := 100 }, .sweep fun _ => { now := 1000 }]

theorem descriptors_freed :
    ((sampleOps.take 3).foldl ngStep World.init).sessions.length = 2 ∧
    ((sampleOps.foldl ngStep World.init).freed.map (·.io.filter Io.isFd)) =
      [[.open 6, .close 6], [.open 5, .close 5]] ∧
    ∀ s ∈ (sampleOps.foldl ngStep World.init).freed, s.Released :=
  ⟨by decide, by decide, (descriptors (Run.ofList ngStep World.init sampleOps)).2.2.2.1⟩

end TunProxy.Native
