import TunProxy.Native.Open
import TunProxy.Native.Theorems.Descriptors

/-!
# Descriptors of a run

The descriptors that are open belong to sessions, but for those of the set-ups that failed once `socket` had returned.
-/

namespace TunProxy.Native

open Lib

variable {w : World} {s s' : Process} {op : NgOp} {e : SetupEnv} {io : List Io} {fd : Int}

/-! ## Counting -/

def Io.fds : Io → Int
  | .open _ => 1
  | .close _ => -1
  | _ => 0

/-- How many of the descriptors opened by the calls are still open. -/
def openFds (io : List Io) : Int := (io.map Io.fds).sum

/-- All descriptors that are open: those of the sessions, registered or freed, and those of no session. -/
def Process.openFds (s : Process) : Int :=
  (s.world.sessions.map fun t => Native.openFds t.io).sum + (s.world.freed.map fun t => Native.openFds t.io).sum
    + Native.openFds s.world.io + Native.openFds s.failed

/-- The sessions that have a descriptor. -/
def Process.holders (s : Process) : Nat := s.world.sessions.countP fun t => 0 ≤ t.socket

/-- The set-up fails although `socket` has returned a descriptor. -/
def SetupEnv.Leaks (e : SetupEnv) : NgOp → Prop
  | .icmp p _ => 0 ≤ e.socket (family p.version) ∧ e.isProtected = false
  | .udp p _ => 0 ≤ e.socket (family p.version) ∧ e.isProtected = false
  | .tcp p _ =>
      0 ≤ e.socket (family (tcpTarget p.version p.daddr p.dest e.redirect).version) ∧
        (e.isProtected = false ∨ e.getfl < 0 ∨ e.setfl < 0 ∨
          e.connect (tcpTarget p.version p.daddr p.dest e.redirect) < 0 ∧ e.inProgress = false)
  | _ => False

/-- A step in which a socket is opened and the set-up fails after that. -/
def Process.Leaks (s : Process) : ProcOp → Prop
  | .loop op e => s.world.opens op = true ∧ e.Leaks op
  | .clear => False

theorem openFds_append (io io' : List Io) : openFds (io ++ io') = openFds io + openFds io' := by
  rw [openFds, List.map_append, List.sum_append]
  rfl

/-- Only the calls for descriptors count. -/
theorem openFds_filter (io : List Io) : openFds (io.filter Io.isFd) = openFds io := by
  induction io with
  | nil => rfl
  | cons c io ih =>
      have hcons : ∀ io, openFds (c :: io) = c.fds + openFds io := fun io => List.sum_cons
      by_cases hc : c.isFd = true
      · rw [List.filter_cons_of_pos hc, hcons, hcons, ih]
      · have hzero : c.fds = 0 := by
          cases c <;> first | rfl | exact absurd rfl hc
        rw [List.filter_cons_of_neg hc, hcons, ih, hzero, Int.zero_add]

theorem HoldsFd.openFds {socket : Int} (h : HoldsFd socket io) : Native.openFds io = 1 := by
  rw [← openFds_filter, h.2]
  rfl

theorem NgSession.Released.openFds {t : NgSession} (h : t.Released) : Native.openFds t.io = 0 ∧ t.socket = -1 := by
  obtain ⟨hs, fd, -, hio⟩ | ⟨hs, hio, -⟩ := h
  · refine ⟨?_, hs⟩
    rw [← openFds_filter, hio]
    rfl
  · refine ⟨?_, hs⟩
    rw [← openFds_filter, hio]
    rfl

/-- In a list of sessions that are right, the open descriptors are those that the sessions have. -/
theorem openFds_sessions {l : List NgSession} (h : ∀ t ∈ l, t.Ok) :
    (l.map fun t => openFds t.io).sum = l.countP fun t => 0 ≤ t.socket := by
  induction l with
  | nil => rfl
  | cons t l ih =>
      obtain ⟨ht, hl⟩ := List.forall_mem_cons.1 h
      rw [List.map_cons, List.sum_cons, ih hl]
      obtain hholds | hreleased := ht.holds_or_released
      · rw [List.countP_cons_of_pos (by simpa using hholds.1), hholds.openFds]
        omega
      · obtain ⟨hfds, hs⟩ := hreleased.openFds
        rw [List.countP_cons_of_neg (by simp [hs]), hfds]
        omega

theorem openFds_freed {l : List NgSession} (h : ∀ t ∈ l, t.Released) : (l.map fun t => openFds t.io).sum = 0 := by
  induction l with
  | nil => rfl
  | cons t l ih =>
      obtain ⟨ht, hl⟩ := List.forall_mem_cons.1 h
      rw [List.map_cons, List.sum_cons, ih hl, ht.openFds.1]
      rfl

/-! ## Set-ups -/

/-- The three ends of a set-up: it succeeds, fails in `socket`, or fails after it. -/
def SetupEnds (out : Int × List Io) (leaks : Prop) : Prop :=
  (∃ fd, 0 ≤ fd ∧ out = (fd, [.open fd]) ∧ ¬leaks) ∨ out = (-1, []) ∧ ¬leaks ∨
    (∃ sock, out = (-1, [.open sock])) ∧ leaks

/-- What follows `socket` fails or gives the descriptor. -/
theorem setupEnds_socket {sock : Int} {fails : Prop} [Decidable fails] :
    SetupEnds (if sock < 0 then (-1, []) else if fails then (-1, [.open sock]) else (sock, [.open sock]))
      (0 ≤ sock ∧ fails) := by
  by_cases hsock : sock < 0
  · rw [if_pos hsock]
    exact .inr (.inl ⟨rfl, fun h => absurd h.1 (Int.not_le.2 hsock)⟩)
  · rw [if_neg hsock]
    by_cases hfails : fails
    · rw [if_pos hfails]
      exact .inr (.inr ⟨⟨sock, rfl⟩, Int.not_lt.1 hsock, hfails⟩)
    · rw [if_neg hfails]
      exact .inl ⟨sock, Int.not_lt.1 hsock, rfl, fun h => hfails h.2⟩

theorem openIcmpSocket_ends (version : Nat) (e : SetupEnv) :
    SetupEnds (openIcmpSocket version e) (0 ≤ e.socket (family version) ∧ e.isProtected = false) := by
  simp only [openIcmpSocket, Bool.not_eq_true']
  exact setupEnds_socket

theorem openTcpSocket_ends (version : Nat) (daddr : Bytes) (dest : BitVec 16) (e : SetupEnv) :
    SetupEnds (openTcpSocket version daddr dest e)
      (0 ≤ e.socket (family (tcpTarget version daddr dest e.redirect).version) ∧
        (e.isProtected = false ∨ e.getfl < 0 ∨ e.setfl < 0 ∨
          e.connect (tcpTarget version daddr dest e.redirect) < 0 ∧ e.inProgress = false)) := by
  simp only [openTcpSocket, Bool.not_eq_true']
  rw [← ite_or, ← ite_or]
  simp only [or_assoc]
  exact setupEnds_socket

theorem openSocket_cases (e : SetupEnv) (op : NgOp) : SetupEnds (openSocket e op) (e.Leaks op) := by
  cases op with
  | icmp p h => exact openIcmpSocket_ends p.version e
  | udp p h => exact openIcmpSocket_ends p.version e
  | tcp p h => exact openTcpSocket_ends p.version p.daddr p.dest e
  | block p now memory => exact .inr (.inl ⟨rfl, id⟩)
  | event i h => exact .inr (.inl ⟨rfl, id⟩)
  | monitor h => exact .inr (.inl ⟨rfl, id⟩)
  | sweep h => exact .inr (.inl ⟨rfl, id⟩)
  | allowed h => exact .inr (.inl ⟨rfl, id⟩)

theorem unknown_of_opens (h : w.opens op) : ∀ t ∈ w.sessions, op.owns t = false := by
  intro t ht
  have hany : w.sessions.any op.owns = false := by simpa using (Bool.and_eq_true_iff.1 h).1
  exact Bool.eq_false_iff.2 fun hown => Bool.eq_false_iff.1 hany (List.any_eq_true.2 ⟨t, ht, hown⟩)

/-- A packet that opens a TCP socket is a SYN with options that can be decoded. -/
theorem opens_tcp {p : TcpPkt} {e : HandleEnv} (h : w.opens (.tcp p e)) : p.urg = false ∧ p.syn = true ∧
    ∃ mss ws, decodeOptions (memAt (p.options ++ p.data) e.heap) (p.options.length + 1) p.options.length 0
      (getDefaultMss p.version) 0 = some (mss, ws) := by
  obtain ⟨hhead, hopt⟩ := Bool.and_eq_true_iff.1 (Bool.and_eq_true_iff.1 h).2
  obtain ⟨hurg, hsyn⟩ := Bool.and_eq_true_iff.1 hhead
  obtain ⟨⟨mss, ws⟩, hopt⟩ := Option.isSome_iff_exists.1 hopt
  exact ⟨by simpa using hurg, hsyn, mss, ws, hopt⟩

theorem ngStep_failed (h : w.opens op) (hfd : fd < 0) : ngStep w (op.withSocket fd) = w := by
  have hunknown := unknown_of_opens h
  have hopens := h
  simp only [World.opens, Bool.and_eq_true] at h
  cases op with
  | icmp p e =>
      have hnew : handleIcmpNew p { e with socket := fd } = none := if_pos hfd
      simp only [NgOp.withSocket, ngStep, World.handleIcmp]
      rw [if_pos h.2, updateFirst_eq_none.2, hnew]
      intro t ht
      cases t with
      | icmp t => exact if_neg (Bool.eq_false_iff.1 (hunknown _ ht))
      | udp t => rfl
      | tcp t => rfl
  | udp p e =>
      have hnew : handleUdpNew p { e with socket := fd } = none := if_pos hfd
      simp only [NgOp.withSocket, ngStep, World.handleUdp]
      rw [updateFirst_eq_none.2, hnew]
      intro t ht
      cases t with
      | udp t => exact if_neg (Bool.eq_false_iff.1 (hunknown _ ht))
      | icmp t => rfl
      | tcp t => rfl
  | tcp p e =>
      obtain ⟨hurg, hsyn, mss, ws, hopt⟩ := opens_tcp hopens
      have hnew : handleTcpNew p { e with socket := fd } = none := by
        rw [handleTcpNew, if_neg (by simp [hurg]), if_pos hsyn]
        simp only [hopt]
        exact if_pos hfd
      simp only [NgOp.withSocket, ngStep, World.handleTcp]
      rw [updateFirst_eq_none.2, hnew]
      · exact if_pos (.inr hsyn)
      · intro t ht
        cases t with
        | tcp t => exact if_neg (Bool.eq_false_iff.1 (hunknown _ ht))
        | icmp t => rfl
        | udp t => rfl
  | block p now memory => exact absurd h.2 Bool.false_ne_true
  | event i e => exact absurd h.2 Bool.false_ne_true
  | monitor e => exact absurd h.2 Bool.false_ne_true
  | sweep e => exact absurd h.2 Bool.false_ne_true
  | allowed writeOk => exact absurd h.2 Bool.false_ne_true

/-- A set-up that succeeds ends up in a session that has the descriptor. -/
theorem ngStep_registered (h : w.opens op) (hfd : 0 ≤ fd) :
    ∃ t, (ngStep w (op.withSocket fd)).sessions = t :: w.sessions ∧ t.socket = fd := by
  have hunknown := unknown_of_opens h
  have hopens := h
  simp only [World.opens, Bool.and_eq_true] at h
  have hneg : ¬fd < 0 := Int.not_lt.2 hfd
  cases op with
  | icmp p e =>
      have hnew : handleIcmpNew p { e with socket := fd } = some _ := if_neg hneg
      refine ⟨_, ngStep_opens (.icmp h.2 hnew) fun t ht => hunknown _ ht, ?_⟩
      simp only [NgSession.socket, handleIcmp]
      split
      · rfl
      · rfl
  | udp p e =>
      have hnew : handleUdpNew p { e with socket := fd } = some _ := if_neg hneg
      exact ⟨_, ngStep_opens (.udp hnew) fun t ht => hunknown _ ht, handleUdp_socket _ _ _⟩
  | tcp p e =>
      obtain ⟨hurg, hsyn, mss, ws, hopt⟩ := opens_tcp hopens
      have hnew : handleTcpNew p { e with socket := fd } = some
          { synSession p { e with socket := fd } mss ws with
            recvWindow := getReceiveWindow (synSession p { e with socket := fd } mss ws) e.buf } := by
        rw [handleTcpNew, if_neg (by simp [hurg]), if_pos hsyn]
        simp only [hopt]
        exact if_neg hneg
      exact ⟨_, ngStep_opens (.tcp hnew) fun t ht => hunknown _ ht, rfl⟩
  | block p now memory => exact absurd h.2 Bool.false_ne_true
  | event i e => exact absurd h.2 Bool.false_ne_true
  | monitor e => exact absurd h.2 Bool.false_ne_true
  | sweep e => exact absurd h.2 Bool.false_ne_true
  | allowed writeOk => exact absurd h.2 Bool.false_ne_true

/-! ## One step -/

/-- The calls made for no session open nothing. -/
theorem ngStep_io (w : World) (op : NgOp) : openFds (ngStep w op).io = openFds w.io := by
  cases op with
  | icmp p e =>
      simp only [ngStep, World.handleIcmp]
      split
      · split
        · rfl
        · split
          · rfl
          · rfl
      · rfl
  | udp p e =>
      simp only [ngStep, World.handleUdp]
      split
      · rfl
      · split
        · rfl
        · rfl
  | tcp p e =>
      simp only [ngStep, World.handleTcp]
      split
      · rfl
      · split
        · rfl
        · split
          · rfl
          · rw [openFds_append]
            exact Int.add_zero _
  | block p now memory => rfl
  | event i e => rfl
  | monitor e => rfl
  | sweep e => rfl
  | allowed writeOk => rfl

theorem clear_released {t : NgSession} (h : t.Ok) : t.clear.Released := by
  unfold NgSession.clear
  obtain hholds | hreleased := h.holds_or_released
  · have hclosed := hholds.close
    rw [if_neg (by have := hholds.1; omega)]
    cases t with
    | icmp t => exact .inl hclosed
    | udp t => exact .inl hclosed
    | tcp t => exact .inl hclosed
  · rw [if_pos (by rw [hreleased.openFds.2]; decide)]
    exact hreleased

structure Process.Ok (s : Process) : Prop where
  world : s.world.Ok
  io : Native.openFds s.world.io = 0

theorem Process.Ok.openFds (h : s.Ok) : s.openFds = s.holders + Native.openFds s.failed := by
  rw [Process.openFds, openFds_sessions h.world.sessions, openFds_freed h.world.freed, h.io, Int.add_zero, Int.add_zero]
  rfl

theorem procStep_ok (h : s.Ok) (op : ProcOp) : (procStep s op).Ok := by
  cases op with
  | loop op e =>
      simp only [procStep]
      split
      · exact ⟨ngStep_ok h.world _, (ngStep_io _ _).trans h.io⟩
      · exact ⟨ngStep_ok h.world _, (ngStep_io _ _).trans h.io⟩
  | clear =>
      refine ⟨⟨List.forall_mem_nil _, ?_⟩, h.io⟩
      intro t ht
      obtain ht | ht := List.mem_append.1 ht
      · exact h.world.freed t ht
      · obtain ⟨t, hmem, rfl⟩ := List.mem_map.1 ht
        exact clear_released (h.world.sessions t hmem)

/-- A step leaves one more descriptor to no session where its set-up fails after `socket`, and else none. -/
theorem procStep_failed (s : Process) (op : ProcOp) :
    (s.Leaks op ∧ openFds (procStep s op).failed = openFds s.failed + 1) ∨
      (¬s.Leaks op ∧ openFds (procStep s op).failed = openFds s.failed) := by
  cases op with
  | loop op e =>
      simp only [procStep, Process.Leaks]
      by_cases ho : s.world.opens op = true
      · rw [if_pos ho]
        obtain ⟨fd, hfd, heq, hno⟩ | ⟨heq, hno⟩ | ⟨⟨sock, heq⟩, hleak⟩ := openSocket_cases e op
        · refine .inr ⟨fun h => hno h.2, ?_⟩
          simp only [heq]
          rw [if_neg (by omega)]
        · refine .inr ⟨fun h => hno h.2, ?_⟩
          simp only [heq]
          rw [if_pos (by decide), List.append_nil]
        · refine .inl ⟨⟨ho, hleak⟩, ?_⟩
          simp only [heq]
          rw [if_pos (by decide), openFds_append]
          rfl
      · rw [if_neg ho]
        exact .inr ⟨fun h => ho h.1, rfl⟩
  | clear => exact .inr ⟨id, rfl⟩

/-! ## Runs -/

variable {ops : List ProcOp}

theorem process_ok_of_run (h : Run procStep (fun _ _ => True) Process.init ops s) : s.Ok :=
  h.invariant' ⟨⟨by simp [Process.init, World.init], by simp [Process.init, World.init]⟩, rfl⟩
    fun _ op hs _ => procStep_ok hs op

theorem failed_nonneg (h : Run procStep (fun _ _ => True) Process.init ops s) : 0 ≤ openFds s.failed := by
  refine h.invariant' (I := fun s => 0 ≤ openFds s.failed) (by decide) fun s op hs _ => ?_
  obtain ⟨-, heq⟩ | ⟨-, heq⟩ := procStep_failed s op
  · omega
  · omega

/-- Nothing is left to no session exactly where no step has leaked. -/
theorem failed_eq_zero_iff (h : Run procStep (fun _ _ => True) Process.init ops s) :
    openFds s.failed = 0 ↔ Run procStep (fun s op => ¬s.Leaks op) Process.init ops s := by
  constructor
  · intro hzero
    induction h with
    | nil => exact .nil
    | @snoc is s op h _ ih =>
        have hnonneg := failed_nonneg h
        obtain ⟨-, heq⟩ | ⟨hno, heq⟩ := procStep_failed s op
        · omega
        · exact .snoc (ih (by omega)) hno
  · intro h
    refine h.invariant' (I := fun s => openFds s.failed = 0) rfl fun s op hs hno => ?_
    obtain ⟨hleak, -⟩ | ⟨-, heq⟩ := procStep_failed s op
    · exact absurd hleak hno
    · omega

/-- Over a run, the open descriptors are as many as the sessions that have one exactly where no set-up fails once
`socket` has returned. A set-up that fails leaves the sessions alone, and nothing open unless it fails there. -/
theorem descriptors_conserved_iff (h : Run procStep (fun _ _ => True) Process.init ops s) :
    (s.openFds = s.holders ↔ Run procStep (fun s op => ¬s.Leaks op) Process.init ops s) ∧
    ∀ op e, s.world.opens op = true → (openSocket e op).1 < 0 →
      (procStep s (.loop op e)).world = s.world ∧ (openFds (openSocket e op).2 = 0 ↔ ¬e.Leaks op) := by
  refine ⟨?_, fun op e ho hfd => ⟨?_, ?_⟩⟩
  · rw [(process_ok_of_run h).openFds, ← failed_eq_zero_iff h]
    omega
  · simp only [procStep]
    rw [if_pos ho]
    exact ngStep_failed ho hfd
  · obtain ⟨fd, hpos, heq, -⟩ | ⟨heq, hno⟩ | ⟨⟨sock, heq⟩, hleak⟩ := openSocket_cases e op
    · rw [heq] at hfd
      omega
    · rw [heq]
      exact iff_of_true rfl hno
    · rw [heq]
      exact iff_of_false (fun hzero => absurd hzero Int.one_ne_zero) (not_not.2 hleak)

/-- A service that protects no socket. -/
def unprotected : SetupEnv :=
  { redirect := ⟨[], 0⟩, socket := fun _ => 7, isProtected := false, getfl := 0, setfl := 0, connect := fun _ => 0,
    inProgress := false }

/-- Where the service protects the socket of a datagram, all open descriptors are those of sessions. -/
theorem descriptors_conserved_iff_unprotected :
    ((procStep .init (.loop (.udp sampleUdp {}) unprotected)).openFds
        = (procStep .init (.loop (.udp sampleUdp {}) unprotected)).holders ↔
      Run procStep (fun s op => ¬s.Leaks op) Process.init [.loop (.udp sampleUdp {}) unprotected]
        (procStep .init (.loop (.udp sampleUdp {}) unprotected))) ∧
    (procStep .init (.loop (.udp sampleUdp {}) { unprotected with isProtected := true })).openFds
        = (procStep .init (.loop (.udp sampleUdp {}) { unprotected with isProtected := true })).holders ∧
    ∀ op e, (procStep .init (.loop (.udp sampleUdp {}) unprotected)).world.opens op = true → (openSocket e op).1 < 0 →
      (procStep (procStep .init (.loop (.udp sampleUdp {}) unprotected)) (.loop op e)).world
          = (procStep .init (.loop (.udp sampleUdp {}) unprotected)).world ∧
        (openFds (openSocket e op).2 = 0 ↔ ¬e.Leaks op) := by
  obtain ⟨hiff, hfailed⟩ :=
    descriptors_conserved_iff (Run.ofList procStep .init [.loop (.udp sampleUdp {}) unprotected])
  have hopen : Run procStep (fun s op => ¬s.Leaks op) Process.init
      [.loop (.udp sampleUdp {}) { unprotected with isProtected := true }]
      (procStep .init (.loop (.udp sampleUdp {}) { unprotected with isProtected := true })) :=
    Run.ofAllOk ⟨fun h => absurd h.2.2 (by decide), trivial⟩
  exact ⟨hiff, (descriptors_conserved_iff (hopen.mono fun _ _ _ => trivial)).1.2 hopen, hfailed⟩

theorem descriptors_not_conserved :
    ¬∀ ops s, Run procStep (fun _ _ => True) Process.init ops s → s.openFds = s.holders := by
  intro h
  have hrun := h _ _ (Run.ofList procStep .init [.loop (.udp sampleUdp {}) unprotected])
  exact absurd hrun (by decide)

end TunProxy.Native
