import TunProxy.Native.Lemmas.Watched

/-!
# The thread does what the loop does

One lemma for each step: where the thread has the sessions of the loop, at some addresses, it has those of the loop
after the step.
-/

namespace TunProxy.Native

open Lib Lib.Linked

variable {t t' : Thread} {l : Loop} {cells cells' l₁ l₂ : List (Nat × NgSession)} {a : Nat} {s s' : NgSession}

/-- The loop is in a state that a run leads to. -/
def Loop.Reached (l : Loop) : Prop := ∃ ops, Run loopStep (fun _ _ => True) Loop.init ops l

theorem Loop.Reached.step (h : l.Reached) (op : LoopOp) : (loopStep l op).Reached := by
  obtain ⟨ops, hrun⟩ := h
  exact ⟨_, hrun.snoc trivial⟩

/-- The sessions registered in the loop are not blocked. -/
theorem Opens.notBlocked {op : NgOp} (ho : Opens op s) (hop : op.FromTun) : s.isBlocked = false := by
  cases ho with
  | icmp he h => rfl
  | tcp h => rfl
  | block => exact False.elim hop
  | @udp p e s h =>
      have hnew := (handleUdpNew_ok h).2
      have hfollows := (handleUdp_follows s p e).blocked
      simpa [NgSession.isBlocked, hnew] using hfollows

/-- The list of sessions is one that a run of the handlers leads to. -/
def World.Reached (w : World) : Prop := ∃ ops, WorldRun World.init ops w

theorem Loop.Reached.world (h : l.Reached) : l.world.Reached := by
  obtain ⟨ops, hrun⟩ := h
  exact loop_run hrun

theorem World.Reached.step {w : World} (op : NgOp) (h : w.Reached) (hop : op.FromTun) : (ngStep w op).Reached := by
  obtain ⟨ops, hrun⟩ := h
  exact ⟨_, hrun.snoc hop⟩

theorem World.Reached.sound {w : World} (h : w.Reached) : ∀ s ∈ w.sessions, s.Ok ∧ s.isBlocked = false := by
  obtain ⟨ngOps, hng⟩ := h
  have hok := world_ok_of_run (hng.mono fun _ _ _ => trivial)
  have hblocked := forall_of_run (I := fun s => s.isBlocked = false) (fun _ _ hop ho => ho.notBlocked hop)
    (fun op s s' _ hc hs => by
      cases hb : s'.isBlocked with
      | false => rfl
      | true => simp [hc.follows.blocked hb] at hs) hng
  exact fun s hs => ⟨hok.sessions s hs, hblocked s hs⟩

/-- The thread has these sessions, and its list and variables are those of the loop. -/
structure Represents (t : Thread) (cells : List (Nat × NgSession)) (l : Loop) : Prop where
  holds : Holds t.heap t.ngSession cells
  sessions : cells.map Prod.snd = l.world.sessions
  io : t.io = l.world.io
  maxsessions : t.maxsessions = l.maxsessions
  counted : t.sessions = l.sessions
  lastCheck : t.lastCheck = l.lastCheck

theorem Represents.sound (h : Represents t cells l) (hl : l.world.Reached) {x : Nat × NgSession} (hx : x ∈ cells) :
    x.2.Ok ∧ x.2.isBlocked = false := by
  refine hl.sound x.2 ?_
  rw [← h.sessions]
  exact List.mem_map_of_mem hx

/-! ## One session -/

theorem find_cells (h : Holds t.heap t.ngSession cells) (test : NgSession → Bool) :
    t.find test = some ((cells.find? (test ·.2)).map Prod.fst) := find_eq h.seg h.seg.length_lt

/-- The session that a search finds, between the others. -/
theorem find?_cells {test : NgSession → Bool} (h : cells.find? (test ·.2) = some (a, s)) :
    ∃ l₁ l₂, cells = l₁ ++ (a, s) :: l₂ ∧ test s = true ∧ ∀ x ∈ l₁, test x.2 = false := by
  obtain ⟨htest, l₁, l₂, rfl, hl₁⟩ := List.find?_eq_some_iff_append.1 h
  exact ⟨l₁, l₂, rfl, htest, fun x hx => by simpa using hl₁ x hx⟩

theorem modify_eq (handle : NgSession → NgSession) (h : Holds t.heap t.ngSession (l₁ ++ (a, s) :: l₂)) :
    ∃ heap, t.modify a handle =
        some { t with heap, interest := watch t.interest ((handle s).callsSince s) } ∧
      Holds heap t.ngSession (l₁ ++ (a, handle s) :: l₂) := by
  obtain ⟨n, hn⟩ := h.seg.lookup (a := a) (v := s) (by simp)
  refine ⟨t.heap.insert a ⟨handle s, n⟩, ?_, h.set hn⟩
  simp only [Thread.modify, hn]

/-- The loop with other sessions. -/
def Loop.withSessions (l : Loop) (sessions : List NgSession) : Loop := { l with world := { l.world with sessions } }

/-- A call leaves the variables that the loop has too as they are. -/
structure SameVars (t t' : Thread) : Prop where
  io : t'.io = t.io
  maxsessions : t'.maxsessions = t.maxsessions
  counted : t'.sessions = t.sessions
  lastCheck : t'.lastCheck = t.lastCheck

theorem Represents.withSessions (h : Represents t cells l) (hk : SameVars t t')
    (hh : Holds t'.heap t'.ngSession cells') : Represents t' cells' (l.withSessions (cells'.map Prod.snd)) :=
  { holds := hh
    sessions := rfl
    io := hk.io.trans h.io
    maxsessions := hk.maxsessions.trans h.maxsessions
    counted := hk.counted.trans h.counted
    lastCheck := hk.lastCheck.trans h.lastCheck }

/-- What is left of the set after a call that closes no socket. -/
theorem watch_kept {interest : List (Int × Nat)} (hf : FdCase s s') (hs : s'.socket = s.socket) :
    watch interest (s'.callsSince s) = interest := by
  cases hf with
  | kept hsocket hcalls =>
      refine List.filter_eq_self.2 fun x _ => ?_
      simpa using hcalls x.1
  | closed ho hsocket hcalls => omega

/-- The thread after a call that closes no socket; `added` says whether a new socket is in the set. -/
structure After (added : Bool) (t : Thread) (cells : List (Nat × NgSession)) (t' : Thread)
    (cells' : List (Nat × NgSession)) (l : Loop) : Prop where
  ready : t'.ready = t.ready
  stage : t'.stage = t.stage
  lastCheck : t'.lastCheck = t.lastCheck
  interest : t.interest ⊆ t'.interest
  rep : Represents t' cells' l
  watched : Watched t'.interest cells'
  covers : added = true → Covers t.interest cells → Covers t'.interest cells'

theorem After.refl {added : Bool} (h : Represents t cells l) (hw : Watched t.interest cells) :
    After added t cells t cells l :=
  ⟨rfl, rfl, rfl, List.Subset.refl _, h, hw, fun _ hc => hc⟩

theorem After.trans {added : Bool} {t₁ t₂ t₃ : Thread} {cells₁ cells₂ cells₃ : List (Nat × NgSession)} {l' : Loop}
    (h : After added t₁ cells₁ t₂ cells₂ l) (h' : After added t₂ cells₂ t₃ cells₃ l') :
    After added t₁ cells₁ t₃ cells₃ l' where
  ready := h'.ready.trans h.ready
  stage := h'.stage.trans h.stage
  lastCheck := h'.lastCheck.trans h.lastCheck
  interest := List.Subset.trans h.interest h'.interest
  rep := h'.rep
  watched := h'.watched
  covers := fun ha hc => h'.covers ha (h.covers ha hc)

theorem Follows.fdCase (hc : Follows s s') (hs : s.Ok ∧ s.isBlocked = false) (hs' : s'.Ok ∨ s'.Released) :
    FdCase s s' := by
  have hblocked : s'.isBlocked = false := by
    cases hb : s'.isBlocked with
    | false => rfl
    | true => simp [hc.blocked hb] at hs
  refine Native.fdCase (hs.1.sound hs.2) ?_ hc.io
  rcases hs' with hs' | hs'
  · exact hs'.sound hblocked
  · exact hs'.sound hblocked

/-- A handler that keeps the socket of the session at `a`. -/
theorem modify_after (added : Bool) {handle : NgSession → NgSession} (h : Represents t (l₁ ++ (a, s) :: l₂) l)
    (hw : Watched t.interest (l₁ ++ (a, s) :: l₂)) (hf : FdCase s (handle s)) (hs : (handle s).socket = s.socket) :
    ∃ t', t.modify a handle = some t' ∧
      After added t (l₁ ++ (a, s) :: l₂) t' (l₁ ++ (a, handle s) :: l₂)
        (l.withSessions ((l₁ ++ (a, handle s) :: l₂).map Prod.snd)) := by
  obtain ⟨heap, hmod, hh⟩ := modify_eq handle h.holds
  have hcall := hw.call hf
  have hcover := fun hi : Covers t.interest (l₁ ++ (a, s) :: l₂) => hi.call hw hf
  rw [watch_kept hf hs] at hmod hcall hcover
  have hsame : SameVars t { t with heap } := ⟨rfl, rfl, rfl, rfl⟩
  have hrep := h.withSessions hsame hh
  exact ⟨{ t with heap }, hmod, rfl, rfl, rfl, List.Subset.refl _, hrep, hcall, fun _ => hcover⟩

/-- A session is registered. -/
theorem register_after {b : Block} (h : Represents t cells l) (hw : Watched t.interest cells)
    (hb : t.heap.lookup b.addr = none) (ho : 0 ≤ s.socket) (hu : t.Unused s.socket) :
    After b.added t cells (t.register s b) ((b.addr, s) :: cells) (l.withSessions (s :: l.world.sessions)) := by
  have hnew : ∀ x ∈ cells, x.2.socket ≠ s.socket := by
    intro x hx
    obtain ⟨n, hn⟩ := h.holds.seg.lookup (a := x.1) (v := x.2) hx
    exact hu x.1 _ hn ho
  have hsame : SameVars t (t.register s b) := ⟨rfl, rfl, rfl, rfl⟩
  have hrep := h.withSessions hsame (h.holds.push (v := s) hb)
  rw [List.map_cons, h.sessions] at hrep
  refine ⟨rfl, rfl, rfl, ?_, hrep, hw.register b.added ho hnew, fun hadded hc x hx hox => ?_⟩
  · simp only [Thread.register]
    split
    · exact List.subset_cons_self _ _
    · exact List.Subset.refl _
  · simp only [Thread.register, hadded, if_true]
    rcases List.mem_cons.1 hx with rfl | hx
    · exact List.mem_cons_self
    · exact List.mem_cons_of_mem _ (hc x hx hox)

/-- A session is registered, and given to its handler. -/
theorem register_modify_after {b : Block} {handle : NgSession → NgSession} (h : Represents t cells l)
    (hw : Watched t.interest cells) (hb : t.heap.lookup b.addr = none) (ho : 0 ≤ s.socket) (hu : t.Unused s.socket)
    (hf : FdCase s (handle s)) (hs : (handle s).socket = s.socket) :
    ∃ t' cells', (t.register s b).modify b.addr handle = some t' ∧
      After b.added t cells t' cells' (l.withSessions (handle s :: l.world.sessions)) := by
  have hreg := register_after h hw hb ho hu
  rw [← List.nil_append ((b.addr, s) :: cells)] at hreg
  obtain ⟨t', hmod, hafter⟩ := modify_after b.added hreg.rep hreg.watched hf hs
  rw [List.nil_append, List.nil_append, List.map_cons, h.sessions] at hafter
  exact ⟨t', _, hmod, hreg.trans hafter⟩

/-! ## Packets -/

section Packets

variable {belongs : NgSession → Bool} {handle : NgSession → NgSession} {lookup : NgSession → Option NgSession}
  {added : Bool}

/-- The search of a handler in memory and that in the list. -/
theorem search_after (added : Bool) (hlookup : ∀ s, lookup s = if belongs s then some (handle s) else none)
    (h : Represents t cells l) (hw : Watched t.interest cells)
    (hf : ∀ x ∈ cells, belongs x.2 = true → FdCase x.2 (handle x.2) ∧ (handle x.2).socket = x.2.socket) :
    (∃ a t' cells' sessions, t.find belongs = some (some a) ∧ t.modify a handle = some t' ∧
        updateFirst lookup l.world.sessions = some sessions ∧
        After added t cells t' cells' (l.withSessions sessions)) ∨
      t.find belongs = some none ∧ updateFirst lookup l.world.sessions = none := by
  rw [find_cells h.holds, ← h.sessions]
  cases hfind : cells.find? (belongs ·.2) with
  | none =>
      refine .inr ⟨rfl, updateFirst_eq_none.2 fun s hs => ?_⟩
      obtain ⟨x, hx, rfl⟩ := List.mem_map.1 hs
      have hno := List.find?_eq_none.1 hfind x hx
      simp [hlookup, hno]
  | some x =>
      obtain ⟨a, s⟩ := x
      obtain ⟨l₁, l₂, rfl, htest, hl₁⟩ := find?_cells hfind
      obtain ⟨hfd, hsocket⟩ := hf (a, s) (by simp) htest
      obtain ⟨t', hmod, hafter⟩ := modify_after added h hw hfd hsocket
      refine .inl ⟨a, t', _, _, rfl, hmod, ?_, hafter⟩
      rw [List.map_append, List.map_cons, List.map_append, List.map_cons]
      refine updateFirst_append (fun u hu => ?_) (by simp [hlookup, htest])
      obtain ⟨x, hx, rfl⟩ := List.mem_map.1 hu
      simp [hlookup, hl₁ x hx]

theorem handleIcmpNew_socket {p : IcmpPkt} {e : IcmpEnv} {u : IcmpSession} (h : handleIcmpNew p e = some u) :
    u.socket = e.socket := by
  unfold handleIcmpNew at h
  split at h
  · cases h
  · cases h
    rfl

theorem socket_handleIcmp (u : IcmpSession) (p : IcmpPkt) (e : IcmpEnv) : (handleIcmp u p e).socket = u.socket := by
  simp only [handleIcmp]
  split
  · rfl
  · rfl

theorem handleIcmp_after {p : IcmpPkt} {e : IcmpEnv} {b : Block} (h : Represents t cells l) (hl : l.Reached)
    (hw : Watched t.interest cells) (hb : t.heap.lookup b.addr = none) (hu : t.Unused e.socket) :
    ∃ t' cells', t.handleIcmp p e b = some t' ∧
      After b.added t cells t' cells' { l with world := l.world.handleIcmp p e } := by
  unfold Thread.handleIcmp World.handleIcmp
  extract_lets belongs handle lookup
  have hlookup : ∀ s, lookup s = if belongs s then some (handle s) else none := by
    intro s
    cases s <;> simp [lookup, belongs, handle]
  have hfollows : ∀ u : IcmpSession, Follows (.icmp u) (handle (.icmp u)) :=
    fun u => ⟨handleIcmp_io_extends u p e, id⟩
  have hf : ∀ x ∈ cells, belongs x.2 = true → FdCase x.2 (handle x.2) ∧ (handle x.2).socket = x.2.socket := by
    rintro ⟨a, s⟩ hx hbelongs
    have hsound := h.sound hl.world hx
    cases s with
    | icmp u => exact ⟨(hfollows u).fdCase hsound (.inl (handleIcmp_ok hsound.1)), socket_handleIcmp u p e⟩
    | udp u => cases hbelongs
    | tcp u => cases hbelongs
  by_cases he : p.isEcho = true
  · simp only [he, if_true]
    rcases search_after b.added hlookup h hw hf with
      ⟨a, t', cells', sessions, hfind, hmod, hupdate, hafter⟩ | ⟨hfind, hupdate⟩
    · simp only [hfind, hupdate]
      exact ⟨t', cells', hmod, hafter⟩
    · simp only [hfind, hupdate]
      cases hnew : handleIcmpNew p e with
      | none => exact ⟨t, cells, rfl, .refl h hw⟩
      | some u =>
          have hok : (NgSession.icmp u).Ok := handleIcmpNew_ok hnew
          have hsocket := handleIcmpNew_socket hnew
          refine register_modify_after h hw hb hok.1 ?_ ?_ (socket_handleIcmp u p e)
          · rw [NgSession.socket, hsocket]
            exact hu
          · exact (hfollows u).fdCase ⟨hok, rfl⟩ (.inl (handleIcmp_ok hok))
  · simp only [he]
    exact ⟨t, cells, rfl, .refl h hw⟩

theorem handleUdpNew_socket {p : UdpPkt} {e : UdpEnv} {u : UdpSession} (h : handleUdpNew p e = some u) :
    u.socket = e.socket := by
  unfold handleUdpNew at h
  split at h
  · cases h
  · cases h
    rfl

/-- Where nothing is written behind a block, the memory is changed as by any other handler. -/
theorem modifyWithin_eq {handle : NgSession → NgSession} (h : t.modifyWithin a handle ≠ none ∨
    ∀ s, ((handle s).callsSince s).any Io.leavesBlock = false) : t.modifyWithin a handle = t.modify a handle := by
  unfold Thread.modifyWithin at h ⊢
  cases hlookup : t.heap.lookup a with
  | none => simp only [Thread.modify, hlookup]
  | some node =>
      simp only [hlookup] at h ⊢
      split
      · rename_i hleaves
        rcases h with h | h
        · exact absurd (if_pos hleaves) h
        · rw [h node.val] at hleaves
          cases hleaves
      · rfl

/-- `handle_udp` in memory and on the list, unless the answer to a DHCP request is written behind its block. -/
theorem handleUdp_after {p : UdpPkt} {e : UdpEnv} {b : Block} (h : Represents t cells l) (hl : l.Reached)
    (hw : Watched t.interest cells) (hb : t.heap.lookup b.addr = none) (hu : t.Unused e.socket)
    (hin : p.isDhcpRequest = true → t.handleUdp p e b ≠ none) :
    ∃ t' cells', t.handleUdp p e b = some t' ∧
      After b.added t cells t' cells' { l with world := l.world.handleUdp p e } := by
  revert hin
  unfold Thread.handleUdp World.handleUdp
  extract_lets belongs handle lookup
  intro hin
  have hwithin : p.isDhcpRequest = true ∨ ∀ s, ((handle s).callsSince s).any Io.leavesBlock = false := by
    cases hp : p.isDhcpRequest with
    | true => exact .inl rfl
    | false =>
        refine .inr fun s => ?_
        cases s with
        | udp u =>
            obtain ⟨-, calls, hio, hcalls⟩ := handleUdp_within (s := u) (e := e) fun _ _ => hp
            simpa [handle, NgSession.callsSince, NgSession.io, hio] using hcalls
        | icmp u => simp [handle, NgSession.callsSince]
        | tcp u => simp [handle, NgSession.callsSince]
  have hlookup : ∀ s, lookup s = if belongs s then some (handle s) else none := by
    intro s
    cases s <;> simp [lookup, belongs, handle]
  have hfollows : ∀ u : UdpSession, Follows (.udp u) (handle (.udp u)) := fun u => (handleUdp_follows u p e).follows
  have hf : ∀ x ∈ cells, belongs x.2 = true → FdCase x.2 (handle x.2) ∧ (handle x.2).socket = x.2.socket := by
    rintro ⟨a, s⟩ hx hbelongs
    have hsound := h.sound hl.world hx
    cases s with
    | udp u => exact ⟨(hfollows u).fdCase hsound (.inl (handleUdp_ok hsound.1)), handleUdp_socket u p e⟩
    | icmp u => cases hbelongs
    | tcp u => cases hbelongs
  rcases search_after b.added hlookup h hw hf with
    ⟨a, t', cells', sessions, hfind, hmod, hupdate, hafter⟩ | ⟨hfind, hupdate⟩
  · simp only [hfind, hupdate] at hin ⊢
    rw [modifyWithin_eq (hwithin.imp_left hin)]
    exact ⟨t', cells', hmod, hafter⟩
  · simp only [hfind, hupdate] at hin ⊢
    cases hnew : handleUdpNew p e with
    | none => exact ⟨t, cells, rfl, .refl h hw⟩
    | some u =>
        simp only [hnew] at hin ⊢
        rw [modifyWithin_eq (hwithin.imp_left hin)]
        obtain ⟨hholds, hactive⟩ := handleUdpNew_ok hnew
        have hok := udp_ok_of_holds hholds (.inl hactive)
        have hsocket := handleUdpNew_socket hnew
        refine register_modify_after h hw hb hholds.1 ?_ ?_ (handleUdp_socket u p e)
        · rw [NgSession.socket, hsocket]
          exact hu
        · exact (hfollows u).fdCase ⟨hok, by simp [NgSession.isBlocked, hactive]⟩ (.inl (handleUdp_ok hok))

/-- No packet closes the socket of a TCP session. -/
theorem socket_handleTcp {u : TcpSession} {p : TcpPkt} (e : HandleEnv) (hb : p.belongs u = true) :
    (handleTcp u p e).socket = u.socket := by
  obtain ⟨ph, hs⟩ := tcpStep_invariant (.packet p e) (s := u) (I := fun x => x.2.socket = u.socket) rfl
    fun x y hx hm => by
      refine Eq.trans ?_ hx
      cases hm with
      | rst ok hl => rw [writeRst_eq]
      | early hop hu hd hn hq => rw [queueTcp_eq]
      | queue hop ht hdata hs hw hq => rw [queueTcp_eq]
      | eof hop ho hs hf ok => cases hop
      | eofQueued hop ho hs hf ok => cases hop
      | close hop hs => cases hop
      | _ => rfl
  rw [tcpStep_packet hb] at hs
  exact hs

theorem handleTcpNew_socket {p : TcpPkt} {e : HandleEnv} {u : TcpSession} (h : handleTcpNew p e = some u) :
    u.socket = e.socket ∧ 0 ≤ u.socket := by
  unfold handleTcpNew at h
  split at h
  · cases h
  · split at h
    · simp only [] at h
      split at h
      · cases h
      · split at h
        · cases h
        · rename_i ho
          cases h
          exact ⟨rfl, by simpa [synSession] using ho⟩
    · cases h

theorem handleTcp_after {p : TcpPkt} {e : HandleEnv} {b : Block} (h : Represents t cells l) (hl : l.Reached)
    (hw : Watched t.interest cells) (hb : t.heap.lookup b.addr = none) (hu : t.Unused e.socket) :
    ∃ t' cells', t.handleTcp p e b = some t' ∧
      After b.added t cells t' cells' { l with world := l.world.handleTcp p e } := by
  unfold Thread.handleTcp World.handleTcp
  extract_lets belongs handle lookup
  have hlookup : ∀ s, lookup s = if belongs s then some (handle s) else none := by
    intro s
    cases s with
    | tcp u =>
        by_cases hbelongs : p.belongs u = true
        · simp [lookup, belongs, handle, hbelongs, tcpStep]
        · simp [lookup, belongs, hbelongs]
    | icmp u => rfl
    | udp u => rfl
  have hf : ∀ x ∈ cells, belongs x.2 = true → FdCase x.2 (handle x.2) ∧ (handle x.2).socket = x.2.socket := by
    rintro ⟨a, s⟩ hx hbelongs
    have hsound := h.sound hl.world hx
    cases s with
    | tcp u =>
        have hfollows : Follows (.tcp u) (handle (.tcp u)) := by
          have hio := tcpStep_io_extends u (.packet p e)
          rw [tcpStep_packet hbelongs] at hio
          exact ⟨hio, id⟩
        have hok : Coherent (Native.handleTcp u p e) := by
          have hok := tcpStep_coherent hsound.1 (.packet p e)
          rw [tcpStep_packet hbelongs] at hok
          exact hok
        exact ⟨hfollows.fdCase hsound (.inl hok), socket_handleTcp e hbelongs⟩
    | icmp u => cases hbelongs
    | udp u => cases hbelongs
  rcases search_after b.added hlookup h hw hf with
    ⟨a, t', cells', sessions, hfind, hmod, hupdate, hafter⟩ | ⟨hfind, hupdate⟩
  · simp only [hfind, hupdate]
    exact ⟨t', cells', hmod, hafter⟩
  · simp only [hfind, hupdate]
    cases hnew : handleTcpNew p e with
    | some u =>
        obtain ⟨hsocket, ho⟩ := handleTcpNew_socket hnew
        have hunused : t.Unused (NgSession.tcp u).socket := by
          rw [NgSession.socket, hsocket]
          exact hu
        exact ⟨_, _, rfl, register_after h hw hb ho hunused⟩
    | none =>
        by_cases hr : p.urg = true ∨ p.syn = true
        · simp only [hr, if_true]
          exact ⟨t, cells, rfl, .refl h hw⟩
        · simp only [hr, if_false]
          have hrep : Represents { t with io := t.io ++ [.tun (unknownRst p) e.writeOk] } cells
              { l with world := { l.world with io := l.world.io ++ [.tun (unknownRst p) e.writeOk] } } :=
            { h with io := by rw [h.io] }
          exact ⟨_, cells, rfl, rfl, rfl, rfl, List.Subset.refl _, hrep, hw, fun _ hc => hc⟩

theorem hasUdpSession_eq (h : Represents t cells l) (fwd53 : Bool) (p : UdpPkt) :
    t.hasUdpSession fwd53 p = some (hasUdpSession l.world.sessions fwd53 p) := by
  unfold Thread.hasUdpSession Native.hasUdpSession
  extract_lets belongs belongs'
  have hany : (cells.find? (belongs ·.2)).isSome = l.world.sessions.any belongs' := by
    rw [← h.sessions, List.any_map, Bool.eq_iff_iff, List.find?_isSome, List.any_eq_true]
    exact Iff.rfl
  by_cases hdns : p.dest = 53 ∧ fwd53 = false
  · simp [hdns]
  · rw [if_neg hdns, find_cells h.holds, Option.map_some, Option.isSome_map, hany]
    simp only [hdns, false_or, Bool.decide_eq_true]

theorem overLimit_eq (h : Represents t cells l) (fwd53 : Bool) (loglevel : Int) (p : IpPkt) :
    t.overLimit fwd53 p = some (overLimit l.world
      { loglevel, fwd53, sessions := l.sessions, maxsessions := l.maxsessions } p) := by
  cases p with
  | icmp p => simp [Thread.overLimit, Native.overLimit, h.counted, h.maxsessions]
  | tcp p heap => simp [Thread.overLimit, Native.overLimit, h.counted, h.maxsessions]
  | udp p behind =>
      simp only [Thread.overLimit, Native.overLimit, h.counted, h.maxsessions, hasUdpSession_eq h]
      by_cases hover : l.sessions ≥ l.maxsessions
      · simp only [hover, if_true, Option.map_some, true_and]
        cases hasUdpSession l.world.sessions fwd53 p <;> rfl
      · simp [hover]

/-- The packet is a DHCP request. -/
def IpPkt.isDhcpRequest : IpPkt → Bool
  | .udp p _ => p.isDhcpRequest
  | _ => false

/-- The packet that `check_tun` has read is a DHCP request. -/
def TunRead.isDhcpRequest (r : TunRead) : Bool :=
  (ipPkt (memAt (r.pkt.take MTU) r.behind) (r.pkt.take MTU).length r.loglevel).any IpPkt.isDhcpRequest

/-- `handle_ip` in memory and on the list. -/
theorem handleIp_after {r : TunRead} (h : Represents t cells l) (hl : l.Reached) (hw : Watched t.interest cells)
    (ha : t.Allows (.tun (some r))) (hread : r.pkt.take MTU ≠ []) (hin : r.isDhcpRequest = true → t.handleIp r ≠ none) :
    ∃ t' cells', t.handleIp r = some t' ∧
      After r.block.added t cells t' cells' (l.checkTun r.pkt r.behind r.loglevel r.fwd53 r.env) := by
  obtain ⟨hb, hicmp, hudp, htcp⟩ := ha
  unfold TunRead.isDhcpRequest at hin
  unfold Thread.handleIp Loop.checkTun World.handleIp at *
  simp only [hread, if_false]
  cases hpkt : ipPkt (memAt (r.pkt.take MTU) r.behind) (r.pkt.take MTU).length r.loglevel with
  | none => exact ⟨t, cells, rfl, .refl h hw⟩
  | some p =>
      simp only [hpkt, Option.any_some, overLimit_eq h r.fwd53 r.loglevel p] at hin ⊢
      cases hover : overLimit l.world
          { loglevel := r.loglevel, fwd53 := r.fwd53, sessions := l.sessions, maxsessions := l.maxsessions } p with
      | true => exact ⟨t, cells, rfl, .refl h hw⟩
      | false =>
          simp only [hover] at hin
          cases p with
          | icmp p => exact handleIcmp_after h hl hw hb hicmp
          | udp p behind => exact handleUdp_after h hl hw hb hudp hin
          | tcp p heap => exact handleTcp_after h hl hw hb htcp

end Packets

/-! ## The loops over the list -/

section Loops

/-- Addresses and sockets. -/
abbrev sockets (cells : List (Nat × NgSession)) : List (Nat × Int) := cells.map fun x => (x.1, x.2.socket)

theorem monitorTcpSession_kept (u : TcpSession) (e : MonitorEnv) :
    (monitorTcpSession u e).socket = u.socket ∧
      ((NgSession.tcp u).isActive = false → (NgSession.tcp (monitorTcpSession u e)).isActive = false) := by
  have hclosing : ∀ v : TcpSession, (NgSession.tcp { v with state := .closing }).isActive = false := fun v => by
    simp [NgSession.isActive]
  have hkeep : ∀ v : TcpSession, (v = u ∨ (u.state = .established ∨ u.state = .closeWait) ∧ v = keepAlive u e) →
      v.socket = u.socket ∧ ((NgSession.tcp u).isActive = false → (NgSession.tcp v).isActive = false) := by
    rintro v (rfl | ⟨hs, rfl⟩)
    · exact ⟨rfl, id⟩
    · refine ⟨keepAlive_socket, fun hidle => ?_⟩
      rcases hs with hs | hs <;> simp [NgSession.isActive, hs] at hidle
  unfold monitorTcpSession
  extract_lets events v
  have hv := hkeep v (by
    simp only [v]
    split
    · rename_i hs
      exact .inr ⟨hs.1, rfl⟩
    · exact .inl rfl)
  split
  · split
    · exact hv
    · exact ⟨hv.1, fun _ => hclosing _⟩
  · exact hv

theorem eachList_count (f : Nat → NgSession → NgSession) (i : Nat) (n : Int) (cells : List (Nat × NgSession)) :
    (eachList (fun i s n => (f i s, if s.isActive then n + 1 else n)) i n cells).2 =
      n + (cells.map Prod.snd).countP NgSession.isActive := by
  induction cells generalizing i n with
  | nil => simp [eachList]
  | cons x cells ih =>
      obtain ⟨a, s⟩ := x
      simp only [eachList, ih, List.map_cons]
      cases hs : s.isActive with
      | true =>
          simp [hs]
          omega
      | false => simp [hs]

/-- The loop under "Count sessions" in memory and on the list. -/
theorem count_after (h : Represents t cells l) (e : Nat → MonitorEnv) :
    ∃ heap cells', t.count e = some { t with heap, sessions := l.world.active } ∧
      Represents { t with heap, sessions := l.world.active } cells'
        { l with sessions := l.world.active, world := l.world.monitor e } ∧
      sockets cells' = sockets cells ∧
      ((∀ x ∈ cells, x.2.isActive = false) → ∀ x ∈ cells', x.2.isActive = false) := by
  unfold Thread.count World.monitor
  extract_lets monitor body monitor'
  have hmonitor : monitor' = monitor := by
    funext i s
    cases s with
    | tcp u =>
        simp only [monitor', monitor, tcpStep]
        split <;> rfl
    | icmp u => rfl
    | udp u => rfl
  obtain ⟨heap, heach, hh⟩ := each_eq [] body (i := 0) (x := 0) h.holds h.holds.seg.head
    h.holds.seg.length_lt
  have hcells := eachList_fst monitor (fun _ s n => if s.isActive then n + 1 else n) 0 (0 : Int) cells
  have hcount := eachList_count monitor 0 0 cells
  rw [h.sessions, zero_add] at hcount
  rw [hcells] at hh
  simp only [Nat.zero_add, List.nil_append] at hh
  refine ⟨heap, _, ?_, ⟨hh, ?_, h.io, h.maxsessions, rfl, h.lastCheck⟩, ?_, fun hidle x hx => ?_⟩
  · simp only [heach, body, hcount]
    rfl
  · rw [hmonitor, ← h.sessions]
    apply List.ext_getElem?
    intro i
    simp [Function.comp_def]
  · apply List.ext_getElem?
    intro i
    have hsocket : ∀ s : NgSession, (monitor i s).socket = s.socket := by
      intro s
      cases s with
      | tcp u =>
          simp only [monitor]
          split
          · exact (monitorTcpSession_kept u (e i)).1
          · rfl
      | icmp u => rfl
      | udp u => rfl
    simp [Function.comp_def, hsocket]
  · obtain ⟨i, hi, rfl⟩ := List.mem_mapIdx.1 hx
    have hs := hidle _ (List.getElem_mem hi)
    generalize cells[i].2 = s at hs
    cases s with
    | tcp u =>
        simp only [monitor]
        split
        · exact (monitorTcpSession_kept u (e i)).2 hs
        · exact hs
    | icmp u => exact hs
    | udp u => exact hs

theorem NgSession.Released.socket (h : s.Released) : s.socket = -1 := by
  rcases h with hclosed | ⟨hs, -⟩
  · exact hclosed.1
  · exact hs

/-- What is right of each check is right of a loop over the sessions. -/
theorem frees_of_ok {check : Nat → NgSession → NgSession × Bool} (hs : s.Ok ∧ s.isBlocked = false)
    (hok : ∀ i, ((check i s).2 = false → (check i s).1.Ok) ∧ ((check i s).2 = true → (check i s).1.Released))
    (hc : ∀ i, Follows s (check i s).1) : Frees check s := by
  intro i
  refine ⟨(hc i).fdCase hs ?_, fun hdel => ((hok i).2 hdel).socket⟩
  cases hdel : (check i s).2 with
  | false => exact .inl ((hok i).1 hdel)
  | true => exact .inr ((hok i).2 hdel)

/-- A loop that unlinks sessions in memory and on the list. -/
theorem unlink_after {check : Nat → NgSession → NgSession × Bool} (h : Represents t cells l)
    (hw : Watched t.interest cells) (hf : ∀ x ∈ cells, Frees check x.2) :
    ∃ ngSession heap interest cells', t.unlink check = some { t with ngSession, heap, interest } ∧
      Holds heap ngSession cells' ∧ cells'.map Prod.snd = (Native.unlink check 0 [] l.world.sessions).1 ∧
      Watched interest cells' ∧ (Covers t.interest cells → Covers interest cells') ∧
      ∀ x ∈ cells', ∃ i, ∃ y ∈ cells, (check i y.2).2 = false ∧ x.2 = (check i y.2).1 := by
  have hsl : none = ([] : List (Nat × NgSession)).getLast?.map Prod.fst := rfl
  obtain ⟨ngSession, heap, hunlink, hh⟩ := Lib.Linked.unlink_eq [] (checkBody check) (i := 0)
    (x := t.interest) h.holds hsl h.holds.seg.head h.holds.seg.length_lt
  obtain ⟨hw', hc'⟩ := watched_unlinkList check [] 0 hw hf
  have hfst := unlinkList_fst check (fun i s interest => watch interest ((check i s).1.callsSince s)) 0 t.interest cells
  simp only [List.nil_append, Nat.zero_add] at hh hw' hc' hfst
  refine ⟨ngSession, heap, _, _, ?_, hh, ?_, hw', hc', fun x hx => ?_⟩
  · unfold checkBody at hunlink
    simp only [Thread.unlink, hunlink]
  · have hmap : (cells.map Prod.snd).mapIdx check = (cells.mapIdx fun j y => (y.1, check j y.2)).map Prod.snd := by
      apply List.ext_getElem?
      intro i
      simp [Function.comp_def]
    rw [Native.unlink_eq, ← h.sessions]
    simp only [Nat.zero_add, List.nil_append]
    rw [hmap, List.filter_map, List.map_map, hfst, List.map_map]
    rfl
  · rw [hfst] at hx
    obtain ⟨y, hy, rfl⟩ := List.mem_map.1 hx
    rw [List.mem_filter] at hy
    obtain ⟨i, hi, rfl⟩ := List.mem_mapIdx.1 hy.1
    exact ⟨i, _, List.getElem_mem hi, by simpa using hy.2, rfl⟩

end Loops

end TunProxy.Native
