import TunProxy.Native.Lemmas.Thread
import TunProxy.Native.Theorems.Limit

/-!
# The thread in memory

No run of the thread in which no DHCP request comes reads a block that is not allocated or goes round in a circle, and
the list it keeps in memory is one that the loop over Lean's lists reaches. A descriptor in the epoll set is that of the
session its event leads to, and when the kernel refuses none, all open sockets are in the set.
-/

namespace TunProxy.Native

open Lib Lib.Linked

variable {t t' : Thread} {l : Loop} {cells cells' l₁ l₂ : List (Nat × NgSession)} {a : Nat} {s : NgSession}
  {strict : Bool}

/-- The kernel watches every new socket, and the clock is not at its very beginning. -/
def ThreadOp.Works : ThreadOp → Prop
  | .round e => EPOLL_MIN_CHECK < e.ms
  | .tun (some r) => r.block.added = true
  | _ => True

/-- `check_tun` has read a DHCP request. -/
def ThreadOp.BringsDhcp : ThreadOp → Prop
  | .tun (some r) => r.isDhcpRequest = true
  | _ => False

/-- What holds of the thread between two steps. `strict` says that all steps so far worked. -/
structure Thread.Ok (strict : Bool) (t : Thread) (cells : List (Nat × NgSession)) (l : Loop) : Prop where
  reached : l.Reached
  rep : Represents t cells l
  watched : Watched t.interest cells
  ready : ∀ a, .session a ∈ t.ready → ∃ fd, (fd, a) ∈ t.interest
  once : (t.ready.filterMap EventPtr.session?).Nodup
  handles : t.ready ≠ [] → t.stage = .handles
  -- the sessions of an earlier thread are not in the set; the first round closes their sockets
  covers : strict = true →
    t.stage = .exited ∨ t.stage = .counts ∧ t.lastCheck = 0 ∧ (∀ x ∈ cells, x.2.isActive = false) ∨
      Covers t.interest cells

/-! ## The rounds -/

theorem stopSession_idle (s : NgSession) (writeOk : Bool) (hkept : (stopSession s writeOk).2 = false) :
    (stopSession s writeOk).1.isActive = false := by
  cases s with
  | icmp s => rfl
  | udp s =>
      simp only [stopSession, stopUdp] at hkept ⊢
      split
      · simp [NgSession.isActive]
      · rename_i hs
        split
        · simpa [NgSession.isActive] using hs
        · simpa [NgSession.isActive] using hs
  | tcp s =>
      simp only [stopSession, tcpStep, stopTcp]
      split
      · rename_i hs
        rw [writeRst_eq]
        simp [NgSession.isActive, hs.2]
      · rename_i hs
        simpa [NgSession.isActive] using hs

/-- A session that has ended has no socket after the check. -/
theorem checkSession_idle {e : CheckEnv} (hs : s.Ok) (hidle : s.isActive = false)
    (hkept : (checkSession s e).2 = false) : (checkSession s e).1.socket = -1 := by
  cases s with
  | icmp s =>
      have hstop : s.stop = true := by simpa [NgSession.isActive] using hidle
      simp [checkSession, checkIcmpSession, hstop] at hkept
  | udp s =>
      have hshut : s.state ≠ .finishing → s.socket = -1 := by
        intro hne
        cases hstate : s.state with
        | active => simp [NgSession.isActive, hstate] at hidle
        | finishing => exact absurd hstate hne
        | closed => exact (released_of_udp_ok hs (.inl hstate)).socket
        | blocked => exact (released_of_udp_ok hs (.inr hstate)).socket
      have hactive : s.state ≠ .active := by simpa [NgSession.isActive] using hidle
      have hfinished : (checkUdpFinished (checkUdpTimeout s e) e).socket = -1 := by
        simp only [checkUdpTimeout, hactive, false_and, if_false, checkUdpFinished]
        split
        · rfl
        · rename_i hne
          exact hshut hne
      simp only [checkSession, checkUdpSession]
      split
      · exact hfinished
      · exact hfinished
  | tcp s =>
      have hidle : s.state = .closing ∨ s.state = .close := by
        cases hstate : s.state <;> simp_all [NgSession.isActive]
      have htimeout : checkTimeout s e = s := by
        rcases hidle with hstate | hstate <;> simp [checkTimeout, hstate]
      have hclosing : (checkClosing (checkTimeout s e) e).socket = -1 := by
        rw [htimeout]
        unfold checkClosing
        rcases hidle with hstate | hstate
        · simp only [hstate, if_true]
          split
          · rfl
          · obtain ⟨fd, hfd, ⟨hsocket, -⟩ | ⟨hsocket, -⟩⟩ := Coherent.fds hs
            · omega
            · exact hsocket
        · simp only [hstate, reduceCtorEq, if_false]
          exact Coherent.shut_socket hs (by rw [hstate]; rfl)
      simp only [checkSession, checkTcpSession]
      split
      · exact hclosing
      · exact hclosing

/-- What a round of the thread does. -/
theorem round_ok {e : RoundEnv} (h : t.Ok strict cells l) (hs : t.stage = .counts)
    (hms : strict = true → EPOLL_MIN_CHECK < e.ms) :
    ∃ t' cells' l', t.round e = some t' ∧ t'.Ok strict cells' l' := by
  obtain ⟨heap, cells₁, hcount, hrep₁, hsockets, hidle₁⟩ := count_after h.rep e.monitor
  have hready : t.ready = [] := by
    by_contra hne
    simp [h.handles hne] at hs
  have hreached₁ : (l.world.monitor e.monitor).Reached := h.reached.world.step (.monitor e.monitor) trivial
  have hw₁ := h.watched.congr hsockets
  have hreached := h.reached.step (.round e)
  have hlast := h.rep.lastCheck
  unfold Thread.round
  simp only [hcount]
  simp only [loopStep, Loop.round] at hreached
  split
  · rename_i hcheck
    rw [if_pos (hlast ▸ hcheck)] at hreached
    have hrep₂ : Represents { t with heap, sessions := l.world.active, lastCheck := e.ms, stage := .waits } cells₁
        { l with sessions := l.world.active, world := l.world.monitor e.monitor, lastCheck := e.ms } :=
      { hrep₁ with lastCheck := rfl }
    let check (i : Nat) (s : NgSession) :=
      checkSession s
        { now := e.now i, sessions := l.world.active, maxsessions := t.maxsessions, writeOk := e.writeOk i }
    have hfrees : ∀ x ∈ cells₁, Frees check x.2 := by
      intro x hx
      have hsound := hrep₂.sound hreached₁ hx
      exact frees_of_ok hsound (fun i => checkSession_ok hsound.1)
        fun i => (show Changes (.monitor e.monitor) x.2 _ from checkSession_changes x.2 _).follows
    obtain ⟨ngSession, heap', interest, cells', hunlink, hh, hsess, hw', hc', hmem⟩ := unlink_after hrep₂ hw₁ hfrees
    refine ⟨_, cells', _, hunlink, hreached, ⟨hh, ?_, h.rep.io, h.rep.maxsessions, rfl, rfl⟩, hw', ?_, ?_, ?_,
      fun hstrict => .inr (.inr ?_)⟩
    · rw [hsess]
      simp only [World.sweep, Loop.checkEnv, check, h.rep.maxsessions]
    · simp [hready]
    · simp [hready]
    · simp [hready]
    · rcases h.covers hstrict with hex | ⟨-, -, hidle⟩ | hcovers
      · simp [hs] at hex
      · intro x hx ho
        obtain ⟨i, y, hy, hkept, hxy⟩ := hmem x hx
        have hshut := checkSession_idle (hrep₂.sound hreached₁ hy).1 (hidle₁ hidle y hy) hkept
        rw [hxy, hshut] at ho
        omega
      · exact hc' (hcovers.congr hsockets)
  · rename_i hcheck
    rw [if_neg (hlast ▸ hcheck)] at hreached
    refine ⟨_, cells₁, _, rfl, ⟨hreached, { hrep₁ with }, hw₁, ?_, ?_, ?_, fun hstrict => ?_⟩⟩
    · simp [hready]
    · simp [hready]
    · simp [hready]
    · have hms := hms hstrict
      rcases h.covers hstrict with hex | ⟨-, hlast, -⟩ | hcovers
      · simp [hs] at hex
      · omega
      · exact .inr (.inr (hcovers.congr hsockets))

/-- What the code before the loop does. -/
theorem start_ok {rlimCur : BitVec 64} {writeOk : Nat → Bool} {opened : Bool} (h : t.Ok strict cells l) :
    ∃ t' cells' l', t.start rlimCur writeOk opened = some t' ∧ t'.Ok strict cells' l' := by
  have hreached := h.reached.step (.start rlimCur writeOk)
  have hrep : Represents
      { t with
        interest := []
        stage := if opened then .counts else .exited
        ready := []
        maxsessions := maxSessions rlimCur
        sessions := 0
        lastCheck := 0 } cells
      { l with maxsessions := maxSessions rlimCur, sessions := 0, lastCheck := 0 } :=
    ⟨h.rep.holds, h.rep.sessions, h.rep.io, rfl, rfl, rfl⟩
  have hfrees : ∀ x ∈ cells, Frees (fun i s => stopSession s (writeOk i)) x.2 := by
    intro x hx
    have hsound := h.rep.sound h.reached.world hx
    exact frees_of_ok hsound (fun i => stopSession_ok hsound.1)
      fun i => (show Changes (.allowed writeOk) x.2 _ from stopSession_changes x.2 _).follows
  obtain ⟨ngSession, heap, interest, cells', hunlink, hh, hsess, hw', -, hmem⟩ :=
    unlink_after hrep h.watched.empty hfrees
  refine ⟨_, cells', _, hunlink, hreached, ⟨hh, hsess, h.rep.io, rfl, rfl, rfl⟩, hw', ?_, ?_, ?_, fun _ => ?_⟩
  · simp
  · simp
  · simp
  · cases opened with
    | false => exact .inl rfl
    | true =>
        refine .inr (.inl ⟨rfl, rfl, fun x hx => ?_⟩)
        obtain ⟨i, y, hy, hkept, hxy⟩ := hmem x hx
        rw [hxy]
        exact stopSession_idle y.2 _ hkept

/-- `clear` frees every block. -/
theorem clear_ok (h : t.Ok strict cells l) : ∃ t' cells' l', t.clear = some t' ∧ t'.Ok strict cells' l' := by
  obtain ⟨heap, hfree, hh⟩ := freeAll_eq h.rep.holds h.rep.holds.seg.length_lt
  refine ⟨{ Thread.init with heap }, [], Loop.init, ?_, ⟨[], .nil⟩, ⟨hh, rfl, rfl, rfl, rfl, rfl⟩, ?_, ?_, ?_, ?_, ?_⟩
  · simp only [Thread.clear, hfree]
  · exact ⟨List.nodup_nil, by simp [Thread.init], List.Pairwise.nil⟩
  · simp [Thread.init]
  · simp [Thread.init]
  · simp [Thread.init]
  · exact fun _ => .inl rfl

/-! ## The events -/

theorem exit_ok (h : t.Ok strict cells l) : t.exit.Ok strict cells l :=
  { reached := h.reached
    rep := { h.rep with }
    watched := h.watched.empty
    ready := by simp [Thread.exit]
    once := by simp [Thread.exit]
    handles := by simp [Thread.exit]
    covers := fun _ => .inl rfl }

/-- A session is in the set once. -/
theorem Watched.ptr_nodup {interest : List (Int × Nat)} (hw : Watched interest cells)
    (hh : Holds t.heap t.ngSession cells) : (interest.map Prod.snd).Nodup := by
  refine hw.nodup.map_on fun x hx y hy hxy => ?_
  obtain ⟨-, s, hs, hsx⟩ := hw.points x hx
  obtain ⟨-, u, hu, huy⟩ := hw.points y hy
  obtain ⟨n, hn⟩ := hh.seg.lookup hs
  obtain ⟨m, hm⟩ := hh.seg.lookup hu
  rw [hxy, hm] at hn
  cases hn
  exact Prod.ext (hsx.symm.trans huy) hxy

theorem next_ok (h : t.Ok strict cells l) (hs : t.stage = .handles) : t.next.Ok strict cells l := by
  have hsub : t.ready.tail.Sublist t.ready := List.tail_sublist _
  refine ⟨h.reached, { h.rep with }, h.watched, ?_, ?_, ?_, fun hstrict => ?_⟩
  · intro a ha
    exact h.ready a (hsub.subset ha)
  · exact h.once.sublist (hsub.filterMap _)
  · intro hne
    simp only [Thread.next] at hne ⊢
    rw [if_neg hne]
  · rcases h.covers hstrict with hex | ⟨hcounts, -⟩ | hcovers
    · simp [hs] at hex
    · simp [hs] at hcounts
    · exact .inr (.inr hcovers)

theorem wait_ok {events : Option (List EventPtr)} (h : t.Ok strict cells l) (hs : t.stage = .waits)
    (ha : t.Allows (.wait events)) :
    ∃ t' cells' l', threadStep t (.wait events) = some t' ∧ t'.Ok strict cells' l' := by
  simp only [threadStep, hs, if_true]
  cases events with
  | none => exact ⟨_, cells, l, rfl, exit_ok h⟩
  | some ready =>
      have ha : (ready.filterMap EventPtr.session?).Subperm (t.interest.map Prod.snd) := ha
      have hnodup := h.watched.ptr_nodup h.rep.holds
      refine ⟨_, cells, l, rfl, h.reached, { h.rep with }, h.watched, ?_, ?_, ?_, fun hstrict => ?_⟩
      · intro a hmem
        have hptr : a ∈ t.interest.map Prod.snd :=
          ha.subset (List.mem_filterMap.2 ⟨_, hmem, rfl⟩)
        obtain ⟨⟨fd, b⟩, hb, rfl⟩ := List.mem_map.1 hptr
        exact ⟨fd, hb⟩
      · obtain ⟨l', hperm, hsub⟩ := ha
        exact hperm.nodup_iff.1 (hnodup.sublist hsub)
      · intro hne
        exact if_neg hne
      · rcases h.covers hstrict with hex | ⟨hcounts, -⟩ | hcovers
        · simp [hs] at hex
        · simp [hs] at hcounts
        · exact .inr (.inr hcovers)

theorem tun_ok {r : TunRead} {rest : List EventPtr} (h : t.Ok strict cells l) (hready : t.ready = .tun :: rest)
    (ha : t.Allows (.tun (some r))) (hworks : strict = true → r.block.added = true) (hread : r.pkt.take MTU ≠ [])
    (hin : r.isDhcpRequest = true → t.handleIp r ≠ none) :
    ∃ t' cells' l', t.handleIp r = some t' ∧ t'.Ok strict cells' l' := by
  have hs := h.handles (by rw [hready]; exact List.cons_ne_nil _ _)
  obtain ⟨t', cells', hip, hafter⟩ := handleIp_after h.rep h.reached h.watched ha hread hin
  have hreached := h.reached.step (.tun r.pkt r.behind r.loglevel r.fwd53 r.env)
  refine ⟨t', cells', _, hip, hreached, hafter.rep, hafter.watched, ?_, ?_, ?_, fun hstrict => ?_⟩
  · intro a ha
    rw [hafter.ready] at ha
    obtain ⟨fd, hfd⟩ := h.ready a ha
    exact ⟨fd, hafter.interest hfd⟩
  · rw [hafter.ready]
    exact h.once
  · rw [hafter.ready, hafter.stage]
    exact h.handles
  · rcases h.covers hstrict with hex | ⟨hcounts, -⟩ | hcovers
    · simp [hs] at hex
    · simp [hs] at hcounts
    · exact .inr (.inr (hafter.covers (hworks hstrict) hcovers))

/-- While its socket is open, the handler of a session does what the event of the loop does. -/
theorem checkSocket_eq {e : Event} (ho : 0 ≤ s.socket) : checkSocket s e = eventHandler e s := by
  have hneg : ¬s.socket < 0 := by omega
  unfold checkSocket
  rw [if_neg hneg]
  cases s with
  | icmp u => cases e <;> rfl
  | udp u => cases e <;> rfl
  | tcp u =>
      cases e with
      | datagram e => rfl
      | tcp e => simp only [eventHandler, tcpStep, if_pos (show u.socket ≥ 0 from ho)]

theorem modify_append (f : NgSession → NgSession) (l₁ l₂ : List NgSession) :
    (l₁ ++ s :: l₂).modify l₁.length f = l₁ ++ f s :: l₂ := by
  induction l₁ with
  | nil => rfl
  | cons u l₁ ih => simp [ih]

theorem downstream_eq {e : Event} (hsess : (l₁ ++ (a, s) :: l₂).map Prod.snd = l.world.sessions) (ho : 0 ≤ s.socket)
    (hwakes : wakes s e = true) :
    l.downstream l₁.length e = l.withSessions ((l₁ ++ (a, eventHandler e s) :: l₂).map Prod.snd) := by
  have hget : l.world.sessions[l₁.length]? = some s := by simp [← hsess]
  have hmodify := modify_append (s := s) (checkSocket · e) (l₁.map Prod.snd) (l₂.map Prod.snd)
  rw [List.length_map, ← List.map_cons (f := Prod.snd) (a := (a, s)), ← List.map_append, hsess, checkSocket_eq ho]
    at hmodify
  simp only [Loop.downstream, hget, hwakes, if_true, World.event, hmodify, Loop.withSessions]
  simp

theorem checkUdpSocket_socket (u : UdpSession) (e : DatagramEnv) : (checkUdpSocket u e).socket = u.socket := by
  unfold checkUdpSocket
  split
  · rfl
  · split
    · simp only []
      split
      · split
        · rfl
        · rfl
      · rfl
      · split
        · rfl
        · split
          · rfl
          · split
            · rfl
            · rfl
    · rfl

/-- A session outside the one that is handled stays in the set. -/
theorem Watched.keeps {interest : List (Int × Nat)} {s' : NgSession} {fd : Int} {b : Nat}
    (hw : Watched interest (l₁ ++ (a, s) :: l₂)) (hf : FdCase s s') (hb : (fd, b) ∈ interest) (hne : b ≠ a) :
    (fd, b) ∈ watch interest (s'.callsSince s) := by
  rw [mem_watch]
  refine ⟨hb, ?_⟩
  cases hf with
  | kept hsocket hcalls => exact hcalls fd
  | closed ho hsocket hcalls =>
      intro hmem
      have hfd := (hcalls fd).1 hmem
      obtain ⟨-, u, hu, hufd⟩ := hw.points _ hb
      simp only [List.mem_append, List.mem_cons, Prod.mk.injEq] at hu
      rcases hu with hu | ⟨hba, -⟩ | hu
      · exact hw.other ho (.inl hu) (hufd.trans hfd)
      · exact hne hba
      · exact hw.other ho (.inr hu) (hufd.trans hfd)

theorem socket_ok {e : Event} {rest : List EventPtr} (h : t.Ok strict cells l)
    (hready : t.ready = .session a :: rest) :
    ∃ t' cells' l', t.downstream a e = some t' ∧ t'.Ok strict cells' l' := by
  have hs := h.handles (by rw [hready]; exact List.cons_ne_nil _ _)
  obtain ⟨fd, hfd⟩ := h.ready a (by simp [hready])
  obtain ⟨ho, s, hmem, rfl⟩ := h.watched.points _ hfd
  obtain ⟨n, hn⟩ := h.rep.holds.seg.lookup hmem
  obtain ⟨l₁, l₂, rfl⟩ := List.append_of_mem hmem
  have hsound := h.rep.sound h.reached.world hmem
  have hcovers : strict = true → Covers t.interest (l₁ ++ (a, s) :: l₂) := by
    intro hstrict
    rcases h.covers hstrict with hex | ⟨hcounts, -⟩ | hcovers
    · simp [hs] at hex
    · simp [hs] at hcounts
    · exact hcovers
  have hf : FdCase s (eventHandler e s) := by
    have hchanges : Changes (.event 0 e) s (checkSocket s e) := checkSocket_changes s e
    have hok := checkSocket_ok (e := e) hsound.1
    rw [checkSocket_eq ho] at hchanges hok
    exact hchanges.follows.fdCase hsound (.inl hok)
  have hreached := h.reached.step (.downstream l₁.length e)
  simp only [loopStep] at hreached
  -- the session is handled, and the event is over
  have hover : wakes s e = true → ∃ t' cells' l', (t.modify a (eventHandler e)).map Thread.next = some t' ∧
      t'.Ok strict cells' l' := by
    intro hwakes
    rw [downstream_eq h.rep.sessions ho hwakes] at hreached
    obtain ⟨heap, hmod, hh⟩ := modify_eq (eventHandler e) h.rep.holds
    rw [hmod]
    have hsame : SameVars t { t with heap } := ⟨rfl, rfl, rfl, rfl⟩
    have hrep := h.rep.withSessions hsame hh
    have honce := h.once
    simp only [hready, List.filterMap_cons, EventPtr.session?, List.nodup_cons] at honce
    refine ⟨_, _, _, rfl, hreached, { hrep with }, h.watched.call hf, ?_, ?_, ?_, fun hstrict => ?_⟩
    · intro b hb
      simp only [Thread.next, hready, List.tail_cons] at hb
      obtain ⟨fd, hb'⟩ := h.ready b (by simp [hready, hb])
      refine ⟨fd, h.watched.keeps hf hb' ?_⟩
      rintro rfl
      exact honce.1 (List.mem_filterMap.2 ⟨_, hb, rfl⟩)
    · simp only [Thread.next, hready, List.tail_cons]
      exact honce.2
    · intro hne
      simp only [Thread.next] at hne ⊢
      rw [if_neg hne]
    · exact .inr (.inr ((hcovers hstrict).call h.watched hf))
  simp only [Thread.downstream, hn]
  cases s with
  | icmp u => exact hover rfl
  | tcp u => exact hover rfl
  | udp u =>
      simp only []
      split
      · rename_i hwakes
        rw [downstream_eq h.rep.sessions ho hwakes] at hreached
        have hsocket : (eventHandler e (.udp u)).socket = (NgSession.udp u).socket := by
          cases e with
          | datagram e => exact checkUdpSocket_socket u e
          | tcp e => rfl
        obtain ⟨t', hmod, hafter⟩ := modify_after true h.rep h.watched hf hsocket
        refine ⟨t', _, _, hmod, hreached, hafter.rep, hafter.watched, ?_, ?_, ?_, fun hstrict => ?_⟩
        · intro b hb
          rw [hafter.ready] at hb
          obtain ⟨fd, hb⟩ := h.ready b hb
          exact ⟨fd, hafter.interest hb⟩
        · rw [hafter.ready]
          exact h.once
        · rw [hafter.ready, hafter.stage]
          exact h.handles
        · exact .inr (.inr (hafter.covers rfl (hcovers hstrict)))
      · exact ⟨t, _, l, rfl, h⟩

/-! ## Runs -/

/-- A step keeps what holds of the thread, unless it writes behind a block. -/
theorem step_ok {op : ThreadOp} (h : t.Ok strict cells l) (ha : t.Allows op) (hw : strict = true → op.Works)
    (hin : op.BringsDhcp → threadStep t op ≠ none) :
    ∃ t' cells' l', threadStep t op = some t' ∧ t'.Ok strict cells' l' := by
  cases op with
  | start rlimCur writeOk opened =>
      simp only [threadStep]
      split
      · exact start_ok h
      · exact ⟨t, cells, l, rfl, h⟩
  | round e =>
      simp only [threadStep]
      split
      · rename_i hs
        exact round_ok h hs hw
      · exact ⟨t, cells, l, rfl, h⟩
  | wait events =>
      by_cases hs : t.stage = .waits
      · exact wait_ok h hs ha
      · simp only [threadStep, if_neg hs]
        exact ⟨t, cells, l, rfl, h⟩
  | tun read =>
      revert hin
      simp only [threadStep]
      split
      · rename_i rest hready
        cases read with
        | none => exact fun _ => ⟨_, cells, l, rfl, exit_ok h⟩
        | some r =>
            simp only []
            split
            · exact fun _ => ⟨_, cells, l, rfl, exit_ok h⟩
            · rename_i hread
              exact tun_ok h hready ha hw hread
      · exact fun _ => ⟨t, cells, l, rfl, h⟩
  | socket e =>
      simp only [threadStep]
      split
      · rename_i a rest hready
        exact socket_ok h hready
      · exact ⟨t, cells, l, rfl, h⟩
  | next =>
      simp only [threadStep]
      split
      · exact ⟨t, cells, l, rfl, h⟩
      · exact ⟨_, cells, l, rfl, exit_ok h⟩
      · rename_i hne _
        exact ⟨_, cells, l, rfl, next_ok h (h.handles hne)⟩
  | clear =>
      simp only [threadStep]
      split
      · exact clear_ok h
      · exact ⟨t, cells, l, rfl, h⟩

theorem init_ok : Thread.init.Ok strict [] Loop.init :=
  { reached := ⟨[], .nil⟩
    rep := ⟨Holds.empty, rfl, rfl, rfl, rfl, rfl⟩
    watched := ⟨List.nodup_nil, by simp [Thread.init], List.Pairwise.nil⟩
    ready := by simp [Thread.init]
    once := by simp [Thread.init]
    handles := by simp [Thread.init]
    covers := fun _ => .inl rfl }

variable {ops : List ThreadOp} {x : Option Thread}

/-- The invariant at the end of every run that comes to its end. -/
theorem thread_ok_of_run (strict : Bool)
    (h : Run runStep (fun t op => ∀ t', t = some t' → t'.Allows op ∧ (strict = true → op.Works)) (some Thread.init)
      ops (some t)) :
    ∃ cells l, t.Ok strict cells l := by
  refine h.invariant' (I := fun x => ∀ t, x = some t → ∃ cells l, t.Ok strict cells l) ?_ ?_ t rfl
  · rintro t ⟨⟩
    exact ⟨_, _, init_ok⟩
  · rintro (_ | t) op hI hok t' hstep
    · cases hstep
    have hstep : threadStep t op = some t' := hstep
    obtain ⟨ha, hw⟩ := hok t rfl
    obtain ⟨cells, l, ht⟩ := hI t rfl
    obtain ⟨t'', cells', l', hstep', ht'⟩ := step_ok ht ha hw fun _ => Option.ne_none_iff_exists'.2 ⟨_, hstep⟩
    rw [hstep] at hstep'
    cases hstep'
    exact ⟨cells', l', ht'⟩

/-- A run without a DHCP request comes to its end. -/
theorem thread_runs (strict : Bool)
    (h : Run runStep (fun t op => (∀ t', t = some t' → t'.Allows op ∧ (strict = true → op.Works)) ∧ ¬op.BringsDhcp)
      (some Thread.init) ops x) :
    ∃ t cells l, x = some t ∧ t.Ok strict cells l := by
  refine h.invariant' (I := fun x => ∃ t cells l, x = some t ∧ t.Ok strict cells l) ⟨_, _, _, rfl, init_ok⟩ ?_
  rintro x op ⟨t, cells, l, rfl, ht⟩ ⟨hok, hdhcp⟩
  obtain ⟨ha, hw⟩ := hok t rfl
  obtain ⟨t', cells', l', hstep, ht'⟩ := step_ok ht ha hw fun h => absurd h hdhcp
  exact ⟨t', cells', l', hstep, ht'⟩

theorem ThreadRun.ok (h : ThreadRun ops (some t)) : ∃ cells l, t.Ok false cells l :=
  thread_ok_of_run _ (h.mono fun _ _ hok t' ht' => ⟨hok t' ht', fun hf => by cases hf⟩)

/-- A thread registers the session of a datagram, and waits for its answer. -/
def sampleThreadOps : List ThreadOp :=
  [.start 50 (fun _ => true) true, .round { ms := 1000, now := fun _ => 7 }, .wait (some [.tun]),
    .tun (some {
      pkt := sampleTime 1, behind := fun _ => 0, loglevel := ANDROID_LOG_WARN, fwd53 := false
      env := { udp := { now := 7, socket := 30 } }, block := { addr := 4096, added := true } }),
    .next, .round { ms := 2000, now := fun _ => 8 }, .wait (some [.session 4096])]

theorem lookup_of_keys (h : t.heap.keys = []) (a : Nat) : t.heap.lookup a = none := by
  rw [AList.lookup_eq_none, AList.mem_keys, h]
  exact List.not_mem_nil

theorem unused_of_keys (h : t.heap.keys = []) (fd : Int) : t.Unused fd := by
  intro a node ha
  simp [lookup_of_keys h a] at ha

theorem sampleThreadOps_run :
    Run runStep (fun t op => ∀ t', t = some t' → t'.Allows op ∧ op.Works) (some Thread.init) sampleThreadOps
      (sampleThreadOps.foldl runStep (some Thread.init)) := by
  have hkeys : ((sampleThreadOps.take 3).foldl runStep (some Thread.init)).map (·.heap.keys) = some [] := by
    decide +kernel
  have hset : ((sampleThreadOps.take 6).foldl runStep (some Thread.init)).map (·.interest) = some [(30, 4096)] := by
    decide +kernel
  refine Run.ofAllOk ⟨?_, ?_, ?_, ?_, ?_, ?_, ?_, trivial⟩
  · exact fun _ _ => ⟨trivial, trivial⟩
  · exact fun _ _ => ⟨trivial, show EPOLL_MIN_CHECK < 1000 by decide⟩
  · exact fun _ _ => ⟨List.nil_subperm, trivial⟩
  · intro t ht
    have hnone : t.heap.keys = [] := by
      have hmap := congrArg (Option.map (·.heap.keys)) ht
      exact Option.some.inj (hmap.symm.trans hkeys)
    exact ⟨⟨lookup_of_keys hnone _, unused_of_keys hnone _, unused_of_keys hnone _, unused_of_keys hnone _⟩, rfl⟩
  · exact fun _ _ => ⟨trivial, trivial⟩
  · exact fun _ _ => ⟨trivial, show EPOLL_MIN_CHECK < 2000 by decide⟩
  · intro t ht
    have hone : t.interest = [(30, 4096)] := by
      have hmap := congrArg (Option.map (·.interest)) ht
      exact Option.some.inj (hmap.symm.trans hset)
    refine ⟨?_, trivial⟩
    show List.Subperm _ (t.interest.map Prod.snd)
    rw [hone]
    exact List.Subperm.refl _

theorem sampleThread_some : ∃ t, sampleThreadOps.foldl runStep (some Thread.init) = some t ∧
    t.ready = [.session 4096] ∧ t.stage = .handles := by
  have hready : (sampleThreadOps.foldl runStep (some Thread.init)).map (·.ready) = some [.session 4096] := by
    decide +kernel
  have hstage : (sampleThreadOps.foldl runStep (some Thread.init)).map (·.stage) = some .handles := by decide +kernel
  obtain ⟨t, ht, hready⟩ := Option.map_eq_some_iff.1 hready
  rw [ht] at hstage
  exact ⟨t, ht, hready, Option.some.inj hstage⟩

/-- No run of the thread without a DHCP request fails. The blocks of its list are all the blocks there are, and hold the
sessions that the loop over Lean's lists has after some run, with the same counts and limits. -/
theorem thread_refines_loop (h : ThreadRun ops x) (hdhcp : ∀ op ∈ ops, ¬op.BringsDhcp) :
    ∃ t cells l, x = some t ∧ (∃ loopOps, Run loopStep (fun _ _ => True) Loop.init loopOps l) ∧
      Represents t cells l := by
  obtain ⟨t, cells, l, rfl, ht⟩ := thread_runs false <| (h.and hdhcp).mono fun _ _ hok =>
    ⟨fun t' ht' => ⟨hok.1 t' ht', fun hf => absurd hf Bool.false_ne_true⟩, hok.2⟩
  exact ⟨t, cells, l, rfl, ht.reached, ht.rep⟩

theorem thread_refines_loop_sample : ∃ t cells l, sampleThreadOps.foldl runStep (some Thread.init) = some t ∧
    (∃ loopOps, Run loopStep (fun _ _ => True) Loop.init loopOps l) ∧ Represents t cells l :=
  thread_refines_loop (sampleThreadOps_run.mono fun _ _ hok t' ht' => (hok t' ht').1) <| by
    intro op hop
    simp only [sampleThreadOps, List.mem_cons, List.not_mem_nil, or_false] at hop
    rcases hop with rfl | rfl | rfl | rfl | rfl | rfl | rfl
    · exact id
    · exact id
    · exact id
    · exact fun h : TunRead.isDhcpRequest _ = true => absurd h (by decide +kernel)
    · exact id
    · exact id
    · exact id

/-- Every event that waits to be handled leads to a block that is allocated, with an open socket, and each descriptor in
the set is the socket of the session it leads to, and of no other. -/
theorem events_reach_sessions (h : ThreadRun ops (some t)) :
    (∀ a, .session a ∈ t.ready → ∃ node, t.heap.lookup a = some node ∧ 0 ≤ node.val.socket ∧
      (node.val.socket, a) ∈ t.interest) ∧
    (∀ fd a, (fd, a) ∈ t.interest → 0 ≤ fd ∧ ∃ node, t.heap.lookup a = some node ∧ node.val.socket = fd) ∧
    ∀ fd a node, (fd, a) ∈ t.interest → ∀ b, t.heap.lookup b = some node → node.val.socket = fd → b = a := by
  obtain ⟨cells, l, ht⟩ := h.ok
  have hpoints : ∀ fd a, (fd, a) ∈ t.interest →
      0 ≤ fd ∧ ∃ node, t.heap.lookup a = some node ∧ node.val.socket = fd := by
    intro fd a ha
    obtain ⟨ho, s, hs, hsfd⟩ := ht.watched.points _ ha
    obtain ⟨n, hn⟩ := ht.rep.holds.seg.lookup hs
    exact ⟨ho, _, hn, hsfd⟩
  refine ⟨fun a ha => ?_, hpoints, fun fd a node ha b hb hfd => ?_⟩
  · obtain ⟨fd, hfd⟩ := ht.ready a ha
    obtain ⟨ho, node, hnode, rfl⟩ := hpoints fd a hfd
    exact ⟨node, hnode, ho, hfd⟩
  · obtain ⟨ho, s, hs, hsfd⟩ := ht.watched.points _ ha
    obtain ⟨l₁, l₂, rfl⟩ := List.append_of_mem hs
    have hmem := ht.rep.holds.owned b (by simp [hb])
    obtain ⟨u, hu⟩ := mem_addresses.1 hmem
    obtain ⟨m, hm⟩ := ht.rep.holds.seg.lookup hu
    rw [hm] at hb
    cases hb
    simp only [List.mem_append, List.mem_cons, Prod.mk.injEq] at hu
    rcases hu with hu | ⟨hba, -⟩ | hu
    · exact absurd (hfd.trans hsfd.symm) (ht.watched.other (hsfd.symm ▸ ho) (x := (b, u)) (.inl hu))
    · exact hba
    · exact absurd (hfd.trans hsfd.symm) (ht.watched.other (hsfd.symm ▸ ho) (x := (b, u)) (.inr hu))

theorem events_reach_sessions_sample : ∃ t, sampleThreadOps.foldl runStep (some Thread.init) = some t ∧
    ∃ node, t.heap.lookup 4096 = some node ∧ 0 ≤ node.val.socket ∧ (node.val.socket, 4096) ∈ t.interest := by
  obtain ⟨t, ht, hready, -⟩ := sampleThread_some
  have hrun := sampleThreadOps_run.mono fun _ _ hok t' ht' => (hok t' ht').1
  rw [ht] at hrun
  exact ⟨t, ht, (events_reach_sessions hrun).1 4096 (by rw [hready]; exact List.mem_singleton_self _)⟩

/-- While a thread waits for events or handles them, the set holds exactly the open sockets, those of an earlier thread
included: they are closed in its first round. -/
theorem set_is_open_sockets
    (h : Run runStep (fun t op => ∀ t', t = some t' → t'.Allows op ∧ op.Works) (some Thread.init) ops (some t))
    (hs : t.stage = .waits ∨ t.stage = .handles) (fd : Int) (a : Nat) :
    (fd, a) ∈ t.interest ↔ 0 ≤ fd ∧ ∃ node, t.heap.lookup a = some node ∧ node.val.socket = fd := by
  obtain ⟨cells, l, ht⟩ := thread_ok_of_run true
    (h.mono fun _ _ hok t' ht' => ⟨(hok t' ht').1, fun _ => (hok t' ht').2⟩)
  constructor
  · intro ha
    obtain ⟨ho, s, hs, hsfd⟩ := ht.watched.points _ ha
    obtain ⟨n, hn⟩ := ht.rep.holds.seg.lookup hs
    exact ⟨ho, _, hn, hsfd⟩
  · rintro ⟨ho, node, hnode, rfl⟩
    have hcovers : Covers t.interest cells := by
      rcases ht.covers rfl with hex | ⟨hcounts, -⟩ | hcovers
      · rcases hs with hs | hs <;> simp [hs] at hex
      · rcases hs with hs | hs <;> simp [hs] at hcounts
      · exact hcovers
    obtain ⟨s, hs⟩ := mem_addresses.1 (ht.rep.holds.owned a (by simp [hnode]))
    obtain ⟨n, hn⟩ := ht.rep.holds.seg.lookup hs
    rw [hn] at hnode
    cases hnode
    exact hcovers _ hs ho

theorem set_is_open_sockets_sample : ∃ t, sampleThreadOps.foldl runStep (some Thread.init) = some t ∧
    ((30, 4096) ∈ t.interest ↔ (0 : Int) ≤ 30 ∧ ∃ node, t.heap.lookup 4096 = some node ∧ node.val.socket = 30) := by
  obtain ⟨t, ht, -, hstage⟩ := sampleThread_some
  have hrun := sampleThreadOps_run
  rw [ht] at hrun
  exact ⟨t, ht, set_is_open_sockets hrun (.inr hstage) 30 4096⟩

end TunProxy.Native
