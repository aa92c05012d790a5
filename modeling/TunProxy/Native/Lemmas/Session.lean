import TunProxy.Lib.Run
import TunProxy.Native.Session

/-!
# What a step does to the list of sessions

A step changes sessions in place and then unlinks some, or registers one session in front of the others.
-/

namespace TunProxy.Native

open Lib

variable {w : World} {op : NgOp} {handle : NgSession → Option NgSession} {l l' : List NgSession}
  {check : Nat → NgSession → NgSession × Bool} {s s' : NgSession}

/-! ## One session -/

/-- What a step does to a session that stays where it is. -/
inductive Changes (op : NgOp) : NgSession → NgSession → Prop
  | refl (s : NgSession) : Changes op s s
  | icmpPacket {s p e} (hop : op = .icmp p e) (hb : p.belongs s = true) :
      Changes op (.icmp s) (.icmp (handleIcmp s p e))
  | icmpSocket (s : IcmpSession) (e : DatagramEnv) : Changes op (.icmp s) (.icmp (checkIcmpSocket s e))
  | icmpCheck (s : IcmpSession) (e : CheckEnv) : Changes op (.icmp s) (.icmp (checkIcmpSession s e).1)
  | icmpStop (s : IcmpSession) : Changes op (.icmp s) (.icmp (stopIcmp s))
  | udpPacket {s p e} (hop : op = .udp p e) (hb : p.belongs s = true) : Changes op (.udp s) (.udp (handleUdp s p e))
  | udpSocket (s : UdpSession) (e : DatagramEnv) : Changes op (.udp s) (.udp (checkUdpSocket s e))
  | udpCheck (s : UdpSession) (e : CheckEnv) : Changes op (.udp s) (.udp (checkUdpSession s e).1)
  | udpStop (s : UdpSession) : Changes op (.udp s) (.udp (stopUdp s).1)
  | tcpPacket {s p e} (hop : op = .tcp p e) (hb : p.belongs s = true) :
      Changes op (.tcp s) (.tcp (tcpStep s (.packet p e)))
  | tcpOther {s : TcpSession} (op' : TcpOp) (hop : ∀ p e, op' ≠ .packet p e) :
      Changes op (.tcp s) (.tcp (tcpStep s op'))

/-- The packet belongs to none of the sessions that are looked through. -/
def NgSession.Unknown (sessions : List NgSession) : NgOp → Prop
  | .icmp p _ => ∀ s, .icmp s ∈ sessions → p.belongs s = false
  | .udp p _ => ∀ s, .udp s ∈ sessions → p.belongs s = false
  | .tcp p _ => ∀ s, .tcp s ∈ sessions → p.belongs s = false
  | _ => True

/-- The session a step registers. -/
inductive Opens : NgOp → NgSession → Prop
  | icmp {p e s} (he : p.isEcho = true) (h : handleIcmpNew p e = some s) : Opens (.icmp p e) (.icmp (handleIcmp s p e))
  | udp {p e s} (h : handleUdpNew p e = some s) : Opens (.udp p e) (.udp (handleUdp s p e))
  | tcp {p e s} (h : handleTcpNew p e = some s) : Opens (.tcp p e) (.tcp s)
  | block {p now memory} : Opens (.block p now memory) (.udp (blockUdp p now memory))

/-- The fields that the lookup compares. -/
def IcmpSession.fixed (s : IcmpSession) : Nat × Bytes × Bytes := (s.version, s.saddr, s.daddr)

def UdpSession.fixed (s : UdpSession) : Nat × Bytes × BitVec 16 × Bytes × BitVec 16 :=
  (s.version, s.saddr, s.source, s.daddr, s.dest)

section Icmp

variable {s s' : IcmpSession}

theorem checkIcmpSocket_kept (s : IcmpSession) (e : DatagramEnv) :
    (checkIcmpSocket s e).fixed = s.fixed ∧ (s.stop = true → (checkIcmpSocket s e).stop = true) := by
  unfold checkIcmpSocket
  split
  · exact ⟨rfl, fun _ => rfl⟩
  · split
    · simp only []
      split
      · split
        · exact ⟨rfl, fun _ => rfl⟩
        · exact ⟨rfl, id⟩
      · exact ⟨rfl, fun _ => rfl⟩
      · split
        · exact ⟨rfl, fun _ => rfl⟩
        · exact ⟨rfl, id⟩
    · exact ⟨rfl, id⟩

theorem handleIcmp_kept (s : IcmpSession) (p : IcmpPkt) (e : IcmpEnv) :
    (handleIcmp s p e).fixed = s.fixed ∧ (s.stop = true → (handleIcmp s p e).stop = true) := by
  unfold handleIcmp
  simp only []
  split
  · exact ⟨rfl, fun _ => rfl⟩
  · exact ⟨rfl, id⟩

/-- No handler changes what the lookup compares, or starts a stopped session. -/
theorem Changes.icmp (h : Changes op (.icmp s) (.icmp s')) :
    s'.fixed = s.fixed ∧ (s.stop = true → s'.stop = true) := by
  cases h with
  | refl => exact ⟨rfl, id⟩
  | icmpPacket hop hb => exact handleIcmp_kept _ _ _
  | icmpSocket s e => exact checkIcmpSocket_kept s e
  | icmpCheck s e =>
      unfold checkIcmpSession
      split
      · exact ⟨rfl, id⟩
      · exact ⟨rfl, id⟩
  | icmpStop s => exact ⟨rfl, fun _ => rfl⟩

end Icmp

section Udp

variable {s s' : UdpSession}

theorem checkUdpSocket_kept (s : UdpSession) (e : DatagramEnv) :
    (checkUdpSocket s e).fixed = s.fixed ∧ ((checkUdpSocket s e).state = .active → s.state = .active) := by
  unfold checkUdpSocket
  split
  · exact ⟨rfl, fun h => by cases h⟩
  · split
    · simp only []
      split
      · split
        · exact ⟨rfl, fun h => by cases h⟩
        · exact ⟨rfl, id⟩
      · exact ⟨rfl, fun h => by cases h⟩
      · split
        · exact ⟨rfl, id⟩
        · split
          · exact ⟨rfl, fun h => by cases h⟩
          · split
            · exact ⟨rfl, fun h => by cases h⟩
            · exact ⟨rfl, id⟩
    · exact ⟨rfl, id⟩

theorem checkUdpSession_kept (s : UdpSession) (e : CheckEnv) :
    (checkUdpSession s e).1.fixed = s.fixed ∧ ((checkUdpSession s e).1.state = .active → s.state = .active) := by
  have htimeout : (checkUdpTimeout s e).fixed = s.fixed ∧
      ((checkUdpTimeout s e).state = .active → s.state = .active) := by
    unfold checkUdpTimeout
    split
    · exact ⟨rfl, fun h => by cases h⟩
    · exact ⟨rfl, id⟩
  have hfinished : (checkUdpFinished (checkUdpTimeout s e) e).fixed = (checkUdpTimeout s e).fixed ∧
      ((checkUdpFinished (checkUdpTimeout s e) e).state = .active → (checkUdpTimeout s e).state = .active) := by
    unfold checkUdpFinished
    split
    · exact ⟨rfl, fun h => by cases h⟩
    · exact ⟨rfl, id⟩
  have hboth := And.intro (hfinished.1.trans htimeout.1) (htimeout.2 ∘ hfinished.2)
  simp only [checkUdpSession]
  split
  · exact hboth
  · exact hboth

theorem stopUdp_kept (s : UdpSession) : (stopUdp s).1.fixed = s.fixed ∧ (stopUdp s).1.state ≠ .active := by
  unfold stopUdp
  split
  · exact ⟨rfl, fun h => by cases h⟩
  · rename_i hs
    split
    · exact ⟨rfl, hs⟩
    · exact ⟨rfl, hs⟩

theorem handleUdp_state {p : UdpPkt} {e : UdpEnv} (h : (handleUdp s p e).state = .active) : s.state = .active := by
  unfold handleUdp at h
  split at h
  · exact h
  · rename_i hs
    exact not_not.1 hs

/-- Only the answer to a DHCP request is a write behind a block. -/
theorem checkDhcp_within {p : UdpPkt} {ok : Bool} (hport : p.source = 68 ∨ p.dest = 67)
    (hp : p.isDhcpRequest = false) (h : checkDhcp s p.data ok = some s') : s' = s := by
  unfold checkDhcp at h
  split at h
  · cases h
  · rename_i hlen
    split at h
    · cases h
    · rename_i hmagic
      split at h
      · cases h
      · rename_i htype
        rw [not_or, not_not, not_not] at htype
        split at h
        · rename_i hop
          have hreq : p.isDhcpRequest = true :=
            decide_eq_true ⟨hport, Nat.not_lt.1 hlen, not_not.1 hmagic, htype.1, htype.2, hop⟩
          rw [hp] at hreq
          cases hreq
        · cases h
          rfl

/-- A packet that is no DHCP request changes no key, and nothing is written behind a block. -/
theorem handleUdp_within {p : UdpPkt} {e : UdpEnv} (hp : s.state = .active → p.isRead e.behind = true →
    p.isDhcpRequest = false) : (handleUdp s p e).fixed = s.fixed ∧
      ∃ calls, (handleUdp s p e).io = s.io ++ calls ∧ ∀ c ∈ calls, c.leavesBlock = false := by
  unfold handleUdp
  split
  · exact ⟨rfl, [], by simp, by simp⟩
  · rename_i hs
    unfold forwardUdp
    split
    · exact ⟨rfl, [.hang], rfl, by simp [Io.leavesBlock]⟩
    · rename_i hread
      split
      · rename_i t hdhcp
        split at hdhcp
        · rename_i hport
          have hreq := hp (not_not.1 hs) (by simpa using hread)
          rw [checkDhcp_within hport hreq hdhcp]
          exact ⟨rfl, [], by simp, by simp⟩
        · cases hdhcp
      · have hsent := show ∀ c ∈ [Io.sendto p.data (onSocket s.socket e.sendto.ret)], c.leavesBlock = false by
          simp [Io.leavesBlock]
        simp only []
        split
        · split
          · exact ⟨rfl, _, rfl, hsent⟩
          · exact ⟨rfl, _, rfl, hsent⟩
        · exact ⟨rfl, _, rfl, hsent⟩

theorem checkDhcp_socket {data : Bytes} {ok : Bool} (h : checkDhcp s data ok = some s') :
    s'.socket = s.socket := by
  unfold checkDhcp at h
  split at h
  · cases h
  · split at h
    · cases h
    · split at h
      · cases h
      · split at h
        · rw [← Option.some.inj h]
          rfl
        · rw [← Option.some.inj h]

theorem handleUdp_socket (s : UdpSession) (p : UdpPkt) (e : UdpEnv) : (handleUdp s p e).socket = s.socket := by
  unfold handleUdp
  split
  · rfl
  · unfold forwardUdp
    split
    · rfl
    · split
      · rename_i t hdhcp
        exact checkDhcp_socket (Option.ite_none_right_eq_some.1 hdhcp).2
      · simp only []
        split
        · split
          · rfl
          · rfl
        · rfl

/-- Nothing starts a session that has ended. -/
theorem Changes.udp (h : Changes op (.udp s) (.udp s')) (ha : s'.state = .active) : s.state = .active := by
  cases h with
  | refl => exact ha
  | udpPacket hop hb => exact handleUdp_state ha
  | udpSocket s e => exact (checkUdpSocket_kept s e).2 ha
  | udpCheck s e => exact (checkUdpSession_kept s e).2 ha
  | udpStop s => exact absurd ha (stopUdp_kept s).2

end Udp

/-! ## The list -/

/-- The search changes at most one session, and finds one if there is one. -/
theorem updateFirst_changes (h : updateFirst handle l = some l')
    (hc : ∀ s s', handle s = some s' → Changes op s s') : List.Forall₂ (Changes op) l l' := by
  induction l generalizing l' with
  | nil => cases h
  | cons s rest ih =>
      simp only [updateFirst] at h
      split at h
      · rename_i s' hs
        cases h
        exact .cons (hc _ _ hs) (List.forall₂_same.2 fun t _ => .refl t)
      · obtain ⟨rest', hrest, rfl⟩ := Option.map_eq_some_iff.1 h
        exact .cons (.refl s) (ih hrest)

theorem updateFirst_eq_none : updateFirst handle l = none ↔ ∀ s ∈ l, handle s = none := by
  induction l with
  | nil => simp [updateFirst]
  | cons s rest ih =>
      simp only [updateFirst, List.forall_mem_cons]
      cases hs : handle s with
      | some s' => simp
      | none => simp [ih]

/-- The session that is found, between the others. -/
theorem updateFirst_eq_some (h : updateFirst handle l = some l') :
    ∃ l₁ s s' l₂, l = l₁ ++ s :: l₂ ∧ (∀ t ∈ l₁, handle t = none) ∧ handle s = some s' ∧ l' = l₁ ++ s' :: l₂ := by
  induction l generalizing l' with
  | nil => cases h
  | cons s rest ih =>
      simp only [updateFirst] at h
      split at h
      · rename_i s' hs
        cases h
        exact ⟨[], s, s', rest, rfl, by simp, hs, rfl⟩
      · rename_i hnone
        obtain ⟨rest', hrest, rfl⟩ := Option.map_eq_some_iff.1 h
        obtain ⟨l₁, t, t', l₂, rfl, hl₁, ht, rfl⟩ := ih hrest
        exact ⟨s :: l₁, t, t', l₂, rfl, by simpa [hnone] using hl₁, ht, rfl⟩

theorem updateFirst_append {l₁ l₂ : List NgSession} (hl₁ : ∀ t ∈ l₁, handle t = none) (hs : handle s = some s') :
    updateFirst handle (l₁ ++ s :: l₂) = some (l₁ ++ s' :: l₂) := by
  induction l₁ with
  | nil => simp [updateFirst, hs]
  | cons t l₁ ih =>
      rw [List.forall_mem_cons] at hl₁
      simp [updateFirst, hl₁.1, ih hl₁.2]

theorem mapIdx_changes {f : Nat → NgSession → NgSession} (hc : ∀ i s, Changes op s (f i s)) :
    List.Forall₂ (Changes op) l (l.mapIdx f) := by
  induction l generalizing f with
  | nil => exact .nil
  | cons s rest ih =>
      rw [List.mapIdx_cons]
      exact .cons (hc 0 s) (ih fun i s => hc (i + 1) s)

theorem modify_changes {i : Nat} {f : NgSession → NgSession} (hc : ∀ s, Changes op s (f s)) :
    List.Forall₂ (Changes op) l (l.modify i f) := by
  induction l generalizing i with
  | nil =>
      rw [List.modify_nil]
      exact .nil
  | cons s rest ih =>
      cases i with
      | zero =>
          rw [List.modify_zero_cons]
          exact .cons (hc s) (List.forall₂_same.2 fun t _ => .refl t)
      | succ i =>
          rw [List.modify_succ_cons]
          exact .cons (.refl s) ih

/-- Unlinking is a filter: the other sessions stay in their order. -/
theorem unlink_eq (i : Nat) (passed l : List NgSession) :
    unlink check i passed l =
      (passed ++ ((l.mapIdx fun j => check (i + j)).filter (!·.2)).map (·.1),
        ((l.mapIdx fun j => check (i + j)).filter (·.2)).map (·.1)) := by
  induction l generalizing i passed with
  | nil => simp [unlink]
  | cons s rest ih =>
      have hi : (fun j => check (i + (j + 1))) = fun j => check (i + 1 + j) := by
        funext j
        congr 1
        omega
      simp only [unlink, ih, List.mapIdx_cons, Nat.add_zero, hi]
      by_cases hdel : (check i s).2 = true
      · simp [hdel]
      · simp [hdel]

/-- What a loop that unlinks sessions leaves: of the sessions it checked, those it does not remove. -/
theorem unlink_sublist (check : Nat → NgSession → NgSession × Bool) (l : List NgSession) :
    (unlink check 0 [] l).1.Sublist (l.mapIdx fun i s => (check i s).1) := by
  have hmap : (l.mapIdx fun i s => (check i s).1) = (l.mapIdx check).map (·.1) := by
    simp only [List.mapIdx_eq_zipIdx_map, List.map_map]
    rfl
  rw [unlink_eq, hmap, List.nil_append]
  simp only [Nat.zero_add]
  exact List.filter_sublist.map _

/-! ## One step -/

theorem checkSocket_changes (s : NgSession) (e : Event) : Changes op s (checkSocket s e) := by
  unfold checkSocket
  split
  · exact .refl s
  · split
    · exact .icmpSocket _ _
    · exact .udpSocket _ _
    · exact .tcpOther _ fun _ _ h => by cases h
    · exact .refl _

theorem checkSession_changes (s : NgSession) (e : CheckEnv) : Changes op s (checkSession s e).1 := by
  cases s with
  | icmp s => exact .icmpCheck s e
  | udp s => exact .udpCheck s e
  | tcp s => exact .tcpOther (.check e) fun _ _ h => by cases h

theorem stopSession_changes (s : NgSession) (writeOk : Bool) : Changes op s (stopSession s writeOk).1 := by
  cases s with
  | icmp s => exact .icmpStop s
  | udp s => exact .udpStop s
  | tcp s => exact .tcpOther (.stop writeOk) fun _ _ h => by cases h

/-- The sessions of the list once the step has changed them, before any is unlinked. -/
def World.after (w : World) : NgOp → List NgSession
  | .icmp p e =>
      let handle : NgSession → Option NgSession
        | .icmp s => if p.belongs s then some (.icmp (Native.handleIcmp s p e)) else none
        | _ => none
      if p.isEcho then (updateFirst handle w.sessions).getD w.sessions else w.sessions
  | .udp p e =>
      let handle : NgSession → Option NgSession
        | .udp s => if p.belongs s then some (.udp (Native.handleUdp s p e)) else none
        | _ => none
      (updateFirst handle w.sessions).getD w.sessions
  | .tcp p e =>
      let handle : NgSession → Option NgSession
        | .tcp s => if p.belongs s then some (.tcp (tcpStep s (.packet p e))) else none
        | _ => none
      (updateFirst handle w.sessions).getD w.sessions
  | .block _ _ _ => w.sessions
  | .event i e => w.sessions.modify i (checkSocket · e)
  | .monitor e => (w.monitor e).sessions
  | .sweep e => w.sessions.mapIdx fun i s => (checkSession s (e i)).1
  | .allowed writeOk => w.sessions.mapIdx fun i s => (stopSession s (writeOk i)).1

theorem after_changes (w : World) (op : NgOp) : List.Forall₂ (Changes op) w.sessions (w.after op) := by
  have hrefl : List.Forall₂ (Changes op) w.sessions w.sessions := List.forall₂_same.2 fun t _ => .refl t
  cases op with
  | icmp p e =>
      simp only [World.after]
      split
      · cases hu : updateFirst _ w.sessions with
        | none => exact hrefl
        | some l =>
            refine updateFirst_changes hu fun s s' hs => ?_
            cases s with
            | icmp s =>
                simp only [Option.ite_none_right_eq_some, Option.some.injEq] at hs
                obtain ⟨hb, rfl⟩ := hs
                exact .icmpPacket rfl hb
            | udp s => cases hs
            | tcp s => cases hs
      · exact hrefl
  | udp p e =>
      simp only [World.after]
      cases hu : updateFirst _ w.sessions with
      | none => exact hrefl
      | some l =>
          refine updateFirst_changes hu fun s s' hs => ?_
          cases s with
          | udp s =>
              simp only [Option.ite_none_right_eq_some, Option.some.injEq] at hs
              obtain ⟨hb, rfl⟩ := hs
              exact .udpPacket rfl hb
          | icmp s => cases hs
          | tcp s => cases hs
  | tcp p e =>
      simp only [World.after]
      cases hu : updateFirst _ w.sessions with
      | none => exact hrefl
      | some l =>
          refine updateFirst_changes hu fun s s' hs => ?_
          cases s with
          | tcp s =>
              simp only [Option.ite_none_right_eq_some, Option.some.injEq] at hs
              obtain ⟨hb, rfl⟩ := hs
              exact .tcpPacket rfl hb
          | icmp s => cases hs
          | udp s => cases hs
  | block p now memory => exact hrefl
  | event i e => exact modify_changes fun s => checkSocket_changes s e
  | monitor e =>
      refine mapIdx_changes fun i s => ?_
      cases s with
      | tcp s => exact .tcpOther (.monitor (e i)) fun _ _ h => by cases h
      | icmp s => exact .refl _
      | udp s => exact .refl _
  | sweep e => exact mapIdx_changes fun i s => checkSession_changes s (e i)
  | allowed writeOk => exact mapIdx_changes fun i s => stopSession_changes s (writeOk i)

/-- Everything a step can do to the list. -/
theorem ngStep_cases (w : World) (op : NgOp) :
    (ngStep w op).sessions.Sublist (w.after op) ∨
      ∃ s, Opens op s ∧ NgSession.Unknown w.sessions op ∧ w.after op = w.sessions ∧
        (ngStep w op).sessions = s :: w.sessions := by
  cases op with
  | icmp p e =>
      simp only [ngStep, World.handleIcmp, World.after]
      split
      · rename_i he
        cases hu : updateFirst _ w.sessions with
        | some l => exact .inl (List.Sublist.refl _)
        | none =>
            simp only []
            split
            · rename_i s hnew
              refine .inr ⟨_, .icmp he hnew, fun t ht => ?_, rfl, rfl⟩
              have := updateFirst_eq_none.1 hu _ ht
              simpa using this
            · exact .inl (List.Sublist.refl _)
      · exact .inl (List.Sublist.refl _)
  | udp p e =>
      simp only [ngStep, World.handleUdp, World.after]
      cases hu : updateFirst _ w.sessions with
      | some l => exact .inl (List.Sublist.refl _)
      | none =>
          simp only []
          split
          · rename_i s hnew
            refine .inr ⟨_, .udp hnew, fun t ht => ?_, rfl, rfl⟩
            have := updateFirst_eq_none.1 hu _ ht
            simpa using this
          · exact .inl (List.Sublist.refl _)
  | tcp p e =>
      simp only [ngStep, World.handleTcp, World.after]
      cases hu : updateFirst _ w.sessions with
      | some l => exact .inl (List.Sublist.refl _)
      | none =>
          simp only []
          split
          · rename_i s hnew
            refine .inr ⟨_, .tcp hnew, fun t ht => ?_, rfl, rfl⟩
            have := updateFirst_eq_none.1 hu _ ht
            simpa using this
          · split
            · exact .inl (List.Sublist.refl _)
            · exact .inl (List.Sublist.refl _)
  | block p now memory => exact .inr ⟨_, .block, trivial, rfl, rfl⟩
  | event i e => exact .inl (List.Sublist.refl _)
  | monitor e => exact .inl (List.Sublist.refl _)
  | sweep e => exact .inl (unlink_sublist (fun i s => checkSession s (e i)) w.sessions)
  | allowed writeOk => exact .inl (unlink_sublist (fun i s => stopSession s (writeOk i)) w.sessions)

/-- The session of a packet of no session is registered. -/
theorem ngStep_opens (h : Opens op s) (hu : NgSession.Unknown w.sessions op) :
    (ngStep w op).sessions = s :: w.sessions := by
  cases h with
  | icmp he h =>
      simp only [ngStep, World.handleIcmp, he, if_true]
      rw [updateFirst_eq_none.2, h]
      intro t ht
      cases t with
      | icmp t => simp [hu t ht]
      | udp t => rfl
      | tcp t => rfl
  | udp h =>
      simp only [ngStep, World.handleUdp]
      rw [updateFirst_eq_none.2, h]
      intro t ht
      cases t with
      | udp t => simp [hu t ht]
      | icmp t => rfl
      | tcp t => rfl
  | tcp h =>
      simp only [ngStep, World.handleTcp]
      rw [updateFirst_eq_none.2, h]
      intro t ht
      cases t with
      | tcp t => simp [hu t ht]
      | icmp t => rfl
      | udp t => rfl
  | block => rfl

/-! ## Runs -/

theorem mem_of_forall₂ {R : NgSession → NgSession → Prop} (h : List.Forall₂ R l l') (hs : s' ∈ l') :
    ∃ s ∈ l, R s s' := by
  induction h with
  | nil => cases hs
  | @cons a b l l' hab _ ih =>
      rcases List.mem_cons.1 hs with rfl | hs
      · exact ⟨a, List.mem_cons_self, hab⟩
      · obtain ⟨s, hmem, hR⟩ := ih hs
        exact ⟨s, List.mem_cons_of_mem _ hmem, hR⟩

/-- What every registered session has from the start and keeps, all sessions of a reachable list have. -/
theorem forall_of_run {I : NgSession → Prop} {ok : NgOp → Prop} {ops : List NgOp}
    (ho : ∀ op s, ok op → Opens op s → I s) (hc : ∀ op s s', ok op → Changes op s s' → I s → I s')
    (h : Run ngStep (fun _ op => ok op) World.init ops w) : ∀ s ∈ w.sessions, I s := by
  refine h.invariant' (I := fun w => ∀ s ∈ w.sessions, I s) (by simp [World.init]) fun w op hI hok s' hs' => ?_
  rcases ngStep_cases w op with hsub | ⟨s, hnew, -, -, heq⟩
  · obtain ⟨s, hs, hch⟩ := mem_of_forall₂ (after_changes w op) (hsub.subset hs')
    exact hc op s s' hok hch (hI s hs)
  · rw [heq] at hs'
    rcases List.mem_cons.1 hs' with rfl | hs'
    · exact ho op _ hok hnew
    · exact hI s' hs'

end TunProxy.Native
