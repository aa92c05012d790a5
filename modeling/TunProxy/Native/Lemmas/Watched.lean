import TunProxy.Native.Lemmas.Loop
import TunProxy.Native.Theorems.Descriptors
import TunProxy.Native.Thread

/-!
# The descriptors in the epoll set

A call leaves the descriptor of its session open, or closes that one. So every descriptor in the set is that of the
session it leads to, before and after the call.
-/

namespace TunProxy.Native

open Lib Lib.Linked

variable {op : NgOp} {s s' : NgSession} {interest : List (Int × Nat)} {cells l₁ l₂ : List (Nat × NgSession)} {a : Nat}
  {ph ph' : Phase} {u u' old : TcpSession} {topOp : TcpOp}

/-! ## The calls made -/

theorem Move.io_prefix (hm : Move old topOp (ph, u) (ph', u')) : u.io <+: u'.io := by
  cases hm with
  | note hio =>
      obtain ⟨calls, rfl, -⟩ := hio
      exact List.prefix_append _ _
  | rst ok hl =>
      rw [writeRst_eq]
      exact List.prefix_append _ _
  | early hop hu hd hn hq =>
      rw [queueTcp_eq]
  | queue hop ht hdata hs hw hq =>
      rw [queueTcp_eq]
  | data hop ho hs hw hb ok => exact (List.prefix_append _ _).trans (List.prefix_append _ _)
  | eof hop ho hs hf ok => exact (List.prefix_append _ _).trans (List.prefix_append _ _)
  | eofQueued hop ho hs hf ok => exact (List.prefix_append _ _).trans (List.prefix_append _ _)
  | close hop hs =>
      simp only []
      split
      · exact List.prefix_append _ _
      · exact List.prefix_rfl
  | window hop => exact List.prefix_rfl
  | drop h => exact List.prefix_rfl
  | connect hop hd hu hp hn hs => exact List.prefix_rfl
  | finQueued hop ht hr hc hsyn hfin hs hf hb => exact List.prefix_rfl
  | ackAll hop ht hr ha hc => exact List.prefix_rfl
  | ackPrevious hop ht ha hl hp => exact List.prefix_rfl
  | proxied hop ho hs hn => exact List.prefix_rfl
  | _ => exact List.prefix_append _ _

theorem tcpStep_io_extends (u : TcpSession) (topOp : TcpOp) : u.io <+: (tcpStep u topOp).io := by
  obtain ⟨ph, hs⟩ := tcpStep_invariant topOp (s := u) (I := fun x => u.io <+: x.2.io) List.prefix_rfl
    fun _ _ hx hm => hx.trans hm.io_prefix
  exact hs

section Icmp

variable {s : IcmpSession}

theorem handleIcmp_io_extends (s : IcmpSession) (p : IcmpPkt) (e : IcmpEnv) : s.io <+: (handleIcmp s p e).io := by
  simp only [handleIcmp]
  split
  · exact List.prefix_append _ _
  · exact List.prefix_append _ _

theorem checkIcmpSocket_io_extends (s : IcmpSession) (e : DatagramEnv) : s.io <+: (checkIcmpSocket s e).io := by
  unfold checkIcmpSocket
  split
  · exact List.prefix_rfl
  · split
    · simp only []
      split
      · split
        · exact List.prefix_rfl
        · exact List.prefix_rfl
      · exact List.prefix_rfl
      · split
        · exact (List.prefix_append _ _).trans (List.prefix_append _ _)
        · exact (List.prefix_append _ _).trans (List.prefix_append _ _)
    · exact List.prefix_rfl

theorem checkIcmpSession_io_extends (s : IcmpSession) (e : CheckEnv) : s.io <+: (checkIcmpSession s e).1.io := by
  unfold checkIcmpSession
  split
  · exact List.prefix_append _ _
  · exact List.prefix_rfl

end Icmp

section Udp

variable {s t u : UdpSession}

/-- From `s` to `t`, calls were made, and no session was blocked. -/
structure UdpFollows (s t : UdpSession) : Prop where
  io : s.io <+: t.io
  blocked : t.state = .blocked → s.state = .blocked

theorem UdpFollows.refl (s : UdpSession) : UdpFollows s s := ⟨List.prefix_rfl, id⟩

theorem UdpFollows.trans (h : UdpFollows s t) (h' : UdpFollows t u) : UdpFollows s u :=
  ⟨h.io.trans h'.io, h.blocked ∘ h'.blocked⟩

theorem checkDhcp_follows {data : Bytes} {ok : Bool} (h : checkDhcp s data ok = some t) : UdpFollows s t := by
  unfold checkDhcp at h
  split at h
  · cases h
  · split at h
    · cases h
    · split at h
      · cases h
      · split at h
        · cases h
          exact ⟨(List.prefix_append _ _).trans (List.prefix_append _ _), id⟩
        · cases h
          exact .refl s

theorem handleUdp_follows (s : UdpSession) (p : UdpPkt) (e : UdpEnv) : UdpFollows s (handleUdp s p e) := by
  unfold handleUdp
  split
  · exact .refl s
  · unfold forwardUdp
    split
    · exact ⟨List.prefix_append _ _, id⟩
    · split
      · rename_i t hdhcp
        split at hdhcp
        · exact checkDhcp_follows hdhcp
        · cases hdhcp
      · simp only []
        split
        · split
          · exact ⟨List.prefix_append _ _, fun h => by cases h⟩
          · exact ⟨List.prefix_append _ _, id⟩
        · exact ⟨List.prefix_append _ _, id⟩

theorem checkUdpSocket_follows (s : UdpSession) (e : DatagramEnv) : UdpFollows s (checkUdpSocket s e) := by
  unfold checkUdpSocket
  split
  · exact ⟨List.prefix_rfl, fun h => by cases h⟩
  · split
    · simp only []
      split
      · split
        · exact ⟨List.prefix_rfl, fun h => by cases h⟩
        · exact ⟨List.prefix_rfl, id⟩
      · exact ⟨List.prefix_rfl, fun h => by cases h⟩
      · rename_i bytes _ _
        have hio : ∀ call, s.io <+: s.io ++ [.recv bytes] ++ [call] := fun _ =>
          (List.prefix_append _ _).trans (List.prefix_append _ _)
        split
        · exact ⟨hio _, id⟩
        · split
          · exact ⟨hio _, fun h => by cases h⟩
          · split
            · exact ⟨hio _, fun h => by cases h⟩
            · exact ⟨hio _, id⟩
    · exact .refl s

theorem checkUdpSession_follows (s : UdpSession) (e : CheckEnv) : UdpFollows s (checkUdpSession s e).1 := by
  have htimeout : UdpFollows s (checkUdpTimeout s e) := by
    unfold checkUdpTimeout
    split
    · exact ⟨List.prefix_rfl, fun h => by cases h⟩
    · exact .refl s
  have hfinished : UdpFollows (checkUdpTimeout s e) (checkUdpFinished (checkUdpTimeout s e) e) := by
    unfold checkUdpFinished
    split
    · exact ⟨List.prefix_append _ _, fun h => by cases h⟩
    · exact .refl _
  have hboth := htimeout.trans hfinished
  simp only [checkUdpSession]
  split
  · exact hboth.trans ⟨List.prefix_rfl, id⟩
  · exact hboth

theorem stopUdp_follows (s : UdpSession) : UdpFollows s (stopUdp s).1 := by
  unfold stopUdp
  split
  · exact ⟨List.prefix_rfl, fun h => by cases h⟩
  · split
    · exact .refl s
    · exact .refl s

end Udp

/-! ## The descriptor -/

def NgSession.isBlocked : NgSession → Bool
  | .udp s => s.state = .blocked
  | _ => false

/-- From `s` to `s'`, calls were made, and no session was blocked. -/
structure Follows (s s' : NgSession) : Prop where
  io : s.io <+: s'.io
  blocked : s'.isBlocked = true → s.isBlocked = true

theorem UdpFollows.follows {s t : UdpSession} (h : UdpFollows s t) : Follows (.udp s) (.udp t) :=
  ⟨h.io, by simpa [NgSession.isBlocked] using h.blocked⟩

theorem Changes.follows (h : Changes op s s') : Follows s s' := by
  cases h with
  | refl => exact ⟨List.prefix_rfl, id⟩
  | icmpPacket hop hb => exact ⟨handleIcmp_io_extends _ _ _, id⟩
  | icmpSocket s e => exact ⟨checkIcmpSocket_io_extends s e, id⟩
  | icmpCheck s e => exact ⟨checkIcmpSession_io_extends s e, id⟩
  | icmpStop s => exact ⟨List.prefix_rfl, id⟩
  | udpPacket hop hb => exact (handleUdp_follows _ _ _).follows
  | udpSocket s e => exact (checkUdpSocket_follows s e).follows
  | udpCheck s e => exact (checkUdpSession_follows s e).follows
  | udpStop s => exact (stopUdp_follows s).follows
  | tcpPacket hop hb => exact ⟨tcpStep_io_extends _ _, id⟩
  | tcpOther op' hop => exact ⟨tcpStep_io_extends _ _, id⟩

/-- The session has its descriptor open, or has closed it. -/
def NgSession.Sound (s : NgSession) : Prop := HoldsFd s.socket s.io ∨ ClosedFd s.socket s.io

theorem NgSession.Released.sound (h : s.Released) (hb : s.isBlocked = false) : s.Sound := by
  rcases h with hclosed | ⟨-, -, u, rfl, hu⟩
  · exact .inr hclosed
  · simp [NgSession.isBlocked, hu] at hb

theorem NgSession.Ok.sound (h : s.Ok) (hb : s.isBlocked = false) : s.Sound := by
  rcases h.holds_or_released with hholds | hreleased
  · exact .inl hholds
  · exact hreleased.sound hb

/-- A call closes the descriptor of its session, or no descriptor. -/
inductive FdCase (s s' : NgSession) : Prop
  | kept (hsocket : s'.socket = s.socket) (hcalls : ∀ fd, Io.close fd ∉ s'.callsSince s)
  | closed (ho : 0 ≤ s.socket) (hsocket : s'.socket = -1) (hcalls : ∀ fd, Io.close fd ∈ s'.callsSince s ↔ fd = s.socket)

theorem fdCase (hs : s.Sound) (hs' : s'.Sound) (hio : s.io <+: s'.io) : FdCase s s' := by
  obtain ⟨calls, hcalls⟩ := hio
  have hsince : s'.callsSince s = calls := by rw [NgSession.callsSince, ← hcalls, List.drop_left]
  have hfilter : s'.io.filter Io.isFd = s.io.filter Io.isFd ++ calls.filter Io.isFd := by
    rw [← hcalls, List.filter_append]
  have hmem : ∀ fd, Io.close fd ∈ calls ↔ Io.close fd ∈ calls.filter Io.isFd := by
    intro fd
    simp [Io.isFd]
  rcases hs with ⟨ho, hfd⟩ | ⟨hneg, fd, hfd, hclosed⟩
  · rw [hfd] at hfilter
    rcases hs' with ⟨-, hfd'⟩ | ⟨hneg', fd', -, hclosed'⟩
    · rw [hfd'] at hfilter
      simp only [List.singleton_append, List.cons.injEq, Io.open.injEq] at hfilter
      refine .kept hfilter.1 fun fd => ?_
      simp [hsince, hmem, ← hfilter.2]
    · rw [hclosed'] at hfilter
      simp only [List.singleton_append, List.cons.injEq, Io.open.injEq] at hfilter
      refine .closed ho hneg' fun fd => ?_
      simp [hsince, hmem, ← hfilter.2, hfilter.1]
  · rw [hclosed] at hfilter
    rcases hs' with ⟨-, hfd'⟩ | ⟨hneg', fd', -, hclosed'⟩
    · rw [hfd'] at hfilter
      simp at hfilter
    · rw [hclosed'] at hfilter
      simp only [List.cons_append, List.nil_append, List.cons.injEq] at hfilter
      refine .kept (hneg'.trans hneg.symm) fun fd => ?_
      simp [hsince, hmem, ← hfilter.2.2]

/-! ## The set and the list -/

/-- Every descriptor in the set is that of the session it leads to, and no two sessions share one. -/
structure Watched (interest : List (Int × Nat)) (cells : List (Nat × NgSession)) : Prop where
  nodup : interest.Nodup
  points : ∀ x ∈ interest, 0 ≤ x.1 ∧ ∃ s, (x.2, s) ∈ cells ∧ s.socket = x.1
  sockets : cells.Pairwise fun x y => 0 ≤ x.2.socket → x.2.socket ≠ y.2.socket

theorem Watched.empty (h : Watched interest cells) : Watched [] cells := ⟨List.nodup_nil, by simp, h.sockets⟩

/-- The sockets of the other sessions differ from that of the session at `a`. -/
theorem Watched.other (h : Watched interest (l₁ ++ (a, s) :: l₂)) (ho : 0 ≤ s.socket) {x : Nat × NgSession}
    (hx : x ∈ l₁ ∨ x ∈ l₂) : x.2.socket ≠ s.socket := by
  have hp := h.sockets
  rw [List.pairwise_append, List.pairwise_cons] at hp
  obtain ⟨-, ⟨h₂, -⟩, h₁⟩ := hp
  rcases hx with hx | hx
  · intro heq
    exact h₁ x hx (a, s) List.mem_cons_self (heq ▸ ho) heq
  · exact (h₂ x hx ho).symm

/-- The descriptors that a call leaves in the set. -/
theorem mem_watch {calls : List Io} {x : Int × Nat} : x ∈ watch interest calls ↔ x ∈ interest ∧ .close x.1 ∉ calls := by
  simp [watch]

/-- The session at `a` after a call; where it is removed, its socket is closed. -/
theorem Watched.call (h : Watched interest (l₁ ++ (a, s) :: l₂)) (hf : FdCase s s') :
    Watched (watch interest (s'.callsSince s)) (l₁ ++ (a, s') :: l₂) := by
  have hp := h.sockets
  rw [List.pairwise_append, List.pairwise_cons] at hp
  obtain ⟨hp₁, ⟨h₂, hp₂⟩, h₁⟩ := hp
  have hsub : s'.socket = s.socket ∨ s'.socket = -1 := by
    cases hf with
    | kept hsocket hcalls => exact .inl hsocket
    | closed ho hsocket hcalls => exact .inr hsocket
  constructor
  · exact h.nodup.filter _
  · intro x hx
    rw [mem_watch] at hx
    obtain ⟨ho, t, ht, htx⟩ := h.points x hx.1
    refine ⟨ho, ?_⟩
    simp only [List.mem_append, List.mem_cons] at ht ⊢
    rcases ht with ht | ht | ht
    · exact ⟨t, .inl ht, htx⟩
    · simp only [Prod.mk.injEq] at ht
      obtain ⟨hxa, rfl⟩ := ht
      cases hf with
      | kept hsocket hcalls => exact ⟨s', .inr (.inl (by rw [hxa])), hsocket.trans htx⟩
      | closed _ hsocket hcalls => exact absurd ((hcalls x.1).2 htx.symm) hx.2
    · exact ⟨t, .inr (.inr ht), htx⟩
  · rw [List.pairwise_append, List.pairwise_cons]
    refine ⟨hp₁, ⟨fun y hy ho => ?_, hp₂⟩, fun x hx y hy ho => ?_⟩
    · rcases hsub with hsub | hsub
      · rw [hsub] at ho ⊢
        exact h₂ y hy ho
      · rw [hsub] at ho
        omega
    · rcases List.mem_cons.1 hy with rfl | hy
      · have hne := h₁ x hx (a, s) List.mem_cons_self ho
        rcases hsub with hsub | hsub
        · rw [hsub]
          exact hne
        · rw [hsub]
          omega
      · exact h₁ x hx y (List.mem_cons_of_mem _ hy) ho

/-- A session without a socket is unlinked. -/
theorem Watched.unlink (h : Watched interest (l₁ ++ (a, s) :: l₂)) (hs : s.socket = -1) :
    Watched interest (l₁ ++ l₂) := by
  refine ⟨h.nodup, fun x hx => ?_, h.sockets.sublist (List.Sublist.append_left (List.sublist_cons_self _ _) l₁)⟩
  obtain ⟨ho, t, ht, htx⟩ := h.points x hx
  refine ⟨ho, t, ?_, htx⟩
  simp only [List.mem_append, List.mem_cons, Prod.mk.injEq] at ht ⊢
  rcases ht with ht | ⟨-, rfl⟩ | ht
  · exact .inl ht
  · omega
  · exact .inr ht

/-- A new session, with a descriptor that no other session has. -/
theorem Watched.register (h : Watched interest cells) (added : Bool) (ho : 0 ≤ s.socket)
    (hnew : ∀ x ∈ cells, x.2.socket ≠ s.socket) :
    Watched (if added then (s.socket, a) :: interest else interest) ((a, s) :: cells) := by
  have hpoints : ∀ x ∈ interest, 0 ≤ x.1 ∧ ∃ t, (x.2, t) ∈ (a, s) :: cells ∧ t.socket = x.1 := by
    intro x hx
    obtain ⟨hox, t, ht, htx⟩ := h.points x hx
    exact ⟨hox, t, List.mem_cons_of_mem _ ht, htx⟩
  have hsockets : ((a, s) :: cells).Pairwise fun x y => 0 ≤ x.2.socket → x.2.socket ≠ y.2.socket :=
    List.pairwise_cons.2 ⟨fun y hy _ => (hnew y hy).symm, h.sockets⟩
  cases added with
  | false => exact ⟨h.nodup, hpoints, hsockets⟩
  | true =>
      refine ⟨List.nodup_cons.2 ⟨fun hmem => ?_, h.nodup⟩, ?_, hsockets⟩
      · obtain ⟨-, t, ht, htx⟩ := h.points _ hmem
        exact hnew _ ht htx
      · rw [if_pos rfl, List.forall_mem_cons]
        exact ⟨⟨ho, s, List.mem_cons_self, rfl⟩, hpoints⟩

/-- Only addresses and sockets matter. -/
theorem Watched.congr {cells' : List (Nat × NgSession)} (h : Watched interest cells)
    (heq : cells'.map (fun x => (x.1, x.2.socket)) = cells.map fun x => (x.1, x.2.socket)) :
    Watched interest cells' := by
  refine ⟨h.nodup, fun x hx => ?_, ?_⟩
  · obtain ⟨ho, s, hs, hsx⟩ := h.points x hx
    have hmem := List.mem_map_of_mem (f := fun x : Nat × NgSession => (x.1, x.2.socket)) hs
    rw [← heq, List.mem_map] at hmem
    obtain ⟨⟨a, s'⟩, hs', hxs⟩ := hmem
    simp only [Prod.mk.injEq] at hxs
    obtain ⟨rfl, hsocket⟩ := hxs
    exact ⟨ho, s', hs', hsocket.trans hsx⟩
  · have hp := (List.pairwise_map (f := fun x : Nat × NgSession => (x.1, x.2.socket))
      (R := fun x y => 0 ≤ x.2 → x.2 ≠ y.2)).2 h.sockets
    rw [← heq] at hp
    exact List.pairwise_map.1 hp

/-- Every open socket is in the set. -/
def Covers (interest : List (Int × Nat)) (cells : List (Nat × NgSession)) : Prop :=
  ∀ x ∈ cells, 0 ≤ x.2.socket → (x.2.socket, x.1) ∈ interest

theorem Covers.congr {cells' : List (Nat × NgSession)} (h : Covers interest cells)
    (heq : cells'.map (fun x => (x.1, x.2.socket)) = cells.map fun x => (x.1, x.2.socket)) :
    Covers interest cells' := by
  intro x hx ho
  have hmem := List.mem_map_of_mem (f := fun x : Nat × NgSession => (x.1, x.2.socket)) hx
  rw [heq, List.mem_map] at hmem
  obtain ⟨y, hy, hxy⟩ := hmem
  simp only [Prod.mk.injEq] at hxy
  rw [← hxy.2] at ho
  rw [← hxy.1, ← hxy.2]
  exact h y hy ho

theorem Covers.call (h : Covers interest (l₁ ++ (a, s) :: l₂)) (hw : Watched interest (l₁ ++ (a, s) :: l₂))
    (hf : FdCase s s') : Covers (watch interest (s'.callsSince s)) (l₁ ++ (a, s') :: l₂) := by
  intro x hx ho
  rw [mem_watch]
  simp only [List.mem_append, List.mem_cons] at hx
  have hother : x ∈ l₁ ∨ x ∈ l₂ →
      (x.2.socket, x.1) ∈ interest ∧ Io.close x.2.socket ∉ s'.callsSince s := by
    intro hx
    refine ⟨h x ?_ ho, ?_⟩
    · rcases hx with hx | hx
      · exact List.mem_append_left _ hx
      · exact List.mem_append_right _ (List.mem_cons_of_mem _ hx)
    · cases hf with
      | kept hsocket hcalls => exact hcalls _
      | closed hs hsocket hcalls => exact fun hmem => hw.other hs hx ((hcalls _).1 hmem)
  rcases hx with hx | rfl | hx
  · exact hother (.inl hx)
  · cases hf with
    | kept hsocket hcalls =>
        rw [hsocket] at ho ⊢
        exact ⟨h (a, s) (by simp) ho, hcalls _⟩
    | closed hs hsocket hcalls =>
        rw [hsocket] at ho
        omega
  · exact hother (.inr hx)

theorem Covers.mono (h : Covers interest cells) {cells' : List (Nat × NgSession)} (hsub : cells' ⊆ cells) :
    Covers interest cells' := fun x hx => h x (hsub hx)

/-! ## The loops that unlink sessions -/

/-- What the loop works on beside the sessions: each check may close the socket of its session. -/
abbrev checkBody (check : Nat → NgSession → NgSession × Bool) (i : Nat) (s : NgSession) (interest : List (Int × Nat)) :=
  (check i s, watch interest ((check i s).1.callsSince s))

/-- A session is checked; where it is removed, its socket is closed. -/
def Frees (check : Nat → NgSession → NgSession × Bool) (s : NgSession) : Prop :=
  ∀ i, FdCase s (check i s).1 ∧ ((check i s).2 = true → (check i s).1.socket = -1)

theorem watched_unlinkList (check : Nat → NgSession → NgSession × Bool) (passed : List (Nat × NgSession)) (i : Nat)
    {rest : List (Nat × NgSession)} (h : Watched interest (passed ++ rest)) (hc : ∀ x ∈ rest, Frees check x.2) :
    Watched (unlinkList (checkBody check) i interest rest).2
        (passed ++ (unlinkList (checkBody check) i interest rest).1) ∧
      (Covers interest (passed ++ rest) →
        Covers (unlinkList (checkBody check) i interest rest).2
          (passed ++ (unlinkList (checkBody check) i interest rest).1)) := by
  induction rest generalizing passed interest i with
  | nil => exact ⟨h, id⟩
  | cons x rest ih =>
      obtain ⟨a, s⟩ := x
      rw [List.forall_mem_cons] at hc
      obtain ⟨hf, hdel⟩ := hc.1 i
      have hcall := h.call hf
      have hcover := fun hi : Covers interest (passed ++ (a, s) :: rest) => hi.call h hf
      simp only [unlinkList]
      cases hd : (check i s).2 with
      | true =>
          have hgone := hcall.unlink (hdel hd)
          obtain ⟨hw, hi⟩ := ih _ (i + 1) hgone hc.2
          refine ⟨hw, fun hall => hi ((hcover hall).mono fun x hx => ?_)⟩
          simp only [List.mem_append, List.mem_cons] at hx ⊢
          rcases hx with hx | hx
          · exact .inl hx
          · exact .inr (.inr hx)
      | false =>
          rw [List.append_cons] at hcall
          obtain ⟨hw, hi⟩ := ih _ (i + 1) hcall hc.2
          simp only [Bool.false_eq_true, ↓reduceIte]
          rw [List.append_cons]
          refine ⟨hw, fun hall => hi ?_⟩
          rw [← List.append_cons]
          exact hcover hall

end TunProxy.Native
