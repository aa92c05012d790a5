import Mathlib.Data.List.Pairwise
import TunProxy.Native.Lemmas.Rounds
import TunProxy.Native.Lemmas.Session
import TunProxy.Native.Tcp.Lemmas.Coherent

/-!
# Sessions are found by their keys

The handlers look for a session before they register one. So no two sessions that can be found have the same key, as
long as no key changes. Only `check_dhcp` changes one, where it answers a request; it then writes behind its block, too.
-/

namespace TunProxy.Native

open Lib

variable {w : World} {op : NgOp} {s s' t : NgSession} {l l' : List NgSession}

/-! ## Keys -/

/-- What the lookups compare. -/
inductive Key
  | icmp (version : Nat) (saddr daddr : Bytes)
  | udp (version : Nat) (saddr : Bytes) (source : BitVec 16) (daddr : Bytes) (dest : BitVec 16)
  | tcp (version : Nat) (saddr : Bytes) (source : BitVec 16) (daddr : Bytes) (dest : BitVec 16)
  deriving DecidableEq, Repr

def NgSession.key : NgSession → Key
  | .icmp s => .icmp s.version s.saddr s.daddr
  | .udp s => .udp s.version s.saddr s.source s.daddr s.dest
  | .tcp s => .tcp s.version s.saddr s.source s.daddr s.dest

/-- Whether the lookups take the session into account. -/
def NgSession.findable : NgSession → Bool
  | .icmp s => !s.stop
  | .udp _ | .tcp _ => true

/-- The key of the packet of a step. -/
def NgOp.key : NgOp → Option Key
  | .icmp p _ => some (.icmp p.version p.saddr p.daddr)
  | .udp p _ => some (.udp p.version p.saddr p.source p.daddr p.dest)
  | .tcp p _ => some (.tcp p.version p.saddr p.source p.daddr p.dest)
  | _ => none

/-- No key is that of two sessions. -/
def World.Unique (w : World) : Prop :=
  w.sessions.Pairwise fun s t => s.findable = true → t.findable = true → s.key ≠ t.key

/-- The sessions of the list keep their keys, and a new one has the key of the packet. -/
def World.KeysKept (w : World) (op : NgOp) : Prop :=
  (w.after op).map NgSession.key = w.sessions.map NgSession.key ∧
    ∀ s, (ngStep w op).sessions = s :: w.sessions → op.key = some s.key

/-! ## DHCP -/

/-- The step gives `check_dhcp` a request that it answers, for an active session or for one that is registered. -/
def World.AnswersDhcp (w : World) : NgOp → Prop
  | .udp p e =>
      p.isDhcpRequest = true ∧ p.ReadEnds e.behind ∧
        ((∃ s, .udp s ∈ w.sessions ∧ p.belongs s = true ∧ s.state = .active) ∨
          NgSession.Unknown w.sessions (.udp p e) ∧ 0 ≤ e.socket)
  | _ => False

/-- For no UDP session, a write went behind the end of a block. -/
def World.InBlocks (w : World) : Prop := ∀ s, .udp s ∈ w.sessions → ∀ c ∈ s.io, c.leavesBlock = false

/-- A step of `handle_events`: nothing calls `block_udp`. -/
def NgOp.Handled : NgOp → Prop
  | .block _ _ _ => False
  | _ => True

section Udp

variable {u : UdpSession} {p : UdpPkt} {e : UdpEnv}

theorem belongs_saddr (hb : p.belongs u = true) : u.saddr = p.saddr := (of_decide_eq_true hb).2.2.2.1

/-- What `handle_udp` does with a request that `check_dhcp` answers. -/
theorem handleUdp_answers (hs : u.state = .active) (hread : p.ReadEnds e.behind) (hp : p.isDhcpRequest = true) :
    handleUdp u p e = writeUdp { u with
      saddr := [10, 1, 10, 1] ++ u.saddr.drop 4, io := u.io ++ [.overrun 500 (240 * 240) (dhcpOptions p.data)] }
      (dhcpResponse p.data) e.writeOk := by
  obtain ⟨hport, hlen, hmagic, htype, hhlen, hop⟩ := of_decide_eq_true hp
  have hlen' : ¬p.data.length < 240 := by omega
  simp only [handleUdp, hs, ne_eq, not_true_eq_false, if_false, forwardUdp, UdpPkt.isRead_iff.2 hread,
    Bool.true_eq_false, hport, if_true, checkDhcp, hlen', hmagic, htype, hhlen, hop, or_self]

/-- The answer is written behind its block. -/
theorem handleUdp_overruns (hs : u.state = .active) (hread : p.ReadEnds e.behind) (hp : p.isDhcpRequest = true) :
    ∃ c ∈ (handleUdp u p e).io, c.leavesBlock = true := by
  refine ⟨.overrun 500 (240 * 240) (dhcpOptions p.data), ?_, rfl⟩
  rw [handleUdp_answers hs hread hp]
  simp [writeUdp]

/-- Where the request comes from another address than 10.1.10.1, the session gets another key. -/
theorem handleUdp_rewrites (hb : p.belongs u = true) (hs : u.state = .active) (hread : p.ReadEnds e.behind)
    (hp : p.isDhcpRequest = true) (hne : [10, 1, 10, 1] ++ p.saddr.drop 4 ≠ p.saddr) :
    (NgSession.udp (handleUdp u p e)).key ≠ (NgSession.udp u).key := by
  rw [handleUdp_answers hs hread hp]
  intro hkey
  simp only [NgSession.key, writeUdp, Key.udp.injEq, belongs_saddr hb] at hkey
  exact hne hkey.2.1

theorem belongs_key (hb : p.belongs u = true) :
    (NgSession.udp u).key = .udp p.version p.saddr p.source p.daddr p.dest := by
  simp only [UdpPkt.belongs, decide_eq_true_eq] at hb
  simp only [NgSession.key, hb]

theorem handleUdpNew_key (h : handleUdpNew p e = some u) :
    (NgSession.udp u).key = .udp p.version p.saddr p.source p.daddr p.dest ∧ p.belongs u = true ∧
      u.state = .active ∧ 0 ≤ e.socket := by
  unfold handleUdpNew at h
  split at h
  · cases h
  · rename_i hopen
    cases h
    exact ⟨rfl, by simp [UdpPkt.belongs], rfl, by omega⟩

theorem handleUdpNew_isSome (h : 0 ≤ e.socket) : ∃ u, handleUdpNew p e = some u := by
  have hopen : ¬e.socket < 0 := by omega
  exact ⟨_, if_neg hopen⟩

/-- After the calls, too, nothing was written behind a block. -/
theorem inBlocks_append {calls : List Io} (h : ∀ c ∈ u.io, c.leavesBlock = false)
    (hcalls : ∀ c ∈ calls, c.leavesBlock = false) : ∀ c ∈ u.io ++ calls, c.leavesBlock = false := by
  intro c hc
  rcases List.mem_append.1 hc with hc | hc
  · exact h c hc
  · exact hcalls c hc

theorem checkUdpSocket_inBlocks (e : DatagramEnv) (h : ∀ c ∈ u.io, c.leavesBlock = false) :
    ∀ c ∈ (checkUdpSocket u e).io, c.leavesBlock = false := by
  have hcalls : ∀ bytes call, call.leavesBlock = false →
      ∀ c ∈ u.io ++ [.recv bytes] ++ [call], c.leavesBlock = false := by
    intro bytes call hcall
    rw [List.append_assoc]
    refine inBlocks_append h fun c hc => ?_
    simp only [List.cons_append, List.nil_append, List.mem_cons, List.not_mem_nil, or_false] at hc
    rcases hc with rfl | rfl
    · rfl
    · exact hcall
  unfold checkUdpSocket
  split
  · exact h
  · split
    · simp only []
      split
      · split
        · exact h
        · exact h
      · exact h
      · split
        · exact hcalls _ _ rfl
        · split
          · exact hcalls _ _ rfl
          · split
            · exact hcalls _ _ rfl
            · exact hcalls _ _ rfl
    · exact h

theorem checkUdpSession_inBlocks (e : CheckEnv) (h : ∀ c ∈ u.io, c.leavesBlock = false) :
    ∀ c ∈ (checkUdpSession u e).1.io, c.leavesBlock = false := by
  have htimeout : (checkUdpTimeout u e).io = u.io := by
    unfold checkUdpTimeout
    split
    · rfl
    · rfl
  have hfinished : ∀ c ∈ (checkUdpFinished (checkUdpTimeout u e) e).io, c.leavesBlock = false := by
    rw [← htimeout] at h
    unfold checkUdpFinished
    split
    · exact inBlocks_append h (by simp [Io.leavesBlock])
    · exact h
  unfold checkUdpSession
  simp only []
  split
  · exact hfinished
  · exact hfinished

theorem stopUdp_io (u : UdpSession) : (stopUdp u).1.io = u.io := by
  unfold stopUdp
  split
  · rfl
  · split
    · rfl
    · rfl

end Udp

/-! ## Other handlers -/

theorem icmp_key_congr {s s' : IcmpSession} (h : s'.fixed = s.fixed) :
    (NgSession.icmp s').key = (NgSession.icmp s).key := by
  simp only [IcmpSession.fixed, Prod.mk.injEq] at h
  simp only [NgSession.key, h]

theorem udp_key_congr {s s' : UdpSession} (h : s'.fixed = s.fixed) :
    (NgSession.udp s').key = (NgSession.udp s).key := by
  simp only [UdpSession.fixed, Prod.mk.injEq] at h
  simp only [NgSession.key, h]

theorem tcpStep_key (s : TcpSession) (op : TcpOp) : (NgSession.tcp (tcpStep s op)).key = (NgSession.tcp s).key := by
  have h := tcpStep_fixed s op
  simp only [TcpSession.fixed, Prod.mk.injEq] at h
  simp only [NgSession.key, h]

/-! ## One step -/

/-- A session with the key of before, that is found only if it was found before. -/
def Kept (s s' : NgSession) : Prop := s'.key = s.key ∧ (s'.findable = true → s.findable = true)

/-- Where the step answers no request, a packet that is read is none. -/
theorem not_request {p : UdpPkt} {e : UdpEnv} {u : UdpSession} (hw : ¬w.AnswersDhcp (.udp p e))
    (h : u.state = .active → (∃ s, .udp s ∈ w.sessions ∧ p.belongs s = true ∧ s.state = .active) ∨
      NgSession.Unknown w.sessions (.udp p e) ∧ 0 ≤ e.socket) :
    u.state = .active → p.isRead e.behind = true → p.isDhcpRequest = false := by
  intro hs hread
  by_contra hp
  exact hw ⟨by simpa using hp, UdpPkt.isRead_iff.1 hread, h hs⟩

/-- Nothing but a DHCP request changes a key. -/
theorem Changes.key (h : Changes op s s') (hs : s ∈ w.sessions) (hw : ¬w.AnswersDhcp op) : s'.key = s.key := by
  cases s with
  | icmp s =>
      cases s' with
      | icmp s' => exact icmp_key_congr h.icmp.1
      | udp s' => cases h
      | tcp s' => cases h
  | udp s =>
      cases h with
      | refl => rfl
      | udpPacket hop hb =>
          subst hop
          exact udp_key_congr (handleUdp_within (not_request hw (.inl ⟨_, hs, hb, ·⟩))).1
      | udpSocket s e => exact udp_key_congr (checkUdpSocket_kept s e).1
      | udpCheck s e => exact udp_key_congr (checkUdpSession_kept s e).1
      | udpStop s => exact udp_key_congr (stopUdp_kept s).1
  | tcp s =>
      cases h with
      | refl => rfl
      | tcpPacket hop hb => exact tcpStep_key _ _
      | tcpOther op' hop => exact tcpStep_key _ _

theorem Changes.findable (h : Changes op s s') (hf : s'.findable = true) : s.findable = true := by
  cases s with
  | icmp s =>
      cases s' with
      | icmp s' =>
          simp only [NgSession.findable, Bool.not_eq_true'] at hf ⊢
          by_contra hs
          rw [h.icmp.2 (by simpa using hs)] at hf
          cases hf
      | udp s' => cases h
      | tcp s' => cases h
  | udp s => rfl
  | tcp s => rfl

theorem handleTcpNew_key {p : TcpPkt} {e : HandleEnv} {s : TcpSession} (h : handleTcpNew p e = some s) :
    (NgSession.tcp s).key = .tcp p.version p.saddr p.source p.daddr p.dest := by
  obtain ⟨-, -, -, mss, ws, rfl⟩ := handleTcpNew_some h
  rfl

/-- A registered session has the key of its packet, unless that was a DHCP request. -/
theorem Opens.key (h : Opens op s) (hop : op.Handled) (hu : NgSession.Unknown w.sessions op)
    (hw : ¬w.AnswersDhcp op) : op.key = some s.key := by
  cases h with
  | @icmp p e s he h =>
      rw [icmp_key_congr (handleIcmp_kept s p e).1]
      unfold handleIcmpNew at h
      split at h
      · cases h
      · cases h
        rfl
  | udp h =>
      obtain ⟨hkey, -, -, hopen⟩ := handleUdpNew_key h
      rw [udp_key_congr (handleUdp_within (not_request hw fun _ => .inr ⟨hu, hopen⟩)).1, hkey]
      rfl
  | tcp h =>
      rw [handleTcpNew_key h]
      rfl
  | block => cases hop

/-- No other step writes behind a block. -/
theorem Changes.inBlocks {u u' : UdpSession} (h : Changes op (.udp u) (.udp u')) (hs : .udp u ∈ w.sessions)
    (hw : ¬w.AnswersDhcp op) (hb : ∀ c ∈ u.io, c.leavesBlock = false) : ∀ c ∈ u'.io, c.leavesBlock = false := by
  cases h with
  | refl => exact hb
  | udpPacket hop hbelongs =>
      subst hop
      obtain ⟨-, calls, hio, hcalls⟩ := handleUdp_within (not_request hw (.inl ⟨_, hs, hbelongs, ·⟩))
      rw [hio]
      exact inBlocks_append hb hcalls
  | udpSocket u e => exact checkUdpSocket_inBlocks e hb
  | udpCheck u e => exact checkUdpSession_inBlocks e hb
  | udpStop u =>
      rw [stopUdp_io]
      exact hb

theorem Opens.inBlocks {u : UdpSession} (h : Opens op (.udp u)) (hu : NgSession.Unknown w.sessions op)
    (hw : ¬w.AnswersDhcp op) : ∀ c ∈ u.io, c.leavesBlock = false := by
  cases h with
  | @udp p e u h =>
      obtain ⟨-, -, -, hopen⟩ := handleUdpNew_key h
      obtain ⟨-, calls, hio, hcalls⟩ := handleUdp_within (not_request (u := u) hw fun _ => .inr ⟨hu, hopen⟩)
      have hnew : u.io = [.open e.socket] := by
        unfold handleUdpNew at h
        split at h
        · cases h
        · cases h
          rfl
      rw [hio]
      exact inBlocks_append (by simp [hnew, Io.leavesBlock]) hcalls
  | block => simp [blockUdp]

/-- A session with the key of the packet would have been found. -/
theorem NgSession.Unknown.ne (h : NgSession.Unknown l op) {k : Key} (hk : op.key = some k) (ht : t ∈ l)
    (hf : t.findable = true) : t.key ≠ k := by
  intro heq
  subst heq
  cases op with
  | icmp p e =>
      cases t with
      | icmp t =>
          have hb := h t ht
          simp only [NgOp.key, NgSession.key, Option.some.injEq, Key.icmp.injEq] at hk
          simp only [NgSession.findable, Bool.not_eq_true'] at hf
          simp [IcmpPkt.belongs, hk, hf] at hb
      | udp t => cases hk
      | tcp t => cases hk
  | udp p e =>
      cases t with
      | udp t =>
          have hb := h t ht
          simp only [NgOp.key, NgSession.key, Option.some.injEq, Key.udp.injEq] at hk
          simp [UdpPkt.belongs, hk] at hb
      | icmp t => cases hk
      | tcp t => cases hk
  | tcp p e =>
      cases t with
      | tcp t =>
          have hb := h t ht
          simp only [NgOp.key, NgSession.key, Option.some.injEq, Key.tcp.injEq] at hk
          simp [TcpPkt.belongs, hk] at hb
      | icmp t => cases hk
      | udp t => cases hk
  | block p now memory => cases hk
  | event i e => cases hk
  | monitor e => cases hk
  | sweep e => cases hk
  | allowed writeOk => cases hk

theorem after_kept (hw : ¬w.AnswersDhcp op) : List.Forall₂ Kept w.sessions (w.after op) := by
  have h := (List.forall₂_and_left (p := (· ∈ w.sessions)) _ _).2 ⟨fun _ hs => hs, after_changes w op⟩
  exact h.imp fun s s' h => ⟨h.2.key h.1 hw, h.2.findable⟩

theorem keys_of_kept (h : List.Forall₂ Kept l l') : l'.map NgSession.key = l.map NgSession.key := by
  induction h with
  | nil => rfl
  | cons hs _ ih => rw [List.map_cons, List.map_cons, hs.1, ih]

theorem unique_of_kept (h : List.Forall₂ Kept l l')
    (hl : l.Pairwise fun s t => s.findable = true → t.findable = true → s.key ≠ t.key) :
    l'.Pairwise fun s t => s.findable = true → t.findable = true → s.key ≠ t.key := by
  induction h with
  | nil => exact .nil
  | @cons s s' l l' hs hrest ih =>
      obtain ⟨hhead, htail⟩ := List.pairwise_cons.1 hl
      refine List.pairwise_cons.2 ⟨fun t' ht' hf hf' => ?_, ih htail⟩
      obtain ⟨t, ht, hkept⟩ := mem_of_forall₂ hrest ht'
      rw [hs.1, hkept.1]
      exact hhead t ht (hs.2 hf) (hkept.2 hf')

/-- What one step keeps. -/
theorem ngStep_unique (hop : op.Handled) (hw : ¬w.AnswersDhcp op) (h : w.Unique) : (ngStep w op).Unique := by
  rcases ngStep_cases w op with hsub | ⟨s, hnew, hunknown, -, heq⟩
  · exact (unique_of_kept (after_kept hw) h).sublist hsub
  · unfold World.Unique
    rw [heq]
    refine List.pairwise_cons.2 ⟨fun t ht _ hf heq => ?_, h⟩
    exact hunknown.ne (hnew.key hop hunknown hw) ht hf heq.symm

theorem World.Unique.eq_of_key (h : w.Unique) (hs : s ∈ w.sessions) (ht : t ∈ w.sessions) (hfs : s.findable = true)
    (hft : t.findable = true) (hk : s.key = t.key) : s = t := by
  have : Std.Symm fun s t : NgSession => s.findable = true → t.findable = true → s.key ≠ t.key :=
    ⟨fun _ _ h ht hs => (h hs ht).symm⟩
  by_contra hne
  exact List.Pairwise.forall h hs ht hne hfs hft hk

theorem keysKept_of_not (hop : op.Handled) (hw : ¬w.AnswersDhcp op) : w.KeysKept op := by
  have hkept := after_kept hw
  refine ⟨keys_of_kept hkept, fun s hs => ?_⟩
  rcases ngStep_cases w op with hsub | ⟨t, hnew, hunknown, -, heq⟩
  · rw [hs] at hsub
    have hlength := hsub.length_le
    rw [← hkept.length_eq, List.length_cons] at hlength
    omega
  · rw [heq] at hs
    rw [← (List.cons.inj hs).1]
    exact hnew.key hop hunknown hw

theorem ngStep_inBlocks (hw : ¬w.AnswersDhcp op) (h : w.InBlocks) : (ngStep w op).InBlocks := by
  intro u' hu'
  have hafter : .udp u' ∈ w.after op → ∀ c ∈ u'.io, c.leavesBlock = false := by
    intro hu'
    have hchanges := (List.forall₂_and_left (p := (· ∈ w.sessions)) _ _).2 ⟨fun _ hs => hs, after_changes w op⟩
    obtain ⟨s, -, hs, hc⟩ := mem_of_forall₂ hchanges hu'
    obtain ⟨u, rfl⟩ : ∃ u, s = .udp u := by cases hc <;> exact ⟨_, rfl⟩
    exact hc.inBlocks hs hw (h u hs)
  rcases ngStep_cases w op with hsub | ⟨s, hnew, hunknown, heq, hstep⟩
  · exact hafter (hsub.subset hu')
  · rw [hstep] at hu'
    rcases List.mem_cons.1 hu' with rfl | hu'
    · exact hnew.inBlocks hunknown hw
    · exact hafter (heq ▸ hu')

/-- Where keys are unique, the request is given to an active session of the list, or to one that is registered. -/
theorem answersDhcp_cases {p : UdpPkt} {e : UdpEnv} (hu : w.Unique) (hw : w.AnswersDhcp (.udp p e)) :
    ∃ u, p.belongs u = true ∧ u.state = .active ∧
      ((∃ l₁ l₂, w.sessions = l₁ ++ .udp u :: l₂ ∧
          w.after (.udp p e) = l₁ ++ .udp (handleUdp u p e) :: l₂ ∧
          (ngStep w (.udp p e)).sessions = w.after (.udp p e)) ∨
        (ngStep w (.udp p e)).sessions = .udp (handleUdp u p e) :: w.sessions) := by
  obtain ⟨-, -, ⟨u, hmem, hb, hactive⟩ | ⟨hunknown, hopen⟩⟩ := hw
  · refine ⟨u, hb, hactive, .inl ?_⟩
    simp only [World.after, ngStep, World.handleUdp]
    generalize hfirst : updateFirst _ w.sessions = found
    cases found with
    | none =>
        have hnone := updateFirst_eq_none.1 hfirst _ hmem
        simp [hb] at hnone
    | some l =>
        obtain ⟨l₁, t, t', l₂, hl, -, ht, rfl⟩ := updateFirst_eq_some hfirst
        cases t with
        | udp t =>
            simp only [Option.ite_none_right_eq_some, Option.some.injEq] at ht
            obtain ⟨hbt, rfl⟩ := ht
            have hmem' : .udp t ∈ w.sessions := by simp [hl]
            cases hu.eq_of_key hmem' hmem rfl rfl ((belongs_key hbt).trans (belongs_key hb).symm)
            exact ⟨l₁, l₂, hl, rfl, rfl⟩
        | icmp t => cases ht
        | tcp t => cases ht
  · obtain ⟨u, hnew⟩ := handleUdpNew_isSome (p := p) hopen
    obtain ⟨-, hb, hactive, -⟩ := handleUdpNew_key hnew
    exact ⟨u, hb, hactive, .inr (ngStep_opens (.udp hnew) hunknown)⟩

/-- A request that is answered is written behind a block. -/
theorem answersDhcp_overruns (hu : w.Unique) (hw : w.AnswersDhcp op) : ¬(ngStep w op).InBlocks := by
  cases op with
  | udp p e =>
      obtain ⟨u, -, hactive, hcases⟩ := answersDhcp_cases hu hw
      obtain ⟨c, hc, hleaves⟩ := handleUdp_overruns hactive hw.2.1 hw.1
      have hmem : .udp (handleUdp u p e) ∈ (ngStep w (.udp p e)).sessions := by
        rcases hcases with ⟨l₁, l₂, -, hafter, heq⟩ | heq
        · simp [heq, hafter]
        · simp [heq]
      intro hin
      rw [hin _ hmem c hc] at hleaves
      cases hleaves
  | _ => cases hw

/-- A request from another address than 10.1.10.1 changes the key of its session. -/
theorem answersDhcp_rewrites {p : UdpPkt} {e : UdpEnv} (hu : w.Unique) (hw : w.AnswersDhcp (.udp p e))
    (hne : [10, 1, 10, 1] ++ p.saddr.drop 4 ≠ p.saddr) : ¬w.KeysKept (.udp p e) := by
  obtain ⟨u, hb, hactive, hcases⟩ := answersDhcp_cases hu hw
  have hrewrites := handleUdp_rewrites hb hactive hw.2.1 hw.1 hne
  intro hkept
  rcases hcases with ⟨l₁, l₂, hl, hafter, -⟩ | heq
  · have hkeys := hkept.1
    rw [hafter, hl, List.map_append, List.map_append, List.map_cons, List.map_cons] at hkeys
    exact hrewrites (List.cons.inj (List.append_cancel_left hkeys)).1
  · have hsame := hkept.2 _ heq
    rw [NgOp.key, ← belongs_key hb] at hsame
    exact hrewrites (Option.some.inj hsame).symm

/-! ## Runs -/

/-- As long as no DHCP request is answered, no two sessions that can be found have the same key. The next step keeps the
keys and writes behind no block exactly if it answers no such request; and one from another address than 10.1.10.1
changes a key. -/
theorem keys_unique {ops : List NgOp}
    (h : Run ngStep (fun w op => op.Handled ∧ ¬w.AnswersDhcp op) World.init ops w) :
    w.Unique ∧ (∀ op, op.Handled → (w.KeysKept op ∧ (ngStep w op).InBlocks ↔ ¬w.AnswersDhcp op)) ∧
      ∀ p e, w.AnswersDhcp (.udp p e) → [10, 1, 10, 1] ++ p.saddr.drop 4 ≠ p.saddr → ¬w.KeysKept (.udp p e) := by
  obtain ⟨hunique, hin⟩ : w.Unique ∧ w.InBlocks :=
    h.invariant' (I := fun w => w.Unique ∧ w.InBlocks) ⟨.nil, fun _ hs => by cases hs⟩ fun w op hI hok =>
      ⟨ngStep_unique hok.1 hok.2 hI.1, ngStep_inBlocks hok.2 hI.2⟩
  refine ⟨hunique, fun op hop => ⟨fun hkept hw => ?_, fun hw => ?_⟩, fun p e => answersDhcp_rewrites hunique⟩
  · exact answersDhcp_overruns hunique hw hkept.2
  · exact ⟨keysKept_of_not hop hw, ngStep_inBlocks hw hin⟩

/-- A DHCP discover. -/
def sampleDiscover (saddr : Bytes) : UdpPkt where
  version := 4
  saddr := saddr
  daddr := [255, 255, 255, 255]
  source := 68
  dest := 67
  data := [1, 1, 6, 0] ++ List.replicate 232 0 ++ [0x63, 0x82, 0x53, 0x63]

/-- The same discover twice. -/
def sampleDiscovers (saddr : Bytes) : List NgOp :=
  [.udp (sampleDiscover saddr) { socket := 5 }, .udp (sampleDiscover saddr) { socket := 6 }]

/-- From 0.0.0.0, as clients send it, each discover registers a session, and both get the key of 10.1.10.1. -/
theorem discover_registered_twice :
    (∀ op ∈ sampleDiscovers [0, 0, 0, 0], op.Handled) ∧
      ¬World.init.KeysKept (.udp (sampleDiscover [0, 0, 0, 0]) { socket := 5 }) ∧
      ((sampleDiscovers [0, 0, 0, 0]).foldl ngStep World.init).sessions.map NgSession.key =
        List.replicate 2 (.udp 4 [10, 1, 10, 1] 68 [255, 255, 255, 255] 67) ∧
      ¬((sampleDiscovers [0, 0, 0, 0]).foldl ngStep World.init).Unique := by
  have hunknown : NgSession.Unknown World.init.sessions (.udp (sampleDiscover [0, 0, 0, 0]) { socket := 5 }) :=
    fun s hs => by cases hs
  have hanswers : World.init.AnswersDhcp (.udp (sampleDiscover [0, 0, 0, 0]) { socket := 5 }) :=
    ⟨by decide +kernel, fun hdest => absurd hdest (by decide), .inr ⟨hunknown, by decide⟩⟩
  refine ⟨?_, answersDhcp_rewrites .nil hanswers (by decide), by decide +kernel, ?_⟩
  · intro op hop
    rcases List.mem_cons.1 hop with rfl | hop
    · trivial
    · rw [List.mem_singleton.1 hop]
      trivial
  · unfold World.Unique
    decide +kernel

/-- A datagram to the port of DHCP servers that is none of DHCP. -/
def sampleProbe : UdpPkt := { sampleDiscover [10, 1, 10, 7] with data := [1, 1, 6, 0] }

/-- The probe twice, and its answer. -/
def sampleProbes : List NgOp :=
  [.udp sampleProbe { socket := 5, sendto := { ret := 4, errno := .other } },
    .udp sampleProbe { sendto := { ret := 4, errno := .other } },
    .event 0 (.datagram { ev := ⟨false, true, false⟩, recv := .got [1] })]

theorem sampleProbes_run : Run ngStep (fun w op => op.Handled ∧ ¬w.AnswersDhcp op) World.init sampleProbes
    (sampleProbes.foldl ngStep World.init) := by
  have hprobe : sampleProbe.isDhcpRequest = false := by decide
  refine Run.ofAllOk ⟨⟨trivial, fun h => ?_⟩, ⟨trivial, fun h => ?_⟩, ⟨trivial, id⟩, trivial⟩
  · exact absurd (hprobe.symm.trans h.1) Bool.false_ne_true
  · exact absurd (hprobe.symm.trans h.1) Bool.false_ne_true

/-- The session of the probes is there once, and keeps its key at the next one; a discover registers another session and
changes its key. -/
theorem keys_unique_kept :
    (sampleProbes.foldl ngStep World.init).sessions.length = 1 ∧ (sampleProbes.foldl ngStep World.init).Unique ∧
      (sampleProbes.foldl ngStep World.init).KeysKept (.udp sampleProbe {}) ∧
      ¬(sampleProbes.foldl ngStep World.init).KeysKept (.udp (sampleDiscover [0, 0, 0, 0]) { socket := 6 }) := by
  obtain ⟨hunique, hkept, hrewrites⟩ := keys_unique sampleProbes_run
  have hprobe := (hkept (.udp sampleProbe {}) trivial).2 fun h => absurd h.1 (by decide)
  refine ⟨by decide +kernel, hunique, hprobe.1, hrewrites _ _ ?_ (by decide)⟩
  refine ⟨by decide +kernel, fun hdest => absurd hdest (by decide), .inr ⟨fun s hs => ?_, by decide⟩⟩
  have hall : ∀ t ∈ (sampleProbes.foldl ngStep World.init).sessions,
      t.key ≠ .udp 4 [0, 0, 0, 0] 68 [255, 255, 255, 255] 67 := by decide +kernel
  by_contra hb
  exact hall _ hs (belongs_key (by simpa using hb))

end TunProxy.Native
