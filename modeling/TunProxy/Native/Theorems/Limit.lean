import TunProxy.Native.Lemmas.Loop
import TunProxy.Native.Tcp.Theorems.Closing
import TunProxy.Native.Theorems.Descriptors

/-!
# The limit on the number of sessions

The limit is checked against the count from the start of the round. Where packets open more sessions than that allows,
the timeouts become negative, and the sweep ends sessions that are in use.
-/

namespace TunProxy.Native

open Lib

variable {w : World} {l : Loop} {op : NgOp} {s s' : NgSession} {ss ss' : List NgSession}

/-! ## Activity -/

/-- The lookup of `handle_tcp`. -/
def TcpPkt.finds (p : TcpPkt) : NgSession → Bool
  | .tcp s => p.belongs s
  | _ => false

/-- The packet finds a closing session, and sends its CONNECT request. -/
def World.Revives (w : World) : NgOp → Prop
  | .tcp p e => ∃ s, w.sessions.find? p.finds = some (.tcp s) ∧ s.state = .closing ∧ Connects s (.packet p e)
  | _ => False

/-- The packet registers a session that is active, or revives one. -/
def World.Raises (w : World) (op : NgOp) : Prop :=
  NgSession.Unknown w.sessions op ∧ (∃ s, Opens op s ∧ s.isActive = true) ∨ w.Revives op

section Session

variable {s : TcpSession}

theorem tcp_isActive : (NgSession.tcp s).isActive = true ↔ s.state ≠ .closing ∧ s.state ≠ .close := by
  simp [NgSession.isActive]

/-- Only the CONNECT request makes a session active again. -/
theorem tcpStep_active {op : TcpOp} (hc : Coherent s) (hn : NotRevived s op)
    (h : (NgSession.tcp (tcpStep s op)).isActive = true) : (NgSession.tcp s).isActive = true := by
  rw [tcp_isActive] at h ⊢
  obtain ⟨hclosing, hclose⟩ := (closingKept_iff hc).2 hn
  refine ⟨fun hs => ?_, fun hs => h.2 (hclose hs)⟩
  rcases hclosing hs with hs | hs
  · exact h.1 hs
  · exact h.2 hs

theorem notRevived_of_other {op : TcpOp} (h : ∀ p e, op ≠ .packet p e) : NotRevived s op := by
  intro _ hc
  cases op with
  | packet p e => exact h p e rfl
  | socket e => exact hc
  | monitor e => exact hc
  | check e => exact hc
  | stop writeOk => exact hc

end Session

theorem udp_isActive {s : UdpSession} : (NgSession.udp s).isActive = true ↔ s.state = .active := by
  simp [NgSession.isActive]

/-- A session becomes active only by a packet that revives it. -/
theorem Changes.active (h : Changes op s s') (hs : s.Ok)
    (hn : ∀ t p e, s = .tcp t → op = .tcp p e → NotRevived t (.packet p e)) (ha : s'.isActive = true) :
    s.isActive = true := by
  cases s with
  | icmp s =>
      cases s' with
      | icmp s' =>
          simp only [NgSession.isActive, Bool.not_eq_true'] at ha ⊢
          by_contra hstop
          rw [h.icmp.2 (by simpa using hstop)] at ha
          cases ha
      | udp s' => cases h
      | tcp s' => cases h
  | udp s =>
      cases s' with
      | udp s' => exact udp_isActive.2 (h.udp (udp_isActive.1 ha))
      | icmp s' => cases h
      | tcp s' => cases h
  | tcp s =>
      cases h with
      | refl => exact ha
      | tcpPacket hop hb => exact tcpStep_active hs (hn _ _ _ rfl hop) ha
      | tcpOther op' hop => exact tcpStep_active hs (notRevived_of_other hop) ha

theorem countP_le_of_forall₂ {R : NgSession → NgSession → Prop} (h : List.Forall₂ R ss ss')
    (hR : ∀ s ∈ ss, ∀ s', R s s' → s'.isActive = true → s.isActive = true) :
    ss'.countP NgSession.isActive ≤ ss.countP NgSession.isActive := by
  induction h with
  | nil => exact Nat.le_refl _
  | @cons s s' ss ss' hs _ ih =>
      rw [List.forall_mem_cons] at hR
      have htail := ih hR.2
      by_cases ha : s'.isActive = true
      · rw [List.countP_cons_of_pos ha, List.countP_cons_of_pos (hR.1 s' hs ha)]
        omega
      · rw [List.countP_cons_of_neg ha]
        exact htail.trans (List.sublist_cons_self s ss).countP_le

/-- What `handle_tcp` does where it finds a session. -/
theorem after_tcp {p : TcpPkt} {e : HandleEnv} {t : TcpSession} {l₁ l₂ : List NgSession}
    (hl : w.sessions = l₁ ++ .tcp t :: l₂) (hl₁ : ∀ s ∈ l₁, p.finds s = false) (hb : p.belongs t = true) :
    (ngStep w (.tcp p e)).sessions = l₁ ++ .tcp (tcpStep t (.packet p e)) :: l₂ := by
  simp only [ngStep, World.handleTcp, hl]
  rw [@updateFirst_append _ _ (.tcp (tcpStep t (.packet p e))) l₁ l₂]
  · intro s hs
    cases s with
    | tcp s =>
        have hs : p.belongs s = false := hl₁ _ hs
        simp [hs]
    | icmp s => rfl
    | udp s => rfl
  · simp [hb]

theorem active_append {l₁ l₂ : List NgSession} :
    (l₁ ++ s :: l₂).countP NgSession.isActive =
      l₁.countP NgSession.isActive + (s.isActive.toNat + l₂.countP NgSession.isActive) := by
  rw [List.countP_append, List.countP_cons]
  cases s.isActive with
  | true => simp [Nat.add_comm]
  | false => simp

/-- Unless a packet opens or revives a session, no step makes more sessions active. -/
theorem ngStep_active_le (hw : w.Ok) (hn : ¬w.Raises op) : (ngStep w op).active ≤ w.active := by
  rcases ngStep_cases w op with hsub | ⟨s, hnew, hunknown, -, heq⟩
  · by_cases hop : ∀ p e, op ≠ .tcp p e
    · refine hsub.countP_le.trans (countP_le_of_forall₂ (after_changes w op) fun s hs s' h => ?_)
      exact h.active (hw.sessions s hs) fun t p e _ he => absurd he (hop p e)
    · -- of the sessions that belong to the packet, only the first one changes
      push Not at hop
      obtain ⟨p, e, rfl⟩ := hop
      cases hfind : w.sessions.find? p.finds with
      | none =>
          have hsame : w.after (.tcp p e) = w.sessions := by
            simp only [World.after]
            rw [updateFirst_eq_none.2]
            · rfl
            · intro s hs
              cases s with
              | tcp s =>
                  have hs : ¬p.belongs s = true := List.find?_eq_none.1 hfind _ hs
                  simp [hs]
              | icmp s => rfl
              | udp s => rfl
          rw [hsame] at hsub
          exact hsub.countP_le
      | some s =>
          obtain ⟨hb, l₁, l₂, hl, hl₁⟩ := List.find?_eq_some_iff_append.1 hfind
          cases s with
          | tcp t =>
              have hstep : (ngStep w (.tcp p e)).sessions = l₁ ++ .tcp (tcpStep t (.packet p e)) :: l₂ :=
                after_tcp hl (by simpa using hl₁) hb
              have ht : Coherent t := hw.sessions (.tcp t) (by simp [hl])
              have hnot : NotRevived t (.packet p e) := fun hs hc => hn (.inr ⟨t, hfind, hs, hc⟩)
              have hactive := tcpStep_active ht hnot
              simp only [World.active, hstep, hl, active_append]
              cases ha : (NgSession.tcp (tcpStep t (.packet p e))).isActive with
              | true => simp [hactive ha]
              | false => simp
          | icmp s => cases hb
          | udp s => cases hb
  · have hs : ¬s.isActive = true := fun ha => hn (.inl ⟨hunknown, s, hnew, ha⟩)
    simp only [World.active, heq, List.countP_cons_of_neg hs, Nat.le_refl]

/-- A packet that does makes one more session active. -/
theorem ngStep_active_succ (h : w.Raises op) : (ngStep w op).active = w.active + 1 := by
  rcases h with ⟨hunknown, s, hnew, ha⟩ | hrev
  · simp only [World.active, ngStep_opens hnew hunknown, List.countP_cons_of_pos ha]
  · cases op with
    | tcp p e =>
        obtain ⟨t, hfind, hs, hc⟩ := hrev
        obtain ⟨hb, l₁, l₂, hl, hl₁⟩ := List.find?_eq_some_iff_append.1 hfind
        have hbefore : (NgSession.tcp t).isActive = false := by simp [NgSession.isActive, hs]
        have hafter : (NgSession.tcp (tcpStep t (.packet p e))).isActive = true := by
          simp [NgSession.isActive, tcpStep_of_connects hc]
        have hstep : (ngStep w (.tcp p e)).sessions = l₁ ++ .tcp (tcpStep t (.packet p e)) :: l₂ :=
          after_tcp hl (by simpa using hl₁) hb
        simp only [World.active, hstep, hl, active_append, hbefore, hafter, Bool.toNat_true, Bool.toNat_false]
        omega
    | icmp p e => cases hrev
    | udp p e => cases hrev
    | block p now memory => cases hrev
    | event i e => cases hrev
    | monitor e => cases hrev
    | sweep e => cases hrev
    | allowed writeOk => cases hrev

/-! ## The limit -/

/-- The limit on files for which the limit on sessions is positive: `40 * rlim_cur / 100` as an `int`. -/
def GoodLimit (rlimCur : BitVec 64) : Prop :=
  0 < rlimCur.toNat * 40 % 2 ^ 64 / 100 % 2 ^ 32 ∧ rlimCur.toNat * 40 % 2 ^ 64 / 100 % 2 ^ 32 < 2 ^ 31

instance (rlimCur : BitVec 64) : Decidable (GoodLimit rlimCur) := inferInstanceAs (Decidable (_ ∧ _))

theorem goodLimit_of_le {rlimCur : BitVec 64} (h : 3 ≤ rlimCur.toNat) (hle : rlimCur.toNat ≤ 5368709119) :
    GoodLimit rlimCur := by
  have hmod : rlimCur.toNat * 40 % 2 ^ 64 = rlimCur.toNat * 40 := Nat.mod_eq_of_lt (by omega)
  have hquot : rlimCur.toNat * 40 / 100 < 2 ^ 31 := by omega
  have hint : rlimCur.toNat * 40 / 100 % 2 ^ 32 = rlimCur.toNat * 40 / 100 := Nat.mod_eq_of_lt (by omega)
  unfold GoodLimit
  rw [hmod, hint]
  exact ⟨by omega, hquot⟩

theorem maxSessions_range {rlimCur : BitVec 64} :
    1 ≤ maxSessions rlimCur ∧ maxSessions rlimCur ≤ 1000 ↔ GoodLimit rlimCur := by
  have hmul : (rlimCur * SESSION_LIMIT).toNat = rlimCur.toNat * 40 % 2 ^ 64 := by
    rw [BitVec.toNat_mul]
    rfl
  have hint := BitVec.toInt_eq_toNat_cond (BitVec.ofNat 32 ((rlimCur * SESSION_LIMIT).toNat / 100))
  rw [hmul, BitVec.toNat_ofNat] at hint
  simp only [maxSessions, GoodLimit, hmul]
  generalize (BitVec.ofNat 32 (rlimCur.toNat * 40 % 2 ^ 64 / 100)).toInt = m at hint ⊢
  have hq : rlimCur.toNat * 40 % 2 ^ 64 / 100 % 2 ^ 32 < 2 ^ 32 := Nat.mod_lt _ (by decide)
  generalize rlimCur.toNat * 40 % 2 ^ 64 / 100 % 2 ^ 32 = q at hint hq ⊢
  split at hint
  · split
    · omega
    · omega
  · split
    · omega
    · omega

/-! ## Timeouts -/

def NgSession.time : NgSession → Int
  | .icmp s => s.time
  | .udp s => s.time
  | .tcp s => s.time

/-- `get_icmp_timeout`, `get_udp_timeout` or `get_tcp_timeout`. -/
def NgSession.timeout (s : NgSession) (sessions maxsessions : Int) : Int :=
  match s with
  | .icmp _ => getIcmpTimeout sessions maxsessions
  | .udp s => getUdpTimeout s sessions maxsessions
  | .tcp s => getTcpTimeout s sessions maxsessions

/-- The timeout before it is scaled. -/
def NgSession.baseTimeout : NgSession → Int
  | .icmp _ => ICMP_TIMEOUT
  | .udp s => if s.dest = 53 then UDP_TIMEOUT_53 else UDP_TIMEOUT_ANY
  | .tcp s =>
      match s.state with
      | .listen | .synRecv => TCP_INIT_TIMEOUT
      | .established => TCP_IDLE_TIMEOUT
      | _ => TCP_CLOSE_TIMEOUT

theorem timeout_eq {sessions maxsessions : Int} :
    s.timeout sessions maxsessions = scaleTimeout s.baseTimeout sessions maxsessions := by
  cases s with
  | icmp s => rfl
  | udp s => rfl
  | tcp s => rfl

theorem baseTimeout_nonneg (s : NgSession) : 0 ≤ s.baseTimeout := by
  cases s with
  | icmp s => exact (by decide : (0 : Int) ≤ ICMP_TIMEOUT)
  | udp s =>
      simp only [NgSession.baseTimeout]
      split
      · decide
      · decide
  | tcp s =>
      simp only [NgSession.baseTimeout]
      cases s.state <;> decide

theorem scaleTimeout_range {timeout sessions maxsessions : Int} (ht : 0 ≤ timeout) (hs : 0 ≤ sessions)
    (hm : 1 ≤ maxsessions) (hle : sessions ≤ maxsessions) :
    0 ≤ scaleTimeout timeout sessions maxsessions ∧ scaleTimeout timeout sessions maxsessions ≤ timeout := by
  have hquot : 0 ≤ (sessions * 100).tdiv maxsessions ∧ (sessions * 100).tdiv maxsessions ≤ 100 := by
    rw [Int.tdiv_eq_ediv_of_nonneg (by omega)]
    refine ⟨Int.ediv_nonneg (by omega) (by omega), Int.ediv_le_of_le_mul (by omega) ?_⟩
    omega
  have hscale : 0 ≤ 100 - (sessions * 100).tdiv maxsessions := by omega
  have hprod : 0 ≤ timeout * (100 - (sessions * 100).tdiv maxsessions) := Int.mul_nonneg ht hscale
  have hprod' : timeout * (100 - (sessions * 100).tdiv maxsessions) ≤ timeout * 100 :=
    Int.mul_le_mul_of_nonneg_left (by omega) ht
  simp only [scaleTimeout]
  rw [Int.tdiv_eq_ediv_of_nonneg hprod]
  omega

/-- A session whose timeout has not passed stays as it is. -/
theorem checkSession_of_active {e : CheckEnv} (ha : s.isActive = true)
    (ht : e.now ≤ s.time + s.timeout e.sessions e.maxsessions) : checkSession s e = (s, false) := by
  cases s with
  | icmp s =>
      have hstop : s.stop = false := by simpa [NgSession.isActive] using ha
      have ht : ¬s.time + getIcmpTimeout e.sessions e.maxsessions < e.now := not_lt.2 ht
      simp [checkSession, checkIcmpSession, hstop, ht]
  | udp s =>
      have hs : s.state = .active := by simpa [NgSession.isActive] using ha
      have ht : ¬s.time + getUdpTimeout s e.sessions e.maxsessions < e.now := not_lt.2 ht
      simp [checkSession, checkUdpSession, checkUdpTimeout, checkUdpFinished, hs, ht]
  | tcp s =>
      obtain ⟨hclosing, hclose⟩ := tcp_isActive.1 ha
      have ht : ¬s.time + getTcpTimeout s e.sessions e.maxsessions < e.now := not_lt.2 ht
      simp [checkSession, checkTcpSession, checkTimeout, checkClosing, hclosing, hclose, ht]

/-! ## The loop -/

/-- The call of a handler for a packet of the tun, where there is one. -/
def Loop.called (l : Loop) (pkt : Bytes) (heap : Nat → UInt8) (loglevel : Int) (fwd53 : Bool) (e : IpEnv) :
    Option NgOp :=
  let buffer := pkt.take MTU
  if buffer = [] then none
  else
    match ipPkt (memAt buffer heap) buffer.length loglevel with
    | none => none
    | some p =>
        if overLimit l.world { loglevel, fwd53, sessions := l.sessions, maxsessions := l.maxsessions } p then none
        else some (p.op e)

/-- The step starts with a good limit, and opens or revives a session only while there is room for one. -/
def Loop.Admits (l : Loop) : LoopOp → Prop
  | .start rlimCur _ => GoodLimit rlimCur
  | .tun pkt heap loglevel fwd53 e =>
      ∀ op, l.called pkt heap loglevel fwd53 e = some op → l.world.Raises op → (l.world.active : Int) < l.maxsessions
  | .round _ | .downstream _ _ => True

/-- The limit is kept, and no timeout is out of range. The timeouts are those of the next sweep; an active session whose
time is now stays in it. -/
structure Loop.Limited (l : Loop) : Prop where
  maxsessions : 1 ≤ l.maxsessions ∧ l.maxsessions ≤ 1000
  active : (l.world.active : Int) ≤ l.maxsessions
  timeout : ∀ s : NgSession, 0 ≤ s.timeout l.world.active l.maxsessions ∧
    s.timeout l.world.active l.maxsessions ≤ s.baseTimeout
  spared : ∀ (e : RoundEnv) i s, (l.world.monitor e.monitor).sessions[i]? = some s → s.isActive = true →
    s.time = e.now i → s ∈ (l.round e).world.sessions

theorem checkTun_world (l : Loop) (pkt : Bytes) (heap : Nat → UInt8) (loglevel : Int) (fwd53 : Bool) (e : IpEnv) :
    (l.checkTun pkt heap loglevel fwd53 e).maxsessions = l.maxsessions ∧
      (l.checkTun pkt heap loglevel fwd53 e).world =
        match l.called pkt heap loglevel fwd53 e with
        | none => l.world
        | some op => ngStep l.world op := by
  simp only [Loop.checkTun, Loop.called]
  split
  · exact ⟨rfl, rfl⟩
  · refine ⟨rfl, ?_⟩
    simp only [World.handleIp]
    cases ipPkt (memAt (pkt.take MTU) heap) (pkt.take MTU).length loglevel with
    | none => rfl
    | some p =>
        simp only []
        split
        · rfl
        · exact handle_eq _ e p

/-- A session that the check leaves alone stays in the list. -/
theorem mem_unlink {check : Nat → NgSession → NgSession × Bool} {i : Nat} (hs : ss[i]? = some s)
    (hc : check i s = (s, false)) : s ∈ (unlink check 0 [] ss).1 := by
  have hmem : check i s ∈ ss.mapIdx check := List.mem_of_getElem? (by rw [List.getElem?_mapIdx, hs]; rfl)
  rw [unlink_eq, List.nil_append]
  simp only [Nat.zero_add]
  refine List.mem_map.2 ⟨check i s, List.mem_filter.2 ⟨hmem, ?_⟩, ?_⟩
  · rw [hc]
    rfl
  · rw [hc]

theorem limited_iff :
    l.Limited ↔ (1 ≤ l.maxsessions ∧ l.maxsessions ≤ 1000) ∧ (l.world.active : Int) ≤ l.maxsessions := by
  constructor
  · intro h
    exact ⟨h.maxsessions, h.active⟩
  · rintro ⟨hm, ha⟩
    have htimeout (s : NgSession) : 0 ≤ s.timeout l.world.active l.maxsessions ∧
        s.timeout l.world.active l.maxsessions ≤ s.baseTimeout := by
      rw [timeout_eq]
      exact scaleTimeout_range (baseTimeout_nonneg s) (by omega) hm.1 ha
    refine ⟨hm, ha, htimeout, fun e i s hs hactive hnow => ?_⟩
    simp only [Loop.round]
    split
    · refine mem_unlink hs (checkSession_of_active hactive ?_)
      have hpos : 0 ≤ s.timeout l.world.active l.maxsessions := (htimeout s).1
      simp only [Loop.checkEnv]
      omega
    · exact List.mem_of_getElem? hs

/-- After `check_allowed` no session is active. -/
theorem active_checkAllowed (w : World) (writeOk : Nat → Bool) : (w.checkAllowed writeOk).active = 0 := by
  have hstop (s : NgSession) (ok : Bool) : (stopSession s ok).1.isActive = false := by
    cases s with
    | icmp s => rfl
    | udp s => exact Bool.eq_false_iff.2 fun ha => (stopUdp_kept s).2 (udp_isActive.1 ha)
    | tcp s =>
        simp only [stopSession, tcpStep, stopTcp]
        split
        · rename_i hs
          rw [writeRst_eq]
          simp [NgSession.isActive, hs.2]
        · simp_all [NgSession.isActive]
  refine List.countP_eq_zero.2 fun s hs => ?_
  have hmem := (unlink_sublist (fun i s => stopSession s (writeOk i)) w.sessions).subset hs
  obtain ⟨i, hi, rfl⟩ := List.mem_mapIdx.1 hmem
  rw [hstop]
  exact Bool.false_ne_true

theorem start_limited_iff (l : Loop) (rlimCur : BitVec 64) (writeOk : Nat → Bool) :
    (l.start rlimCur writeOk).Limited ↔ GoodLimit rlimCur := by
  have hzero : (l.start rlimCur writeOk).world.active = 0 := active_checkAllowed l.world writeOk
  rw [limited_iff, hzero]
  simp only [Loop.start, maxSessions_range]
  constructor
  · exact fun h => h.1
  · intro h
    have hrange := maxSessions_range.2 h
    exact ⟨h, by omega⟩

/-- The step is a packet of the client. -/
def NgOp.isPacket : NgOp → Bool
  | .icmp _ _ | .udp _ _ | .tcp _ _ => true
  | _ => false

theorem World.Raises.isPacket (h : w.Raises op) : op.isPacket = true := by
  rcases h with ⟨-, s, hnew, ha⟩ | hrev
  · cases hnew with
    | icmp he h => rfl
    | udp h => rfl
    | tcp h => rfl
    | block => cases ha
  · cases op with
    | tcp p e => rfl
    | _ => cases hrev

/-- What one step keeps, and when it does not. -/
theorem loopStep_limited_iff {op : LoopOp} (hw : l.world.Ok) (hl : l.Limited) :
    (loopStep l op).Limited ↔ l.Admits op := by
  have hm := hl.maxsessions
  have ha := hl.active
  cases op with
  | start rlimCur writeOk => exact start_limited_iff l rlimCur writeOk
  | round e =>
      refine iff_of_true (limited_iff.2 ?_) trivial
      have hmonitor : (l.world.monitor e.monitor).active ≤ l.world.active :=
        @ngStep_active_le _ (.monitor e.monitor) hw fun h => by cases h.isPacket
      have hok : (l.world.monitor e.monitor).Ok := ngStep_ok hw (.monitor e.monitor)
      simp only [loopStep, Loop.round]
      split
      · have hsweep (check : Nat → CheckEnv) : ((l.world.monitor e.monitor).sweep check).active ≤
            (l.world.monitor e.monitor).active := @ngStep_active_le _ (.sweep check) hok fun h => by cases h.isPacket
        exact ⟨hm, (Int.ofNat_le.2 ((hsweep _).trans hmonitor)).trans ha⟩
      · exact ⟨hm, (Int.ofNat_le.2 hmonitor).trans ha⟩
  | tun pkt heap loglevel fwd53 e =>
      obtain ⟨hmax, hworld⟩ := checkTun_world l pkt heap loglevel fwd53 e
      simp only [loopStep, limited_iff, hmax, hworld, Loop.Admits]
      cases l.called pkt heap loglevel fwd53 e with
      | none => simp [hm, ha]
      | some op =>
          simp only [Option.some.injEq, forall_eq']
          by_cases hr : l.world.Raises op
          · rw [ngStep_active_succ hr]
            simp only [hr, forall_const]
            omega
          · have := ngStep_active_le hw hr
            simp only [hr, false_implies, iff_true]
            exact ⟨hm, by omega⟩
  | downstream i e =>
      refine iff_of_true (limited_iff.2 ?_) trivial
      simp only [loopStep, Loop.downstream]
      split
      · exact ⟨hm, ha⟩
      · split
        · have hevent : (l.world.event i e).active ≤ l.world.active :=
            @ngStep_active_le _ (.event i e) hw fun h => by cases h.isPacket
          exact ⟨hm, (Int.ofNat_le.2 hevent).trans ha⟩
        · exact ⟨hm, ha⟩

/-! ## Runs -/

theorem loopStep_ok (hw : l.world.Ok) (op : LoopOp) : (loopStep l op).world.Ok := by
  obtain ⟨ops, hrun⟩ := loopStep_run l op
  exact hrun.invariant' hw fun _ op hw _ => ngStep_ok hw op

/-- From a start with a good limit, the limits are kept as long as each packet that opens or revives a session finds
room for one; the first that does not breaks them. -/
theorem limited_of_run {rlimCur : BitVec 64} {writeOk : Nat → Bool} {ops : List LoopOp} (hr : GoodLimit rlimCur)
    (h : Run loopStep Loop.Admits (Loop.init.start rlimCur writeOk) ops l) :
    l.Limited ∧ ∀ op, (loopStep l op).Limited ↔ l.Admits op := by
  have hstart : (Loop.init.start rlimCur writeOk).world.Ok :=
    loopStep_ok (l := Loop.init) ⟨by simp [Loop.init, World.init], by simp [Loop.init, World.init]⟩
      (.start rlimCur writeOk)
  obtain ⟨hlimited, hok⟩ : l.Limited ∧ l.world.Ok :=
    h.invariant' (I := fun l => l.Limited ∧ l.world.Ok) ⟨(start_limited_iff Loop.init rlimCur writeOk).2 hr, hstart⟩
      fun l op hI hadmits => ⟨(loopStep_limited_iff hI.2 hI.1).2 hadmits, loopStep_ok hI.2 op⟩
  exact ⟨hlimited, fun op => loopStep_limited_iff hok hlimited⟩

/-- A datagram from the port `port`, as the tun has it. -/
def sampleTime (port : UInt8) : Bytes :=
  [0x45, 0, 0, 28, 0, 0, 0, 0, 64, 17, 0, 0, 10, 1, 10, 1, 8, 8, 8, 8, 0, port, 0, 123, 0, 8, 0, 0]

/-- `handle_events` starts with a limit of 50 files. -/
def sampleStart : Loop := Loop.init.start 50 fun _ => true

/-- One round, and a burst of datagrams from `n` ports. -/
def sampleBurst (n : Nat) : List LoopOp :=
  .round { ms := 1000, now := fun _ => 7 } ::
    (List.range n).map fun i =>
      .tun (sampleTime (UInt8.ofNat i)) (fun _ => 0) ANDROID_LOG_WARN false { udp := { now := 7, socket := 30 + i } }

theorem sampleBurst_run :
    Run loopStep Loop.Admits sampleStart (sampleBurst 1) ((sampleBurst 1).foldl loopStep sampleStart) :=
  Run.ofAllOk ⟨trivial, fun _ _ _ => by decide +kernel, trivial⟩

theorem limited_of_run_burst : ((sampleBurst 1).foldl loopStep sampleStart).Limited ∧
    ((loopStep ((sampleBurst 1).foldl loopStep sampleStart) (.start 2 fun _ => true)).Limited ↔
      ((sampleBurst 1).foldl loopStep sampleStart).Admits (.start 2 fun _ => true)) :=
  ⟨(limited_of_run (goodLimit_of_le (by decide) (by decide)) sampleBurst_run).1,
    (limited_of_run (goodLimit_of_le (by decide) (by decide)) sampleBurst_run).2 (.start 2 fun _ => true)⟩

/-- Of 50 files, 20 may be sessions. 21 datagrams in one burst open 21 sessions, and the next sweep ends all of them in
the second in which they came. Without a limit on files (`RLIM_INFINITY`), that on sessions is negative. -/
theorem burst_ends_all : maxSessions 2 = 0 ∧ maxSessions (BitVec.allOnes 64) < 0 ∧ sampleStart.maxsessions = 20 ∧
    ((sampleBurst 21).foldl loopStep sampleStart).world.active = 21 ∧
    ¬((sampleBurst 21).foldl loopStep sampleStart).Limited ∧
    (∀ s ∈ ((sampleBurst 21).foldl loopStep sampleStart).world.sessions,
      s.time = 7 ∧ s.timeout 21 20 = -15) ∧
    (((sampleBurst 21).foldl loopStep sampleStart).round { ms := 2000, now := fun _ => 7 }).world.active = 0 := by
  refine ⟨by decide, by decide, by decide, by decide +kernel, fun h => ?_, by decide +kernel, by decide +kernel⟩
  revert h
  rw [limited_iff]
  decide +kernel

end TunProxy.Native
