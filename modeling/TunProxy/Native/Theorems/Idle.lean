import TunProxy.Native.Lemmas.Thread
import TunProxy.Native.Poll
import TunProxy.Native.Theorems.Limit

/-!
# The loop when nothing happens

The loop sleeps until the second in which the first session times out. So sessions that nobody uses are ended in time,
and none of them is left in the end.
-/

namespace TunProxy.Native

open Lib

variable {w : World} {l l₀ : Loop} {s : NgSession} {e : RoundEnv} {T T₀ : Int}

/-! ## The sleep -/

section Poll

variable {f : NgSession → Int} {checked : List (NgSession × Bool)} {timeout : Int}

theorem pollTimeout_le : pollTimeout f checked timeout ≤ timeout := by
  induction checked generalizing timeout with
  | nil => simp [pollTimeout]
  | cons x rest ih =>
      simp only [pollTimeout]
      split
      · rename_i h
        exact ih.trans h.2.2.2.le
      · exact ih

/-- The loop does not sleep longer than any active session that stays allows. -/
theorem pollTimeout_le_of_mem (hs : (s, false) ∈ checked) (ha : s.isActive = true) (hf : 0 < f s) :
    pollTimeout f checked timeout ≤ f s := by
  induction checked generalizing timeout with
  | nil => cases hs
  | cons x rest ih =>
      rcases List.mem_cons.1 hs with rfl | hs
      · simp only [pollTimeout]
        split
        · exact pollTimeout_le
        · rename_i h
          simp only [ha, hf, true_and, not_lt] at h
          exact pollTimeout_le.trans h
      · simp only [pollTimeout]
        split
        · exact ih hs
        · exact ih hs

/-- It sleeps as long as it may, or as one of them allows. -/
theorem pollTimeout_cases : pollTimeout f checked timeout = timeout ∨
    ∃ s, (s, false) ∈ checked ∧ s.isActive = true ∧ 0 < f s ∧ pollTimeout f checked timeout = f s := by
  induction checked generalizing timeout with
  | nil => exact .inl rfl
  | cons x rest ih =>
      obtain ⟨s, del⟩ := x
      simp only [pollTimeout]
      split
      · rename_i h
        obtain ⟨ha, rfl, hf, -⟩ := h
        rcases @ih (f s) with heq | ⟨t, ht, hactive, hpos, heq⟩
        · exact .inr ⟨s, List.mem_cons_self, ha, hf, heq⟩
        · exact .inr ⟨t, List.mem_cons_of_mem _ ht, hactive, hpos, heq⟩
      · rcases @ih timeout with heq | ⟨t, ht, hactive, hpos, heq⟩
        · exact .inl heq
        · exact .inr ⟨t, List.mem_cons_of_mem _ ht, hactive, hpos, heq⟩

theorem pollTimeout_pos (h : 0 < timeout) : 0 < pollTimeout f checked timeout := by
  rcases @pollTimeout_cases f checked timeout with heq | ⟨s, -, -, hpos, heq⟩
  · rwa [heq]
  · rwa [heq]

end Poll

theorem ends_eq {sessions maxsessions : Int} :
    s.ends sessions maxsessions = s.time + s.timeout sessions maxsessions := by
  cases s with
  | icmp s => rfl
  | udp s => rfl
  | tcp s => rfl

theorem baseTimeout_le (s : NgSession) : s.baseTimeout ≤ 3600 := by
  cases s with
  | icmp s => exact (by decide : ICMP_TIMEOUT ≤ 3600)
  | udp s =>
      simp only [NgSession.baseTimeout]
      split
      · decide
      · decide
  | tcp s =>
      simp only [NgSession.baseTimeout]
      cases s.state <;> decide

/-- Scaling makes no timeout longer, also where there are more sessions than the limit. -/
theorem scaleTimeout_le {timeout sessions maxsessions : Int} (ht : 0 ≤ timeout) (hs : 0 ≤ sessions)
    (hm : 1 ≤ maxsessions) : scaleTimeout timeout sessions maxsessions ≤ timeout := by
  have hquot : 0 ≤ (sessions * 100).tdiv maxsessions := Int.tdiv_nonneg (by omega) (by omega)
  have hprod : timeout * (100 - (sessions * 100).tdiv maxsessions) ≤ timeout * 100 :=
    Int.mul_le_mul_of_nonneg_left (by omega) ht
  have hmono := Int.tdiv_le_tdiv (c := 100) (by decide) hprod
  rwa [Int.mul_tdiv_cancel _ (by decide)] at hmono

theorem timeout_le {sessions maxsessions : Int} (hs : 0 ≤ sessions) (hm : 1 ≤ maxsessions) :
    s.timeout sessions maxsessions ≤ 3600 := by
  rw [timeout_eq]
  exact (scaleTimeout_le (baseTimeout_nonneg s) hs hm).trans (baseTimeout_le s)

/-- The `int` is not too small for the timeout of a session that the check leaves. -/
theorem stimeout_eq {sessions maxsessions now : Int} (hs : 0 ≤ sessions) (hm : 1 ≤ maxsessions) (htime : s.time ≤ now)
    (hends : now ≤ s.ends sessions maxsessions) :
    s.stimeout sessions maxsessions now = s.ends sessions maxsessions - now + 1 ∧
      0 < s.stimeout sessions maxsessions now := by
  have hle := @timeout_le s _ _ hs hm
  rw [ends_eq] at hends
  have heq : s.stimeout sessions maxsessions now = s.ends sessions maxsessions - now + 1 := by
    rw [NgSession.stimeout, ends_eq]
    exact BitVec.toInt_ofInt_eq_self (by decide) (by omega) (by omega)
  rw [heq, ends_eq]
  exact ⟨rfl, by omega⟩

/-! ## One check -/

/-- The session has ended, and waits to be freed. -/
def NgSession.isGone : NgSession → Bool
  | .icmp _ => false
  | .udp s => s.state = .closed ∨ s.state = .blocked
  | .tcp s => s.state = .close

/-- A session that has ended is checked for the time since then. -/
theorem checkSession_gone {c : CheckEnv} (hg : s.isGone = true) :
    (checkSession s c).1.isGone = true ∧ (checkSession s c).1.time = s.time ∧
      (s.time + 300 < c.now → (checkSession s c).2 = true) := by
  cases s with
  | icmp s => cases hg
  | udp s =>
      have hstate : s.state = .closed ∨ s.state = .blocked := by simpa [NgSession.isGone] using hg
      have hsame : checkUdpFinished (checkUdpTimeout s c) c = s := by
        rcases hstate with hs | hs <;> simp [checkUdpTimeout, checkUdpFinished, hs]
      simp only [checkSession, checkUdpSession, hsame]
      split
      · refine ⟨hg, rfl, fun hnow => ?_⟩
        simp only [NgSession.time, UDP_KEEP_TIMEOUT, hstate, true_and, decide_eq_true_eq] at hnow ⊢
        omega
      · refine ⟨hg, rfl, fun hnow => ?_⟩
        simp only [NgSession.time, UDP_KEEP_TIMEOUT, hstate, true_and, decide_eq_true_eq] at hnow ⊢
        omega
  | tcp s =>
      have hstate : s.state = .close := by simpa [NgSession.isGone] using hg
      have hsame : checkClosing (checkTimeout s c) c = s := by simp [checkTimeout, checkClosing, hstate]
      simp only [checkSession, checkTcpSession, hsame]
      split
      · refine ⟨hg, rfl, fun hnow => ?_⟩
        simpa [hstate, NgSession.time, TCP_KEEP_TIMEOUT] using hnow
      · refine ⟨hg, rfl, fun hnow => ?_⟩
        simpa [hstate, NgSession.time, TCP_KEEP_TIMEOUT] using hnow

/-- A check frees a session, ends it now, or leaves it alone before its timeout. -/
theorem checkSession_cases {c : CheckEnv} (hg : s.isGone = false) :
    (checkSession s c).2 = true ∨ ((checkSession s c).1.isGone = true ∧ (checkSession s c).1.time = c.now) ∨
      checkSession s c = (s, false) ∧ s.isActive = true ∧ c.now ≤ s.ends c.sessions c.maxsessions := by
  by_cases hkept : s.isActive = true ∧ c.now ≤ s.ends c.sessions c.maxsessions
  · refine .inr (.inr ⟨checkSession_of_active hkept.1 ?_, hkept⟩)
    rw [← ends_eq]
    exact hkept.2
  · cases s with
    | icmp s =>
        left
        simp only [NgSession.isActive, NgSession.ends, Bool.not_eq_true', not_and, not_le] at hkept
        simp only [checkSession, checkIcmpSession]
        cases hstop : s.stop with
        | true => simp
        | false => simp [hkept hstop]
    | udp s =>
        right; left
        have hfinished : (checkUdpTimeout s c).state = .finishing := by
          simp only [NgSession.isActive, NgSession.ends, decide_eq_true_eq, not_and, not_le] at hkept
          cases hstate : s.state with
          | active => simp [checkUdpTimeout, hstate, hkept hstate]
          | finishing => simp [checkUdpTimeout, hstate]
          | closed => simp [NgSession.isGone, hstate] at hg
          | blocked => simp [NgSession.isGone, hstate] at hg
        simp only [checkSession, checkUdpSession, checkUdpFinished, hfinished, if_true]
        split
        · exact ⟨rfl, rfl⟩
        · exact ⟨rfl, rfl⟩
    | tcp s =>
        right; left
        have hclosing : (checkTimeout s c).state = .closing := by
          simp only [tcp_isActive, NgSession.ends, not_and, not_le, and_imp] at hkept
          unfold checkTimeout
          split
          · split
            · rfl
            · rename_i hs _
              simp [writeRst_eq, hs.2.1]
          · rename_i hs
            by_contra hne
            exact hs ⟨hne, by simpa [NgSession.isGone] using hg, hkept hne (by simpa [NgSession.isGone] using hg)⟩
        simp only [checkSession, checkTcpSession, checkClosing, hclosing, if_true]
        split
        · split
          · exact ⟨rfl, rfl⟩
          · exact ⟨rfl, rfl⟩
        · split
          · exact ⟨rfl, rfl⟩
          · exact ⟨rfl, rfl⟩

theorem active_not_gone (ha : s.isActive = true) : s.isGone = false := by
  cases s with
  | icmp s => rfl
  | udp s => simp [NgSession.isGone, udp_isActive.1 ha]
  | tcp s => simpa [NgSession.isGone] using (tcp_isActive.1 ha).2

/-- An active session that is left was left alone. -/
theorem checkSession_active {c : CheckEnv} {t : NgSession} (h : checkSession t c = (s, false))
    (ha : s.isActive = true) :
    t = s ∧ c.now ≤ s.ends c.sessions c.maxsessions := by
  have hg := active_not_gone ha
  cases ht : t.isGone with
  | true =>
      have hgone := (checkSession_gone (c := c) ht).1
      simp [h, hg] at hgone
  | false =>
      rcases checkSession_cases (c := c) ht with hdel | ⟨hgone, -⟩ | ⟨hsame, -, hends⟩
      · simp [h] at hdel
      · simp [h, hg] at hgone
      · have hts : t = s := congrArg Prod.fst (hsame.symm.trans h)
        exact ⟨hts, hts ▸ hends⟩

/-! ## One round -/

theorem monitorTcpSession_time (u : TcpSession) (m : MonitorEnv) : (monitorTcpSession u m).time = u.time := by
  have hkeep : (keepAlive u m).time = u.time := by
    unfold keepAlive
    split
    · simp only [writeAck, writeOrClose, writeTcp]
      split
      · rfl
      · rfl
    · rfl
  unfold monitorTcpSession
  extract_lets events v
  have hv : v.time = u.time := by
    simp only [v]
    split
    · exact hkeep
    · rfl
  split
  · split
    · exact hv
    · exact hv
  · exact hv

theorem gone_socket (hs : s.Ok) (hg : s.isGone = true) : s.socket = -1 := by
  cases s with
  | icmp s => cases hg
  | udp s =>
      have hstate : s.state = .closed ∨ s.state = .blocked := by simpa [NgSession.isGone] using hg
      exact (released_of_udp_ok hs hstate).socket
  | tcp s =>
      have hstate : s.state = .close := by simpa [NgSession.isGone] using hg
      exact Coherent.shut_socket hs (by simp [hstate, TcpState.isShut])

/-- The monitored sessions keep their times, and those that have ended stay so. -/
theorem mem_monitor {m : Nat → MonitorEnv} (hw : ∀ s ∈ w.sessions, s.Ok) (hs : s ∈ (w.monitor m).sessions) :
    ∃ t ∈ w.sessions, s.time = t.time ∧ (t.isGone = true → s.isGone = true) := by
  obtain ⟨i, hi, rfl⟩ := List.mem_mapIdx.1 hs
  refine ⟨_, List.getElem_mem hi, ?_⟩
  have hok := hw _ (List.getElem_mem hi)
  cases hu : w.sessions[i] with
  | icmp u => exact ⟨rfl, id⟩
  | udp u => exact ⟨rfl, id⟩
  | tcp u =>
      simp only [tcpStep]
      split
      · rename_i hopen
        refine ⟨monitorTcpSession_time u (m i), fun hg => ?_⟩
        have hshut := gone_socket hok (hu ▸ hg)
        simp only [hu, NgSession.socket] at hshut
        omega
      · exact ⟨rfl, id⟩

/-- What the sweep leaves was left by the check. -/
theorem mem_sweep {c : Nat → CheckEnv} : s ∈ (w.sweep c).sessions ↔ (s, false) ∈ w.checked c := by
  rw [(sweep_sessions w c).1]
  simp

theorem mem_checked {c : Nat → CheckEnv} {x : NgSession × Bool} (hx : x ∈ w.checked c) :
    ∃ i, ∃ t ∈ w.sessions, checkSession t (c i) = x := by
  obtain ⟨i, hi, rfl⟩ := List.mem_mapIdx.1 hx
  exact ⟨i, _, List.getElem_mem hi, rfl⟩

/-- The clock shows `T` milliseconds during the whole round. -/
structure RoundEnv.At (e : RoundEnv) (T : Int) : Prop where
  ms : e.ms = T
  now : ∀ i, e.now i = T / 1000

/-- The loop does not sleep too long for a session that the check has left. -/
theorem wait_le (hm : 1 ≤ l.maxsessions) (hs : (s, false) ∈ (l.counted e).world.checked ((l.counted e).checkEnv e))
    (ha : s.isActive = true) (htime : s.time ≤ T / 1000) (hends : T / 1000 ≤ s.ends l.world.active l.maxsessions) :
    l.wait e (T / 1000) ≤ (s.ends l.world.active l.maxsessions - T / 1000 + 1) * 1000 := by
  obtain ⟨hint, hpos⟩ := stimeout_eq (Int.natCast_nonneg _) hm htime hends
  simp only [Loop.wait]
  split
  · have hle : pollTimeout (·.stimeout l.world.active l.maxsessions (T / 1000)) _ EPOLL_TIMEOUT ≤
        s.stimeout l.world.active l.maxsessions (T / 1000) :=
      pollTimeout_le_of_mem hs ha hpos
    simp only [World.checked, Loop.counted] at hle ⊢
    omega
  · simp only [EPOLL_MIN_CHECK]
    omega

theorem wait_pos {now : Int} : 0 < l.wait e now := by
  simp only [Loop.wait]
  split
  · exact Int.mul_pos (pollTimeout_pos (by decide)) (by decide)
  · decide

/-- After a round the last sweep is not long ago. -/
theorem round_lastCheck (l : Loop) (he : e.At T) : T - (l.round e).lastCheck ≤ EPOLL_MIN_CHECK := by
  simp only [Loop.round, he.ms]
  split
  · simp [EPOLL_MIN_CHECK]
  · rename_i h
    exact not_lt.1 h

/-! ## Runs -/

/-- A round, and the milliseconds at which the next one begins. -/
def quietStep (x : Loop × Int) (i : RoundEnv × Int) : Loop × Int := (x.1.round i.1, i.2)

/-- Nothing happens: `epoll_wait` returns when its time is over, or it is interrupted before. -/
def Quiet (x : Loop × Int) (i : RoundEnv × Int) : Prop :=
  i.1.At x.2 ∧ x.2 ≤ i.2 ∧ i.2 ≤ x.2 + x.1.wait i.1 (x.2 / 1000)

/-- What holds before a round at `T` since nothing happens any more, from `T₀` on. A session that has not ended was used
before `T₀`, and is awaited. -/
structure Idle (T₀ : Int) (l : Loop) (T : Int) : Prop where
  reached : l.Reached
  maxsessions : 1 ≤ l.maxsessions
  clock : T₀ ≤ T
  times : ∀ s ∈ l.world.sessions, s.time ≤ T₀ / 1000 + 3601
  awaited : ∀ s ∈ l.world.sessions, s.isGone = false →
    s.time ≤ T₀ / 1000 ∧ T / 1000 ≤ T₀ / 1000 + 3601 ∧ l.lastCheck / 1000 ≤ T₀ / 1000 + 3600
  freed : T₀ / 1000 + 3901 < l.lastCheck / 1000 → l.world.sessions = []

theorem Idle.ok (h : Idle T₀ l T) : ∀ s ∈ l.world.sessions, s.Ok := fun s hs => (h.reached.world.sound s hs).1

/-- The sessions that are checked in the round. -/
theorem Idle.monitored (h : Idle T₀ l T) (hs : s ∈ (l.counted e).world.sessions) :
    s.Ok ∧ s.time ≤ T₀ / 1000 + 3601 ∧ (s.isGone = false →
      s.time ≤ T₀ / 1000 ∧ T / 1000 ≤ T₀ / 1000 + 3601 ∧ l.lastCheck / 1000 ≤ T₀ / 1000 + 3600) := by
  have hreached : (l.world.monitor e.monitor).Reached := h.reached.world.step (.monitor e.monitor) trivial
  obtain ⟨t, ht, htime, hgone⟩ := mem_monitor h.ok hs
  refine ⟨(hreached.sound s hs).1, htime ▸ h.times t ht, fun hg => ?_⟩
  have hpending : t.isGone = false := by
    by_contra hne
    simp [hgone (by simpa using hne)] at hg
  exact htime ▸ h.awaited t ht hpending

/-- What is left by a sweep in the round. -/
theorem Idle.swept (h : Idle T₀ l T) (he : e.At T)
    (hs : s ∈ ((l.counted e).world.sweep ((l.counted e).checkEnv e)).sessions) :
    s.time ≤ T₀ / 1000 + 3601 ∧ T / 1000 ≤ T₀ / 1000 + 3901 ∧
      (s.isGone = false → s.time ≤ T₀ / 1000 ∧ T / 1000 ≤ T₀ / 1000 + 3600 ∧
        l.wait e (T / 1000) ≤ (T₀ / 1000 + 3600 - T / 1000 + 1) * 1000) := by
  rw [mem_sweep] at hs
  obtain ⟨i, t, ht, hcheck⟩ := mem_checked hs
  obtain ⟨-, htime, hpending⟩ := h.monitored ht
  have hnow : ((l.counted e).checkEnv e i).now = T / 1000 := he.now i
  cases hg : t.isGone with
  | true =>
      obtain ⟨hgone, hkept, hdel⟩ := checkSession_gone (c := (l.counted e).checkEnv e i) hg
      rw [hcheck] at hgone hkept hdel
      refine ⟨hkept ▸ htime, ?_, fun hne => by simp [hgone] at hne⟩
      by_contra hlt
      exact Bool.false_ne_true (hdel (by omega))
  | false =>
      obtain ⟨hold, hclock, -⟩ := hpending hg
      rcases checkSession_cases (c := (l.counted e).checkEnv e i) hg with hdel | ⟨hgone, hended⟩ | ⟨hsame, ha, hends⟩
      · simp [hcheck] at hdel
      · rw [hcheck] at hgone hended
        have hended : s.time = T / 1000 := hended.trans hnow
        exact ⟨by omega, by omega, fun hne => by simp [hgone] at hne⟩
      · have hst : s = t := congrArg Prod.fst (hcheck.symm.trans hsame)
        subst hst
        have hends : T / 1000 ≤ s.ends l.world.active l.maxsessions := hnow ▸ hends
        have hle := @timeout_le s l.world.active l.maxsessions (Int.natCast_nonneg _) h.maxsessions
        have hwait := wait_le h.maxsessions hs ha (hold.trans (Int.ediv_le_ediv (by decide) h.clock)) hends
        rw [ends_eq] at hends hwait
        exact ⟨htime, by omega, fun _ => ⟨hold, by omega, by omega⟩⟩

theorem Idle.round (h : Idle T₀ l T) {i : RoundEnv × Int} (hi : Quiet (l, T) i) : Idle T₀ (l.round i.1) i.2 := by
  obtain ⟨e, T'⟩ := i
  obtain ⟨he, hle, hwait⟩ := hi
  simp only at he hle hwait
  have hreached := h.reached.step (.round e)
  have hclock := h.clock.trans hle
  have hround : l.round e =
      if T - l.lastCheck > EPOLL_MIN_CHECK then
        { l.counted e with lastCheck := T, world := (l.counted e).world.sweep ((l.counted e).checkEnv e) }
      else l.counted e := by
    rw [← he.ms]
    rfl
  by_cases hcheck : T - l.lastCheck > EPOLL_MIN_CHECK
  · rw [if_pos hcheck] at hround
    simp only [loopStep, hround] at hreached ⊢
    have hswept := fun s hs => h.swept (s := s) he hs
    refine ⟨hreached, h.maxsessions, hclock, fun s hs => (hswept s hs).1, fun s hs hg => ?_, fun hlate => ?_⟩
    · obtain ⟨hold, hnow, hle⟩ := (hswept s hs).2.2 hg
      exact ⟨hold, by omega, hnow⟩
    · refine List.eq_nil_iff_forall_not_mem.2 fun s hs => ?_
      have := (hswept s hs).2.1
      simp only at hlate
      omega
  · -- the sessions were checked less than 100 milliseconds ago
    rw [if_neg hcheck] at hround
    simp only [loopStep, hround] at hreached ⊢
    have hshort : l.wait e (T / 1000) = EPOLL_MIN_CHECK := by simp [Loop.wait, he.ms, hcheck]
    rw [hshort] at hwait
    simp only [EPOLL_MIN_CHECK] at hwait hcheck
    refine ⟨hreached, h.maxsessions, hclock, fun s hs => (h.monitored hs).2.1, fun s hs hg => ?_, fun hlate => ?_⟩
    · obtain ⟨hold, -, hlast⟩ := (h.monitored hs).2.2 hg
      refine ⟨hold, ?_, hlast⟩
      omega
    · have hnil : l.world.sessions = [] := h.freed hlate
      simp [Loop.counted, World.monitor, hnil]

theorem idle_of_run {is : List (RoundEnv × Int)} (h₀ : l₀.Reached) (hm : 1 ≤ l₀.maxsessions) (hlast : l₀.lastCheck ≤ T₀)
    (htimes : ∀ s ∈ l₀.world.sessions, s.time ≤ T₀ / 1000) (h : Run quietStep Quiet (l₀, T₀) is (l, T)) :
    Idle T₀ l T := by
  refine h.invariant' (I := fun x => Idle T₀ x.1 x.2) ?_ fun x i hI hi => hI.round hi
  have hdiv := Int.ediv_le_ediv (c := 1000) (by decide) hlast
  refine ⟨h₀, hm, Int.le_refl _, fun s hs => ?_, fun s hs _ => ⟨htimes s hs, ?_, ?_⟩, fun hlate => ?_⟩
  · have := htimes s hs
    omega
  · simp only
    omega
  · simp only
    omega
  · simp only at hlate
    omega

/-- When nothing happens any more, every descriptor is closed after the longest timeout and a second, however the
timeouts are scaled; and no session is left soon after. The loop need not be woken for that. -/
theorem quiet_freed {is : List (RoundEnv × Int)} (h₀ : l₀.Reached) (hm : 1 ≤ l₀.maxsessions) (hlast : l₀.lastCheck ≤ T₀)
    (htimes : ∀ s ∈ l₀.world.sessions, s.time ≤ T₀ / 1000) (h : Run quietStep Quiet (l₀, T₀) is (l, T)) :
    (T₀ / 1000 + 3601 < T / 1000 → ∀ s ∈ l.world.sessions, s.socket = -1) ∧
      (T₀ / 1000 + 3902 < T / 1000 → ∀ e, e.At T → (l.round e).world.sessions = []) := by
  have hidle := idle_of_run h₀ hm hlast htimes h
  refine ⟨fun hlate s hs => gone_socket (hidle.ok s hs) ?_, fun hlate e he => ?_⟩
  · by_contra hne
    have := (hidle.awaited s hs (by simpa using hne)).2.1
    omega
  · have hround : Idle T₀ (l.round e) T := 
      hidle.round (i := (e, T)) ⟨he, Int.le_refl _, Int.le_add_of_nonneg_right wait_pos.le⟩
    refine hround.freed ?_
    have hlast := round_lastCheck l he
    simp only [EPOLL_MIN_CHECK] at hlast
    omega

/-- Where nothing is to be checked again, the loop sleeps exactly until the first second in which it has to end one of
the sessions it left, but not more than an hour. -/
theorem sleep_exact (h : l.Reached) (hm : 1 ≤ l.maxsessions) (he : e.At T)
    (htimes : ∀ s ∈ l.world.sessions, s.time ≤ T / 1000) (hcheck : EPOLL_MIN_CHECK < T - l.lastCheck)
    (hrecheck : l.world.recheck e.monitor = false) :
    ∃ n, l.wait e (T / 1000) = n * 1000 ∧ 1 ≤ n ∧ n ≤ 3600 ∧
      (∀ s ∈ (l.round e).world.sessions, s.isActive = true → ∀ c : CheckEnv, c.sessions = l.world.active →
        c.maxsessions = l.maxsessions → c.now < T / 1000 + n → checkSession s c = (s, false)) ∧
      (n < 3600 → ∃ s ∈ (l.round e).world.sessions, s.isActive = true ∧ ∀ c : CheckEnv, c.sessions = l.world.active →
        c.maxsessions = l.maxsessions → c.now = T / 1000 + n →
        (checkSession s c).2 = true ∨ (checkSession s c).1.isGone = true) := by
  have hround : l.round e =
      { l.counted e with lastCheck := T, world := (l.counted e).world.sweep ((l.counted e).checkEnv e) } := by
    rw [← he.ms] at hcheck ⊢
    exact if_pos hcheck
  have hwait : l.wait e (T / 1000) = pollTimeout (·.stimeout l.world.active l.maxsessions (T / 1000))
      ((l.counted e).world.checked ((l.counted e).checkEnv e)) EPOLL_TIMEOUT * 1000 := by
    rw [← he.ms] at hcheck
    exact if_pos ⟨hcheck, hrecheck⟩
  -- the active sessions that are left have not changed, and their timeout has not passed
  have hleft : ∀ s, (s, false) ∈ (l.counted e).world.checked ((l.counted e).checkEnv e) → s.isActive = true →
      s.time ≤ T / 1000 ∧ T / 1000 ≤ s.ends l.world.active l.maxsessions := by
    intro s hs ha
    obtain ⟨i, t, ht, hchecked⟩ := mem_checked hs
    obtain ⟨u, hu, htime, -⟩ := mem_monitor (fun s hs => (h.world.sound s hs).1) ht
    rcases checkSession_active (c := (l.counted e).checkEnv e i) hchecked ha with ⟨rfl, hends⟩
    exact ⟨htime ▸ htimes u hu, (he.now i).symm.le.trans hends⟩
  refine ⟨_, hwait, pollTimeout_pos (by decide), pollTimeout_le, fun s hs ha c hn hm' hnow => ?_, fun hshort => ?_⟩
  · rw [hround, mem_sweep] at hs
    obtain ⟨htime, hends⟩ := hleft s hs ha
    obtain ⟨hint, hpos⟩ := stimeout_eq (Int.natCast_nonneg _) hm htime hends
    have hle : pollTimeout _ _ EPOLL_TIMEOUT ≤ _ :=
      pollTimeout_le_of_mem (f := (·.stimeout l.world.active l.maxsessions (T / 1000))) hs ha hpos
    refine checkSession_of_active ha ?_
    rw [hn, hm', ← ends_eq]
    omega
  · rcases pollTimeout_cases (f := (·.stimeout l.world.active l.maxsessions (T / 1000))) with heq | ⟨s, hs, ha, -, heq⟩
    · exact absurd heq hshort.ne
    · obtain ⟨htime, hends⟩ := hleft s hs ha
      obtain ⟨hint, -⟩ := stimeout_eq (Int.natCast_nonneg _) hm htime hends
      rw [hround, heq]
      refine ⟨s, mem_sweep.2 hs, ha, fun c hn hm' hnow => ?_⟩
      rcases checkSession_cases (c := c) (active_not_gone ha) with hdel | ⟨hgone, -⟩ | ⟨-, -, hlate⟩
      · exact .inl hdel
      · exact .inr hgone
      · rw [hn, hm'] at hlate
        omega

/-- The loop has one session, of a datagram in the second 7. -/
def sampleQuiet : Loop := (sampleBurst 1).foldl loopStep sampleStart

theorem sampleQuiet_reached : sampleQuiet.Reached :=
  ⟨_, Run.ofList loopStep Loop.init (.start 50 (fun _ => true) :: sampleBurst 1)⟩

/-- A round at `T` milliseconds. -/
def sampleRound (T : Int) : RoundEnv := { ms := T, now := fun _ => T / 1000 }

theorem sampleRound_at (T : Int) : (sampleRound T).At T := ⟨rfl, fun _ => rfl⟩

/-- The loop sleeps until the session ends, and then as long as it may. -/
def sampleSleeps : List (RoundEnv × Int) :=
  [(sampleRound 7000, 293000), (sampleRound 293000, 3893000), (sampleRound 3893000, 7493000)]

theorem quiet_freed_sample :
    ((sampleSleeps.take 1).foldl quietStep (sampleQuiet, 7000)).1.world.sessions.length = 1 ∧
      ((sampleSleeps.foldl quietStep (sampleQuiet, 7000)).1.round (sampleRound 7493000)).world.sessions = [] := by
  have hrun : Run quietStep Quiet (sampleQuiet, 7000) sampleSleeps _ := Run.ofAllOk
    ⟨⟨sampleRound_at _, by decide, by decide +kernel⟩, ⟨sampleRound_at _, by decide, by decide +kernel⟩,
      ⟨sampleRound_at _, by decide, by decide +kernel⟩, trivial⟩
  refine ⟨by decide +kernel, (quiet_freed sampleQuiet_reached ?_ ?_ ?_ hrun).2 ?_ _ (sampleRound_at _)⟩
  · decide +kernel
  · decide +kernel
  · decide +kernel
  · decide

theorem sleep_exact_sample : sampleQuiet.wait (sampleRound 7000) 7 = 286000 ∧
    ∃ n, sampleQuiet.wait (sampleRound 7000) (7000 / 1000) = n * 1000 ∧ 1 ≤ n := by
  obtain ⟨n, hwait, hpos, -⟩ := sleep_exact sampleQuiet_reached (by decide +kernel) (sampleRound_at 7000)
    (by decide +kernel) (by decide +kernel) (by decide +kernel)
  exact ⟨by decide +kernel, n, hwait, hpos⟩

end TunProxy.Native
