import TunProxy.Vpn.Nat

/-!
# The table of sessions
-/

namespace TunProxy.Vpn

open NatSessionManager

variable {env : Env} {t : Sessions} {k k' : Int} {ip : BitVec 32} {port : BitVec 16} {clock : Clock}
  {now : BitVec 64} {e : NatSession}

theorem lookup_clearExpiredSessions (h : (clearExpiredSessions t now).lookup k = some e) :
    t.lookup k = some e := by
  have hm : (⟨k, e⟩ : Sigma fun _ : Int => NatSession) ∈ (clearExpiredSessions t now).entries :=
    AList.mem_lookup_iff.1 h
  exact AList.mem_lookup_iff.2 (List.mem_filter.1 hm).1

/-- Looking a session up changes its time only. -/
theorem lookup_getSession (h : (getSession t k now).1.lookup k' = some e) :
    ∃ e₀, t.lookup k' = some e₀ ∧ e = { e₀ with lastNanoTime := e.lastNanoTime } := by
  unfold getSession at h
  cases hk : t.lookup k with
  | none =>
      rw [hk] at h
      exact ⟨e, h, rfl⟩
  | some e₀ =>
      rw [hk] at h
      by_cases hkk : k' = k
      · subst hkk
        rw [AList.lookup_insert] at h
        cases h
        exact ⟨e₀, hk, rfl⟩
      · rw [AList.lookup_insert_ne hkk] at h
        exact ⟨e, h, rfl⟩

theorem lookup_getSession_of_ne (now : BitVec 64) (hk : k' ≠ k) : (getSession t k now).1.lookup k' = t.lookup k' := by
  unfold getSession
  cases t.lookup k with
  | none => rfl
  | some e => exact AList.lookup_insert_ne hk

theorem lookup_createSession_of_ne (hk : k' ≠ k)
    (h : (createSession env t k ip port clock).1.lookup k' = some e) : t.lookup k' = some e := by
  simp only [createSession] at h
  rw [AList.lookup_insert_ne hk] at h
  split at h
  · exact lookup_clearExpiredSessions h
  · exact h

/-- The session found for a packet, if it is one of its destination. -/
def sessionOf (t : Sessions) (k : Int) (ip : BitVec 32) (port : BitVec 16) : Option NatSession :=
  (t.lookup k).filter fun e => e.remoteIP = ip ∧ e.remotePort = port

theorem sessionOf_eq_some :
    sessionOf t k ip port = some e ↔ t.lookup k = some e ∧ e.remoteIP = ip ∧ e.remotePort = port := by
  simp [sessionOf, Option.filter_eq_some_iff]

/-- A packet is counted in the session of its destination, or in a new one. -/
theorem countPacket_snd (env : Env) (t : Sessions) (k : Int) (ip : BitVec 32) (port : BitVec 16) (clock : Clock) :
    (∃ e, sessionOf t k ip port = some e ∧ (countPacket env t k ip port clock).2
        = { e with lastNanoTime := clock.last, packetSent := e.packetSent + 1 }) ∨
    (sessionOf t k ip port = none ∧ ∃ host, (countPacket env t k ip port clock).2
        = { remoteIP := ip, remotePort := port, remoteHost := host, bytesSent := 0, packetSent := 1
            lastNanoTime := clock.last }) := by
  unfold countPacket getSession
  cases hk : t.lookup k with
  | none => exact .inr ⟨by simp [sessionOf, hk], _, rfl⟩
  | some e =>
      by_cases hd : e.remoteIP ≠ ip ∨ e.remotePort ≠ port
      · refine .inr ⟨?_, ?_⟩
        · simp only [sessionOf, hk, Option.filter_eq_none_iff]
          simp
          tauto
        · simp only [if_pos hd]
          exact ⟨_, rfl⟩
      · push Not at hd
        refine .inl ⟨e, sessionOf_eq_some.2 ⟨hk, hd⟩, ?_⟩
        simp [hd]

/-- The port's entry is that session; the other entries are what they were, or gone. -/
theorem lookup_countPacket (h : (countPacket env t k ip port clock).1.lookup k' = some e) :
    (k' = k ∧ e = (countPacket env t k ip port clock).2) ∨ (k' ≠ k ∧ t.lookup k' = some e) := by
  by_cases hk : k' = k
  · subst hk
    have hl : (countPacket env t k' ip port clock).1.lookup k'
        = some (countPacket env t k' ip port clock).2 := AList.lookup_insert _
    exact .inl ⟨rfl, Option.some.inj (h.symm.trans hl)⟩
  · refine .inr ⟨hk, ?_⟩
    rw [← lookup_getSession_of_ne clock.get hk]
    simp only [countPacket] at h
    rw [AList.lookup_insert_ne hk] at h
    cases hf : (getSession t k clock.get).2 with
    | none =>
        rw [hf] at h
        exact lookup_createSession_of_ne hk h
    | some e₀ =>
        rw [hf] at h
        simp only at h
        split at h
        · exact lookup_createSession_of_ne hk h
        · exact h

/-! ## The search for a host -/

variable {data : Native.Bytes} {dataOffset : Nat} {tcpDataSize : Int}

theorem findHost_eq (env : Env) (e : NatSession) (data : Native.Bytes) (dataOffset : Nat) (tcpDataSize : Int) :
    ∃ host, findHost env e data dataOffset tcpDataSize = { e with remoteHost := host } := by
  unfold findHost
  split
  · split
    · exact ⟨_, rfl⟩
    · exact ⟨_, rfl⟩
  · exact ⟨_, rfl⟩

@[simp] theorem findHost_remoteIP : (findHost env e data dataOffset tcpDataSize).remoteIP = e.remoteIP := by
  obtain ⟨host, h⟩ := findHost_eq env e data dataOffset tcpDataSize
  rw [h]

@[simp] theorem findHost_remotePort :
    (findHost env e data dataOffset tcpDataSize).remotePort = e.remotePort := by
  obtain ⟨host, h⟩ := findHost_eq env e data dataOffset tcpDataSize
  rw [h]

@[simp] theorem findHost_packetSent :
    (findHost env e data dataOffset tcpDataSize).packetSent = e.packetSent := by
  obtain ⟨host, h⟩ := findHost_eq env e data dataOffset tcpDataSize
  rw [h]

@[simp] theorem findHost_bytesSent : (findHost env e data dataOffset tcpDataSize).bytesSent = e.bytesSent := by
  obtain ⟨host, h⟩ := findHost_eq env e data dataOffset tcpDataSize
  rw [h]

end TunProxy.Vpn
