import TunProxy.Native.Lemmas.Session
import TunProxy.Native.Theorems.Keys

/-!
# The loop runs the TCP sessions apart

The list of sessions is the product of its TCP sessions: each of them is where its own calls lead, from the SYN that
registered it, and a packet is no call for the sessions of other connections.
-/

namespace TunProxy.Native

open Lib

variable {w : World} {op : NgOp} {l l' : List NgSession} {s s' : TcpSession} {t : NgSession} {i : Nat}
  {handle : NgSession → Option NgSession}

/-- The call a step makes for the TCP session at the place `i` of the list. -/
def NgOp.tcpCall : NgOp → Nat → Option TcpOp
  | .tcp p e, _ => some (.packet p e)
  | .event j (.tcp e), i => if j = i then some (.socket e) else none
  | .monitor e, i => some (.monitor (e i))
  | .sweep e, i => some (.check (e i))
  | .allowed writeOk, i => some (.stop (writeOk i))
  | _, _ => none

/-- The calls made for a session, where its place before each step is known. -/
def ownCalls (ops : List (NgOp × Nat)) : List TcpOp := ops.filterMap fun x => x.1.tcpCall x.2

/-! ## Keys -/

def NgSession.tcpKey : NgSession → Option Key
  | .tcp s => some (NgSession.tcp s).key
  | _ => none

/-- No two TCP sessions have the same addresses and ports. -/
def World.TcpUnique (w : World) : Prop := (w.sessions.filterMap NgSession.tcpKey).Nodup

theorem Changes.tcpKey {t t' : NgSession} (h : Changes op t t') : t'.tcpKey = t.tcpKey := by
  cases h with
  | tcpPacket hop hb => exact congrArg some (tcpStep_key _ _)
  | tcpOther op' hop => exact congrArg some (tcpStep_key _ _)
  | _ => rfl

theorem tcpKeys_after (h : List.Forall₂ (Changes op) l l') :
    l'.filterMap NgSession.tcpKey = l.filterMap NgSession.tcpKey := by
  induction h with
  | nil => rfl
  | cons hc _ ih => simp only [List.filterMap_cons, hc.tcpKey, ih]

theorem belongs_iff_key {p : TcpPkt} {e : HandleEnv} :
    p.belongs s = true ↔ (NgOp.tcp p e).key = some (NgSession.tcp s).key := by
  simp only [TcpPkt.belongs, NgOp.key, NgSession.key, decide_eq_true_eq, Option.some.injEq, Key.tcp.injEq]
  tauto

theorem ngStep_tcpUnique (h : w.TcpUnique) (op : NgOp) : (ngStep w op).TcpUnique := by
  have hafter := tcpKeys_after (after_changes w op)
  unfold World.TcpUnique at h ⊢
  rcases ngStep_cases w op with hsub | ⟨t, hnew, hunknown, -, heq⟩
  · rw [← hafter] at h
    exact h.sublist (hsub.filterMap _)
  · rw [heq]
    cases hnew with
    | @tcp p e s hnew =>
        simp only [List.filterMap_cons, NgSession.tcpKey, List.nodup_cons]
        refine ⟨fun hmem => ?_, h⟩
        obtain ⟨t, ht, hkey⟩ := List.mem_filterMap.1 hmem
        cases t with
        | tcp u =>
            rw [handleTcpNew_key hnew] at hkey
            exact hunknown.ne rfl ht rfl (Option.some.inj hkey)
        | icmp u => cases hkey
        | udp u => cases hkey
    | icmp he hnew => exact h
    | udp hnew => exact h
    | block => exact h

/-- The sessions before a TCP session have other keys. -/
theorem World.TcpUnique.before (h : w.TcpUnique) {l₁ l₂ : List NgSession} (hl : w.sessions = l₁ ++ .tcp s :: l₂)
    {u : TcpSession} (hu : .tcp u ∈ l₁) : (NgSession.tcp u).key ≠ (NgSession.tcp s).key := by
  intro heq
  rw [World.TcpUnique, hl, List.filterMap_append, List.nodup_append] at h
  refine h.2.2 _ (List.mem_filterMap.2 ⟨_, hu, rfl⟩) _ (List.mem_filterMap.2 ⟨_, List.mem_cons_self, rfl⟩) heq

/-! ## One step -/

/-- A session that the search does not take stays where it is. -/
theorem updateFirst_getElem? (h : updateFirst handle l = some l') (hi : l[i]? = some t) (ht : handle t = none) :
    l'[i]? = some t := by
  induction l generalizing l' i with
  | nil => cases h
  | cons u l ih =>
      cases hu : handle u with
      | some u' =>
          simp only [updateFirst, hu, Option.some.injEq] at h
          subst h
          cases i with
          | zero =>
              simp only [List.getElem?_cons_zero, Option.some.injEq] at hi
              rw [hi, ht] at hu
              cases hu
          | succ i => exact hi
      | none =>
          simp only [updateFirst, hu, Option.map_eq_some_iff] at h
          obtain ⟨rest, hrest, rfl⟩ := h
          cases i with
          | zero => exact hi
          | succ i =>
              rw [List.getElem?_cons_succ] at hi ⊢
              exact ih hrest hi

/-- The session after its call, if it has one. -/
def called (s : TcpSession) (call : Option TcpOp) : TcpSession := call.elim s (tcpStep s)

theorem after_called (h : w.TcpUnique) (hi : w.sessions[i]? = some (.tcp s)) :
    (w.after op)[i]? = some (.tcp (called s (op.tcpCall i))) := by
  cases op with
  | icmp p e =>
      simp only [World.after, NgOp.tcpCall, called]
      split
      · cases hu : updateFirst _ w.sessions with
        | none => exact hi
        | some l => exact updateFirst_getElem? hu hi rfl
      · exact hi
  | udp p e =>
      simp only [World.after, NgOp.tcpCall, called]
      cases hu : updateFirst _ w.sessions with
      | none => exact hi
      | some l => exact updateFirst_getElem? hu hi rfl
  | tcp p e =>
      simp only [World.after, NgOp.tcpCall, called, Option.elim_some]
      by_cases hb : p.belongs s = true
      · obtain ⟨l₁, l₂, hl, rfl⟩ : ∃ l₁ l₂, w.sessions = l₁ ++ .tcp s :: l₂ ∧ l₁.length = i := by
          obtain ⟨hlt, hget⟩ := List.getElem?_eq_some_iff.1 hi
          refine ⟨w.sessions.take i, w.sessions.drop (i + 1), ?_, by simp; omega⟩
          rw [← hget, List.getElem_cons_drop, List.take_append_drop]
        have hbefore : ∀ t ∈ l₁, ∀ u, t = .tcp u → ¬p.belongs u = true := by
          rintro t ht u rfl hu
          have hkey := h.before hl ht
          rw [belongs_iff_key (e := e)] at hu hb
          exact hkey (Option.some.inj (hu.symm.trans hb))
        rw [hl, @updateFirst_append _ _ (.tcp (tcpStep s (.packet p e)))]
        · simp
        · intro t ht
          cases t with
          | tcp u => simp [hbefore _ ht u rfl]
          | icmp u => rfl
          | udp u => rfl
        · simp [hb]
      · rw [tcpStep_other hb]
        cases hu : updateFirst _ w.sessions with
        | none => exact hi
        | some l => exact updateFirst_getElem? hu hi (by simp [hb])
  | block p now memory => exact hi
  | event j e =>
      simp only [World.after, List.getElem?_modify, hi]
      cases e with
      | datagram e =>
          simp only [NgOp.tcpCall, called, checkSocket]
          split <;> simp
      | tcp e =>
          by_cases hij : j = i
          · simp only [NgOp.tcpCall, called, checkSocket, hij, if_true, Option.elim_some, tcpStep, NgSession.socket]
            by_cases hs : s.socket < 0
            · simp [hs]
            · simp [hs, not_lt.1 hs]
          · simp [NgOp.tcpCall, called, hij]
  | monitor e => simp [World.after, World.monitor, NgOp.tcpCall, called, hi]
  | sweep e => simp [World.after, NgOp.tcpCall, called, hi, checkSession, tcpStep]
  | allowed writeOk => simp [World.after, NgOp.tcpCall, called, hi, stopSession]

/-- A TCP session that a step leaves was one before. -/
theorem tcp_before (h : List.Forall₂ (Changes op) l l') (hi : l'[i]? = some (.tcp s')) :
    ∃ s, l[i]? = some (.tcp s) := by
  induction h generalizing i with
  | nil => cases hi
  | cons hc _ ih =>
      cases i with
      | succ i => exact ih hi
      | zero =>
          simp only [List.getElem?_cons_zero, Option.some.injEq] at hi
          subst hi
          cases hc with
          | refl => exact ⟨_, rfl⟩
          | tcpPacket hop hb => exact ⟨_, rfl⟩
          | tcpOther op' hop => exact ⟨_, rfl⟩

/-! ## A run -/

theorem ownCalls_snoc {ops : List (NgOp × Nat)} {i : Nat} :
    called ((ownCalls ops).foldl tcpStep s) (op.tcpCall i) = (ownCalls (ops ++ [(op, i)])).foldl tcpStep s := by
  simp only [ownCalls, List.filterMap_append, List.foldl_append, List.filterMap_cons, List.filterMap_nil, called]
  cases op.tcpCall i with
  | none => rfl
  | some call => rfl

/-- The session is where its own calls lead from the SYN that registered it. `places` are its places in the list
before each step since: there it is, in the state its calls so far lead to. -/
def Apart (ops : List NgOp) (s : TcpSession) : Prop :=
  ∃ before p e after places s₀, ops = before ++ .tcp p e :: after ∧ handleTcpNew p e = some s₀ ∧
    places.length = after.length ∧ s = (ownCalls (after.zip places)).foldl tcpStep s₀ ∧
    ∀ k i, places[k]? = some i →
      ((before ++ .tcp p e :: after.take k).foldl ngStep World.init).sessions[i]? =
        some (.tcp ((ownCalls ((after.zip places).take k)).foldl tcpStep s₀))

theorem Apart.opened {ops : List NgOp} {p : TcpPkt} {e : HandleEnv} (h : handleTcpNew p e = some s) :
    Apart (ops ++ [.tcp p e]) s :=
  ⟨ops, p, e, [], [], s, rfl, h, rfl, rfl, by simp⟩

theorem Apart.snoc {ops : List NgOp} (h : Apart ops s)
    (hi : (ops.foldl ngStep World.init).sessions[i]? = some (.tcp s)) :
    Apart (ops ++ [op]) (called s (op.tcpCall i)) := by
  obtain ⟨before, p, e, after, places, s₀, rfl, hnew, hlen, rfl, hplaces⟩ := h
  have hzip : (after ++ [op]).zip (places ++ [i]) = after.zip places ++ [(op, i)] := List.zip_append hlen.symm
  have hzlen : (after.zip places).length = after.length := by simp [hlen]
  refine ⟨before, p, e, after ++ [op], places ++ [i], s₀, by simp, hnew, by simp [hlen], ?_, fun k j hk => ?_⟩
  · rw [ownCalls_snoc, hzip]
  · rcases Nat.lt_or_ge k places.length with hlt | hge
    · rw [List.getElem?_append_left hlt] at hk
      rw [hzip, List.take_append_of_le_length (hlen ▸ hlt.le), List.take_append_of_le_length (by omega)]
      exact hplaces k j hk
    · obtain rfl : k = places.length := by
        have := (List.getElem?_eq_some_iff.1 hk).1
        simp only [List.length_append, List.length_cons, List.length_nil] at this
        omega
      simp only [List.getElem?_concat_length, Option.some.injEq] at hk
      subst hk
      rw [hzip, hlen, List.take_left, ← hzlen, List.take_left]
      exact hi

/-- In every order of packets, events and sweeps each TCP session is where its own calls lead from the SYN that
registered it: the loop runs the sessions apart. -/
theorem tcp_session_of_own_calls {ops : List NgOp} (h : Run ngStep (fun _ _ => True) World.init ops w) :
    ∀ s, .tcp s ∈ w.sessions → Apart ops s := by
  refine (h.invariant (I := fun ops w => w = ops.foldl ngStep World.init ∧ w.TcpUnique ∧
    ∀ s, .tcp s ∈ w.sessions → Apart ops s) ?_ ?_).2.2
  · exact ⟨rfl, List.nodup_nil, fun s hs => by cases hs⟩
  · rintro ops w op ⟨hw, hunique, hapart⟩ -
    have hafter : ∀ s, .tcp s ∈ w.after op → Apart (ops ++ [op]) s := by
      intro s' hs'
      obtain ⟨i, hi⟩ := List.mem_iff_getElem?.1 hs'
      obtain ⟨s, hs⟩ := tcp_before (after_changes w op) hi
      rw [after_called hunique hs, Option.some.injEq, NgSession.tcp.injEq] at hi
      rw [← hi]
      exact (hapart s (List.mem_of_getElem? hs)).snoc (hw ▸ hs)
    refine ⟨by simp [hw], ngStep_tcpUnique hunique op, fun s hs => ?_⟩
    rcases ngStep_cases w op with hsub | ⟨t, hnew, -, heq, hstep⟩
    · exact hafter s (hsub.subset hs)
    · rw [hstep] at hs
      rcases List.mem_cons.1 hs with rfl | hs
      · cases hnew with
        | tcp hnew => exact .opened hnew
      · exact hafter s (heq ▸ hs)

/-- Two connections are opened, and the socket of the first one, the second in the list, is connected. -/
def sampleTwo : List NgOp :=
  [.tcp (sampleSyn 80) { socket := 5, buf := ⟨1, 0⟩ }, .tcp (sampleSyn 8080) { socket := 6, buf := ⟨1, 0⟩ },
    .event 1 (.tcp { ev := ⟨false, false, true⟩ }), .sweep fun _ => { now := 1, sessions := 2, maxsessions := 400 }]

def sampleFirst : TcpSession :=
  [TcpOp.packet (sampleSyn 8080) { socket := 6, buf := ⟨1, 0⟩ }, .socket { ev := ⟨false, false, true⟩ },
    .check { now := 1, sessions := 2, maxsessions := 400 }].foldl tcpStep (sampleSession 80)

theorem tcp_session_of_own_calls_sample :
    sampleFirst.state = .synRecv ∧ sampleFirst.localSeq = 1 ∧ Apart sampleTwo sampleFirst := by
  refine ⟨by decide, by decide, ?_⟩
  have hrun := Run.ofList ngStep World.init sampleTwo
  exact tcp_session_of_own_calls hrun sampleFirst (by decide)

end TunProxy.Native
