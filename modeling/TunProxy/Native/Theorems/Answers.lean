import TunProxy.Lib.Run
import TunProxy.Native.Lemmas.Rounds
import TunProxy.Native.Tcp.Lemmas.Forward

/-!
# Queries and answers of a DNS session

The first answer finishes a session to port 53 ("Prevent too many open files"): from then on its queries are ignored,
and the next sweep closes its socket. Until then, nothing is lost.
-/

namespace TunProxy.Native

open Lib

variable {s s' s₀ : UdpSession} {p p₀ : UdpPkt} {e₀ : UdpEnv} {op : UdpOp} {ops : List UdpOp} {io calls : List Io}
  {ev : Epoll} {rounds : List DatagramEnv}

/-! ## Datagrams -/

/-- A datagram given to `sendto`. -/
def Io.forwarded : Io → List Bytes
  | .sendto data _ => [data]
  | _ => []

/-- A datagram written to the tun. -/
def Io.answered : Io → List Bytes
  | .datagram data true => [data]
  | _ => []

def forwarded (io : List Io) : List Bytes := io.flatMap Io.forwarded
def answered (io : List Io) : List Bytes := io.flatMap Io.answered

@[simp] theorem forwarded_append : forwarded (io ++ calls) = forwarded io ++ forwarded calls := List.flatMap_append
@[simp] theorem answered_append : answered (io ++ calls) = answered io ++ answered calls := List.flatMap_append

/-- The query that the call brings to `handle_udp` for the session. -/
def UdpOp.queries (s : UdpSession) : UdpOp → List Bytes
  | .packet p _ => if p.belongs s then [p.data] else []
  | _ => []

/-- The datagram that `recv` returns. -/
def DatagramEnv.bytes (e : DatagramEnv) : Bytes :=
  match e.recv with
  | .got bytes => bytes
  | .fail _ => []

/-- The answers that are there at the event. -/
def UdpOp.answers : UdpOp → List Bytes
  | .socket ev rounds => if ev.err = false ∧ ev.inp = true then rounds.map DatagramEnv.bytes else []
  | _ => []

def UdpOp.isSweep : UdpOp → Bool
  | .check _ => true
  | _ => false

/-- The calls before the first answer. -/
def beforeAnswer (ops : List UdpOp) : List UdpOp := ops.takeWhile (·.answers = [])

/-- The calls before the sweep that follows the first answer. -/
def beforeClose (ops : List UdpOp) : List UdpOp :=
  beforeAnswer ops ++ (ops.dropWhile (·.answers = [])).takeWhile (!·.isSweep)

/-- Nothing goes wrong in the call: the reading of the query or the response comes to its end, `sendto` takes the whole
query, which is not one of DHCP, `recv` returns a datagram and `write` writes it, and a sweep comes within the timeout
and does not remove the session. -/
def DnsOk (s : UdpSession) : UdpOp → Prop
  | .packet p e => p.belongs s = true →
      p.ReadEnds e.behind ∧ e.sendto.ret = p.data.length ∧ (p.source = 68 → checkDhcp s p.data e.writeOk = none)
  | .socket _ rounds =>
      ∀ e ∈ rounds, ResponseReadEnds e.bytes e.behind ∧ e.writeOk = true ∧ e.bytes ≠ [] ∧ e.bytes.length ≤ s.mss
  | .check e => (s.state = .active → e.now ≤ s.time + getUdpTimeout s e.sessions e.maxsessions) ∧
      (checkUdpSession s e).2 = false

instance DnsOk.decidable : (op : UdpOp) → Decidable (DnsOk s op)
  | .packet _ _ => inferInstanceAs (Decidable (_ → _ ∧ _ ∧ (_ → _)))
  | .socket _ _ => inferInstanceAs (Decidable (∀ _ ∈ _, _))
  | .check _ => inferInstanceAs (Decidable ((_ → _) ∧ _))

/-- Every query of the run is forwarded, and every answer is written. -/
def NothingLost (s₀ : UdpSession) (ops : List UdpOp) : Prop :=
  forwarded (ops.foldl udpStep s₀).io = ops.flatMap (UdpOp.queries s₀) ∧
    answered (ops.foldl udpStep s₀).io = ops.flatMap UdpOp.answers

instance NothingLost.decidable : Decidable (NothingLost s₀ ops) := inferInstanceAs (Decidable (_ ∧ _))

/-! ## One call -/

/-- What the lookup and the buffer of `recv` depend on. -/
def UdpSession.key (s : UdpSession) : Nat × Nat × Bytes × BitVec 16 × Bytes × BitVec 16 :=
  (s.version, s.mss, s.saddr, s.source, s.daddr, s.dest)

theorem queries_congr (h : s.key = s'.key) : op.queries s = op.queries s' := by
  simp only [UdpSession.key, Prod.mk.injEq] at h
  obtain ⟨hv, -, hsa, hso, hda, hde⟩ := h
  cases op with
  | packet p e =>
      have hb : p.belongs s = p.belongs s' := by simp only [UdpPkt.belongs, hv, hsa, hso, hda, hde]
      simp only [UdpOp.queries, hb]
  | _ => rfl

theorem dest_congr (h : s.key = s'.key) : s.dest = s'.dest := by
  simp only [UdpSession.key, Prod.mk.injEq] at h
  exact h.2.2.2.2.2

/-- The session came to `state`, and the calls in between forwarded `queries` and wrote `answers`. -/
structure Passes (s s' : UdpSession) (state : UdpState) (queries answers : List Bytes) : Prop where
  key : s'.key = s.key
  state : s'.state = state
  forwarded : forwarded s'.io = forwarded s.io ++ queries
  answered : answered s'.io = answered s.io ++ answers

theorem Passes.refl (s : UdpSession) : Passes s s s.state [] [] :=
  ⟨rfl, rfl, (List.append_nil _).symm, (List.append_nil _).symm⟩

theorem Passes.trans {s'' : UdpSession} {state state' : UdpState} {queries queries' answers answers' : List Bytes}
    (h : Passes s s' state queries answers) (h' : Passes s' s'' state' queries' answers') :
    Passes s s'' state' (queries ++ queries') (answers ++ answers') :=
  ⟨h'.key.trans h.key, h'.state, by rw [h'.forwarded, h.forwarded, List.append_assoc],
    by rw [h'.answered, h.answered, List.append_assoc]⟩

theorem belongs_port (h : p.belongs s = true) : p.source = s.source ∧ p.dest = s.dest := by
  simp only [UdpPkt.belongs, decide_eq_true_eq] at h
  exact ⟨h.2.1.symm, h.2.2.1.symm⟩

/-- An active session forwards its queries. -/
theorem passes_query {e : UdpEnv} (hs : s.state = .active) (ho : 0 ≤ s.socket) (hd : s.dest = 53)
    (hok : DnsOk s (.packet p e)) :
    Passes s (udpStep s (.packet p e)) .active (UdpOp.queries s (.packet p e)) [] ∧
      (udpStep s (.packet p e)).socket = s.socket := by
  unfold udpStep UdpOp.queries
  dsimp only
  split
  · rename_i hb
    obtain ⟨hread, hret, hdhcp⟩ := hok hb
    have hport : p.dest ≠ 67 := by
      rw [(belongs_port hb).2, hd]
      decide
    have hnone : (if p.source = 68 ∨ p.dest = 67 then checkDhcp s p.data e.writeOk else none) = none := by
      split
      · rename_i h
        exact hdhcp (h.resolve_right hport)
      · rfl
    have hsize : ¬toSize p.data.length ≠ p.data.length := by
      have := e.sendto.ret_lt
      unfold toSize
      omega
    rw [handleUdp, if_neg (by simp [hs]), forwardUdp, UdpPkt.isRead_iff.2 hread, if_neg (Bool.noConfusion ·), hnone]
    dsimp only
    rw [onSocket_of_nonneg ho, hret, if_neg hsize]
    exact ⟨⟨rfl, hs, by simp [Native.forwarded, Io.forwarded], by simp [Native.answered, Io.answered]⟩, rfl⟩
  · exact ⟨hs ▸ Passes.refl s, rfl⟩

/-- A datagram is written, and finishes the session. -/
theorem passes_answer {e : DatagramEnv} (hev : e.ev.err = false ∧ e.ev.inp = true) (hd : s.dest = 53)
    (hok : ResponseReadEnds e.bytes e.behind ∧ e.writeOk = true ∧ e.bytes ≠ [] ∧ e.bytes.length ≤ s.mss) :
    Passes s (checkUdpSocket s e) .finishing [] [e.bytes] ∧ (checkUdpSocket s e).socket = s.socket := by
  obtain ⟨hread, hw, hne, hle⟩ := hok
  have hr : e.recv.upTo s.mss = .got e.bytes := by
    unfold DatagramEnv.bytes at hne hle ⊢
    cases hrecv : e.recv with
    | fail errno => simp [hrecv] at hne
    | got bytes =>
        simp only [hrecv] at hle
        simp only [RecvResult.upTo, List.take_of_length_le hle]
  unfold checkUdpSocket
  rw [hev.1, if_neg Bool.false_ne_true, if_pos hev.2]
  dsimp only
  rw [hr]
  generalize e.bytes = bytes at hread hne ⊢
  split
  · rename_i heq
    cases heq
  · rename_i heq
    cases heq
    exact absurd rfl hne
  · rename_i heq
    cases heq
    rw [UdpSession.isRead_iff.2 fun _ => hread, if_neg (Bool.noConfusion ·)]
    simp only [hw, hd, Bool.true_eq_false, ↓reduceIte, writeUdp]
    exact ⟨⟨by simp [UdpSession.key, hd], rfl, by simp [Native.forwarded, Io.forwarded],
      by simp [Native.answered, Io.answered]⟩, trivial⟩

/-- The state behind the answers of an event. -/
def UdpState.answered (state : UdpState) : List Bytes → UdpState
  | [] => state
  | _ :: _ => .finishing

/-- At an event, every datagram that is there is written, whether the session is active or not. -/
theorem passes_dispatch (hd : s.dest = 53) (hok : DnsOk s (.socket ev rounds)) :
    Passes s (dispatchUdp s ev rounds) (s.state.answered (UdpOp.socket ev rounds).answers) []
        (UdpOp.socket ev rounds).answers ∧ (dispatchUdp s ev rounds).socket = s.socket := by
  unfold dispatchUdp UdpOp.answers
  dsimp only
  by_cases hev : ev.err = false ∧ ev.inp = true
  · rw [if_pos hev, if_pos hev]
    induction rounds generalizing s with
    | nil => exact ⟨Passes.refl s, rfl⟩
    | cons e rounds ih =>
        obtain ⟨hpass, hsocket⟩ := passes_answer (s := s) (e := { e with ev }) hev hd (hok e List.mem_cons_self)
        have hmss : (checkUdpSocket s { e with ev }).mss = s.mss := by
          have := hpass.key
          simp only [UdpSession.key, Prod.mk.injEq] at this
          exact this.2.1
        obtain ⟨hrest, hsocket'⟩ := ih (s := checkUdpSocket s { e with ev }) ((dest_congr hpass.key).trans hd)
          (fun e' he' => hmss ▸ hok e' (List.mem_cons_of_mem _ he'))
        have hstate : (checkUdpSocket s { e with ev }).state.answered (rounds.map DatagramEnv.bytes) = .finishing := by
          rw [hpass.state]
          cases rounds <;> rfl
        rw [hstate] at hrest
        exact ⟨hpass.trans hrest, hsocket'.trans hsocket⟩
  · rw [if_neg hev, if_neg hev]
    exact ⟨Passes.refl s, rfl⟩

theorem passes_socket (ho : 0 ≤ s.socket) (hd : s.dest = 53) (hok : DnsOk s (.socket ev rounds)) :
    Passes s (udpStep s (.socket ev rounds)) (s.state.answered (UdpOp.socket ev rounds).answers) []
        (UdpOp.socket ev rounds).answers ∧ (udpStep s (.socket ev rounds)).socket = s.socket := by
  have hstep : udpStep s (.socket ev rounds) = dispatchUdp s ev rounds := if_pos ho
  rw [hstep]
  exact passes_dispatch hd hok

theorem checkUdpTimeout_of_ne {e : CheckEnv} (hs : s.state ≠ .active) : checkUdpTimeout s e = s := by
  rw [checkUdpTimeout, if_neg fun h => hs h.1]

/-- A sweep within the timeout leaves an active session alone. -/
theorem passes_sweep {e : CheckEnv} (hs : s.state = .active) (hok : DnsOk s (.check e)) : udpStep s (.check e) = s := by
  have htime : checkUdpTimeout s e = s := by
    have := hok.1 hs
    rw [checkUdpTimeout, if_neg]
    rintro ⟨-, hlt⟩
    omega
  simp only [udpStep, checkUdpSession, htime, checkUdpFinished, hs, reduceCtorEq, ↓reduceIte, false_and]

/-- A sweep closes the socket of a session that got an answer. -/
theorem passes_close {e : CheckEnv} (hs : s.state = .finishing) :
    Passes s (udpStep s (.check e)) .closed [] [] ∧ (udpStep s (.check e)).socket = -1 := by
  have htime : checkUdpTimeout s e = s := checkUdpTimeout_of_ne (by simp [hs])
  unfold udpStep checkUdpSession
  simp only [htime, checkUdpFinished, hs, ↓reduceIte, true_and]
  split <;> exact ⟨⟨rfl, rfl, by simp [Native.forwarded, Io.forwarded], by simp [Native.answered, Io.answered]⟩, rfl⟩

/-- The queries of a session that is not active are ignored. -/
theorem udpStep_ignores {e : UdpEnv} (hs : s.state ≠ .active) : udpStep s (.packet p e) = s := by
  unfold udpStep
  dsimp only
  split
  · rw [handleUdp, if_pos hs]
  · rfl

/-- A closed session does nothing any more. -/
theorem passes_closed (op : UdpOp) (hs : s.state = .closed) (hc : s.socket = -1) :
    Passes s (udpStep s op) .closed [] [] ∧ (udpStep s op).socket = -1 := by
  have hrefl : Passes s s .closed [] [] := hs ▸ Passes.refl s
  cases op with
  | packet p e =>
      rw [udpStep_ignores (by simp [hs])]
      exact ⟨hrefl, hc⟩
  | socket ev rounds =>
      have hstep : udpStep s (.socket ev rounds) = s := if_neg (by omega)
      rw [hstep]
      exact ⟨hrefl, hc⟩
  | check e =>
      have htime : checkUdpTimeout s e = s := checkUdpTimeout_of_ne (by simp [hs])
      unfold udpStep checkUdpSession
      simp only [htime, checkUdpFinished, hs, reduceCtorEq, ↓reduceIte, true_and]
      split
      · exact ⟨⟨by rw [← hs]; rfl, rfl, (List.append_nil _).symm, (List.append_nil _).symm⟩, hc⟩
      · exact ⟨hrefl, hc⟩

/-! ## Runs -/

theorem run_closed (hs : s.state = .closed) (hc : s.socket = -1) :
    Passes s (ops.foldl udpStep s) .closed [] [] := by
  induction ops generalizing s with
  | nil => exact hs ▸ Passes.refl s
  | cons op ops ih =>
      obtain ⟨hpass, hsocket⟩ := passes_closed op hs hc
      exact hpass.trans (ih hpass.state hsocket)

/-- Once an answer was there, all others are written until the next sweep, and no query is forwarded. -/
theorem run_finishing (hs : s.state = .finishing) (ho : 0 ≤ s.socket) (hd : s.dest = 53)
    (hok : AllOk udpStep DnsOk s ops) :
    ∃ state, Passes s (ops.foldl udpStep s) state [] ((ops.takeWhile (!·.isSweep)).flatMap UdpOp.answers) := by
  induction ops generalizing s with
  | nil => exact ⟨_, Passes.refl s⟩
  | cons op ops ih =>
      cases op with
      | packet p e =>
          have hstep := udpStep_ignores (p := p) (e := e) (s := s) (by simp [hs])
          rw [AllOk, hstep] at hok
          rw [List.foldl_cons, hstep]
          exact ih hs ho hd hok.2
      | socket ev rounds =>
          obtain ⟨hpass, hsocket⟩ := passes_socket ho hd hok.1
          have hstate : (udpStep s (.socket ev rounds)).state = .finishing := by
            rw [hpass.state, hs]
            cases (UdpOp.socket ev rounds).answers <;> rfl
          obtain ⟨state, hrest⟩ := ih hstate (hsocket ▸ ho) ((dest_congr hpass.key).trans hd) hok.2
          exact ⟨state, hpass.trans hrest⟩
      | check e =>
          obtain ⟨hpass, hsocket⟩ := passes_close (e := e) hs
          exact ⟨_, hpass.trans (run_closed hpass.state hsocket)⟩

theorem beforeAnswer_cons (h : op.answers = []) :
    beforeAnswer (op :: ops) = op :: beforeAnswer ops ∧ beforeClose (op :: ops) = op :: beforeClose ops := by
  have hb : decide (op.answers = []) = true := decide_eq_true h
  simp only [beforeClose, beforeAnswer, List.takeWhile_cons, List.dropWhile_cons, hb, ↓reduceIte, List.cons_append,
    and_self]

theorem beforeAnswer_answer (h : op.answers ≠ []) :
    beforeAnswer (op :: ops) = [] ∧ beforeClose (op :: ops) = (op :: ops).takeWhile (!·.isSweep) := by
  have hb : decide (op.answers = []) = false := decide_eq_false h
  simp only [beforeClose, beforeAnswer, List.takeWhile_cons, List.dropWhile_cons, hb, Bool.false_eq_true, ↓reduceIte,
    List.nil_append, and_self]

/-- As long as there was no answer, every query is forwarded. -/
theorem run_active (hs : s.state = .active) (ho : 0 ≤ s.socket) (hd : s.dest = 53) (hok : AllOk udpStep DnsOk s ops) :
    ∃ state, Passes s (ops.foldl udpStep s) state ((beforeAnswer ops).flatMap (UdpOp.queries s))
      ((beforeClose ops).flatMap UdpOp.answers) := by
  induction ops generalizing s with
  | nil => exact ⟨_, Passes.refl s⟩
  | cons op ops ih =>
      have hcons {queries answers : List Bytes} (h : Passes s (udpStep s op) .active queries answers)
          (hsocket : (udpStep s op).socket = s.socket) (hqueries : queries = op.queries s) (hanswers : answers = [])
          (hnil : op.answers = []) : ∃ state, Passes s (ops.foldl udpStep (udpStep s op)) state
            ((beforeAnswer (op :: ops)).flatMap (UdpOp.queries s))
            ((beforeClose (op :: ops)).flatMap UdpOp.answers) := by
        obtain ⟨state, hrest⟩ := ih h.state (hsocket ▸ ho) ((dest_congr h.key).trans hd) hok.2
        have hcongr : UdpOp.queries (udpStep s op) = UdpOp.queries s := funext fun _ => queries_congr h.key
        rw [hcongr] at hrest
        rw [(beforeAnswer_cons hnil).1, (beforeAnswer_cons hnil).2, List.flatMap_cons, List.flatMap_cons, hnil,
          ← hqueries, ← hanswers]
        exact ⟨state, h.trans hrest⟩
      cases op with
      | packet p e =>
          obtain ⟨hpass, hsocket⟩ := passes_query hs ho hd hok.1
          exact hcons hpass hsocket rfl rfl rfl
      | socket ev rounds =>
          obtain ⟨hpass, hsocket⟩ := passes_socket ho hd hok.1
          by_cases hnil : (UdpOp.socket ev rounds).answers = []
          · rw [hnil, hs] at hpass
            exact hcons hpass hsocket rfl rfl hnil
          · have hstate : (udpStep s (.socket ev rounds)).state = .finishing := by
              rw [hpass.state]
              cases h : (UdpOp.socket ev rounds).answers with
              | nil => exact absurd h hnil
              | cons _ _ => rfl
            obtain ⟨state, hrest⟩ :=
              run_finishing hstate (hsocket ▸ ho) ((dest_congr hpass.key).trans hd) hok.2
            rw [(beforeAnswer_answer hnil).1, (beforeAnswer_answer hnil).2]
            exact ⟨state, hpass.trans hrest⟩
      | check e =>
          have hstep := passes_sweep hs hok.1
          exact hcons (hstep.symm ▸ hs ▸ Passes.refl s) (by rw [hstep]) rfl rfl rfl

/-- For every run of a session to port 53 in which nothing fails or times out: exactly the queries before the first
answer are forwarded, and exactly the answers before the sweep that follows the first one are written to the tun. -/
theorem dns_forwarded_answered (h₀ : handleUdpNew p₀ e₀ = some s₀) (hp : p₀.dest = 53)
    (hok : AllOk udpStep DnsOk s₀ ops) :
    forwarded (ops.foldl udpStep s₀).io = (beforeAnswer ops).flatMap (UdpOp.queries s₀) ∧
      answered (ops.foldl udpStep s₀).io = (beforeClose ops).flatMap UdpOp.answers := by
  unfold handleUdpNew at h₀
  split at h₀
  · cases h₀
  · rename_i ho
    cases h₀
    obtain ⟨_, hpass⟩ := run_active rfl (by simpa using ho) hp hok
    exact ⟨hpass.forwarded, hpass.answered⟩

/-- A client that asks for the address of `a`. -/
def sampleLookup (id : UInt8) : UdpPkt where
  version := 4
  saddr := [10, 1, 10, 1]
  daddr := [8, 8, 8, 8]
  source := 5353
  dest := 53
  data := [0, id, 1, 0, 0, 1, 0, 0, 0, 0, 0, 0] ++ [1, 97, 0, 0, 1, 0, 1]

/-- The answer, with an address. -/
def sampleAddress (id : UInt8) : Bytes :=
  [0, id, 0x81, 0x80, 0, 1, 0, 1, 0, 0, 0, 0] ++ [1, 97, 0, 0, 1, 0, 1] ++
    [0xC0, 12, 0, 1, 0, 1, 0, 0, 0, 60, 0, 4, 192, 0, 2, 1]

def sampleResolver : UdpSession where
  time := 0
  version := 4
  mss := UDP4_MAXMSG
  sent := 0
  received := 0
  saddr := [10, 1, 10, 1]
  source := 5353
  daddr := [8, 8, 8, 8]
  dest := 53
  state := .active
  socket := 7
  io := [.open 7]

theorem sampleResolver_new : handleUdpNew (sampleLookup 1) { socket := 7 } = some sampleResolver := rfl

/-- The event of answers. -/
def sampleAddresses (ids : List UInt8) : UdpOp :=
  .socket ⟨false, true, false⟩ (ids.map fun id => { ev := ⟨false, true, false⟩, recv := .got (sampleAddress id) })

def sampleLookupOp (id : UInt8) : UdpOp := .packet (sampleLookup id) { sendto := { ret := 19, errno := .other } }

/-- Two queries with their answers at once, a third query and the sweep. -/
def sampleLookups : List UdpOp :=
  [sampleLookupOp 1, sampleLookupOp 2, sampleAddresses [1, 2], sampleLookupOp 3, .check {}]

theorem dns_forwarded_answered_sample :
    forwarded (sampleLookups.foldl udpStep sampleResolver).io = [(sampleLookup 1).data, (sampleLookup 2).data] ∧
      answered (sampleLookups.foldl udpStep sampleResolver).io = [sampleAddress 1, sampleAddress 2] :=
  dns_forwarded_answered sampleResolver_new rfl (by decide +kernel)

/-- The second query is answered after the sweep that follows the first answer, and the third one is ignored. -/
def sampleLostAnswer : List UdpOp :=
  [sampleLookupOp 1, sampleLookupOp 2, sampleAddresses [1], sampleLookupOp 3, .check {}, sampleAddresses [2]]

theorem dns_answer_lost :
    AllOk udpStep DnsOk sampleResolver sampleLostAnswer ∧
      forwarded (sampleLostAnswer.foldl udpStep sampleResolver).io = [(sampleLookup 1).data, (sampleLookup 2).data] ∧
      answered (sampleLostAnswer.foldl udpStep sampleResolver).io = [sampleAddress 1] ∧
      ¬NothingLost sampleResolver sampleLostAnswer := by
  decide +kernel

end TunProxy.Native
