import TunProxy.Native.Tcp.Lemmas.Blocks

/-!
# The queue in memory

No call of a session reads, writes or frees a block that is not allocated, and none is lost.
-/

namespace TunProxy.Native

open Lib.Linked

variable {m : Blocks} {s s₀ : TcpSession} {cells : List Cell} {p : TcpPkt}

/-- The blocks and the session know the same queue. -/
def Blocks.Holds (m : Blocks) (s : TcpSession) : Prop := ∃ cells, m.Represents cells ∧ cells.map Cell.seg = s.forward

theorem Blocks.Holds.forwardData (h : m.Holds s) (e : SocketEnv) : ∃ m' s',
    m.forwardLoop e (rounds m.segments) 0 (BitVec.ofNat 32 (getReceiveBuffer s e.fwdBuf)) false s =
      some (m', s', (forwardData s e).2) ∧
    m'.Holds (Native.forwardData s e).1 ∧
    { s' with forward := (Native.forwardData s e).1.forward } = (Native.forwardData s e).1 := by
  obtain ⟨cells, hrep, hq⟩ := h
  have hlt : s.forward.length < rounds m.segments := by
    rw [← hq, List.length_map, ← List.length_map (f := Cell.block)]
    exact hrep.list.seg.length_lt
  obtain ⟨m', s', cells', hloop, hrep', hs'⟩ :=
    Blocks.forwardLoop_eq e 0 (BitVec.ofNat 32 (getReceiveBuffer s e.fwdBuf)) false s s.forward hrep hq hlt
  refine ⟨m', s', hloop, ⟨cells', hrep', ?_⟩, ?_⟩
  · rw [Native.forwardData, hs']
  · rw [Native.forwardData, hs']

theorem Blocks.Holds.congr {s' : TcpSession} (h : m.Holds s) (hf : s'.forward = s.forward) : m.Holds s' := by
  obtain ⟨cells, hrep, hq⟩ := h
  exact ⟨cells, hrep, hq.trans hf.symm⟩

theorem Blocks.Holds.window (h : m.Holds s) (s' : TcpSession) (b : SockBuf) :
    ∃ window, m.getReceiveWindow s' b = some window := by
  obtain ⟨cells, hrep, -⟩ := h
  exact Blocks.getReceiveWindow_some hrep s' b

/-- What an event of the socket does to the blocks. -/
theorem Blocks.Holds.socket (h : m.Holds s) (e : SocketEnv) (a : Alloc) :
    ∃ m', m.call s a (.socket e) = some m' ∧ m'.Holds (tcpStep s (.socket e)) := by
  by_cases hloop : 0 ≤ s.socket ∧ e.ev.err = false ∧ s.state ≠ .listen
  · have hstep : (tcpStep s (.socket e)).forward =
        if e.ev.out then (Native.forwardData s e).1.forward else s.forward := by
      rw [← checkTcpSocket_forward hloop.2.1 hloop.2.2, tcpStep, if_pos hloop.1]
    simp only [Blocks.call, if_pos hloop]
    cases hout : e.ev.out with
    | false =>
        rw [hout] at hstep
        obtain ⟨window, hwindow⟩ := h.window s e.winBuf
        exact ⟨m, by simp [hwindow], h.congr hstep⟩
    | true =>
        rw [hout] at hstep
        obtain ⟨m', s', heq, hholds, -⟩ := h.forwardData e
        simp only [if_true, heq]
        cases (Native.forwardData s e).2 with
        | none => exact ⟨m', rfl, hholds.congr hstep⟩
        | some fwd =>
            obtain ⟨window, hwindow⟩ := hholds.window s' e.winBuf
            exact ⟨m', by simp [hwindow], hholds.congr hstep⟩
  · refine ⟨m, by simp only [Blocks.call, if_neg hloop], h.congr ?_⟩
    simp only [tcpStep]
    split
    · rename_i ho
      unfold checkTcpSocket
      split
      · rw [writeRst_eq]
      · rename_i herr
        split
        · exact checkListen_forward s e
        · rename_i hl
          exact absurd ⟨ho, by simpa using herr, hl⟩ hloop
    · rfl

/-- What a call does to the blocks. -/
theorem Blocks.Holds.call (h : m.Holds s) (op : TcpOp) (a : Alloc) :
    ∃ m', m.call s a op = some m' ∧ m'.Holds (tcpStep s op) := by
  have hquiet : (∀ p e, op = .packet p e → ¬p.Queues s) → (∀ e, op ≠ .socket e) → m.Holds (tcpStep s op) := by
    intro hp hs
    obtain ⟨cells, hrep, hq⟩ := h
    exact ⟨cells, hrep, hq.trans (tcpStep_forward_of_quiet hp hs).symm⟩
  cases op with
  | packet p e =>
      by_cases hqueues : p.Queues s
      · obtain ⟨cells, hrep, hq⟩ := h
        obtain ⟨m', cells', heq, hrep', hq'⟩ := Blocks.queueTcp_eq (p := p) hrep (seqAtQueue s p e) a
        refine ⟨m', by simp only [Blocks.call, hqueues, if_true, heq], cells', hrep', ?_⟩
        rw [hq', hq, tcpStep_packet hqueues.1, handleTcp_forward e hqueues]
      · refine ⟨m, by simp only [Blocks.call, hqueues, if_false], hquiet ?_ fun _ h => by cases h⟩
        rintro _ _ ⟨⟩
        exact hqueues
  | socket e => exact h.socket e a
  | monitor e =>
      have hkept := hquiet (fun _ _ h => by cases h) fun _ h => by cases h
      obtain ⟨cells, hrep, hq⟩ := h
      have hforward := Blocks.canForward_eq hrep hq.symm e.buf
      refine ⟨m, ?_, hkept⟩
      simp only [Blocks.call, hforward, Option.map_some, ite_self]
  | check e => exact ⟨m, rfl, hquiet (fun _ _ h => by cases h) fun _ h => by cases h⟩
  | stop ok => exact ⟨m, rfl, hquiet (fun _ _ h => by cases h) fun _ h => by cases h⟩

theorem Blocks.Holds.run (h : m.Holds s) (calls : List (TcpOp × Alloc)) :
    ∃ m', m.run s calls = some (m', (calls.map Prod.fst).foldl tcpStep s) ∧
      m'.Holds ((calls.map Prod.fst).foldl tcpStep s) := by
  induction calls generalizing m s with
  | nil => exact ⟨m, rfl, h⟩
  | cons c calls ih =>
      obtain ⟨op, a⟩ := c
      obtain ⟨m₁, hcall, hholds⟩ := h.call op a
      obtain ⟨m', hrun, hholds'⟩ := ih hholds
      exact ⟨m', by simp only [Blocks.run, hcall, hrun, List.map_cons, List.foldl_cons], hholds'⟩

/-- In every run of a session, and whatever addresses `malloc` returns, the calls find all blocks that they read, write
and free (what `patch_http_url` reads behind a block apart). The receive window and the forward loop computed through
the pointers are those of the queue, and `clear_tcp_data` frees every block. -/
theorem queue_in_memory {e : HandleEnv} (h₀ : handleTcpNew p e = some s₀) (a : Alloc) (calls : List (TcpOp × Alloc)) :
    ∃ m₀ m s, Blocks.ofSyn p a = some m₀ ∧ m₀.run s₀ calls = some (m, s) ∧
      s = (calls.map Prod.fst).foldl tcpStep s₀ ∧
      (∀ b, m.getReceiveWindow s b = some (getReceiveWindow s b)) ∧
      (∀ e, ∃ m' s', m.forwardLoop e (rounds m.segments) 0 (BitVec.ofNat 32 (getReceiveBuffer s e.fwdBuf)) false s =
          some (m', s', (forwardData s e).2) ∧
        { s' with forward := (forwardData s e).1.forward } = (forwardData s e).1) ∧
      ∃ m', m.clearTcpData = some m' ∧ m'.segments.keys = [] ∧ m'.datas.keys = [] := by
  obtain ⟨-, -, -, mss, ws, hs⟩ := handleTcpNew_some h₀
  obtain ⟨m₀, cells, hsyn, hrep, hq⟩ := Blocks.ofSyn_eq p a
  have hholds : m₀.Holds s₀ := ⟨cells, hrep, by rw [hq, hs]; rfl⟩
  obtain ⟨m, hrun, hm⟩ := hholds.run calls
  refine ⟨m₀, m, _, hsyn, hrun, rfl, ?_, ?_, ?_⟩
  · obtain ⟨cells, hrep, hq⟩ := hm
    exact Blocks.getReceiveWindow_eq hrep hq.symm
  · intro e
    obtain ⟨m', s', heq, -, hs'⟩ := hm.forwardData e
    exact ⟨m', s', heq, hs'⟩
  · obtain ⟨cells, hrep, -⟩ := hm
    exact Blocks.clearTcpData_eq hrep

/-- Two segments, of which the second one comes first. -/
def sampleSegments : List (TcpOp × Alloc) :=
  [(.socket { ev := ⟨false, false, true⟩ }, .next), (.packet (samplePkt 8080 1001 1 []) {}, .next),
    (.packet (samplePkt 8080 1004 1 [97, 98, 99]) {}, .next), (.packet (samplePkt 8080 1001 1 [97, 98, 99]) {}, .next)]

theorem queue_in_memory_sample : ∃ m₀ m s, Blocks.ofSyn (sampleSyn 8080) .next = some m₀ ∧
    m₀.run (sampleSession 8080) sampleSegments = some (m, s) ∧ s.forward.map Segment.seq = [1001, 1004] ∧
    ∃ m', m.clearTcpData = some m' ∧ m'.segments.keys = [] ∧ m'.datas.keys = [] := by
  obtain ⟨m₀, m, s, hsyn, hrun, hs, -, -, hclear⟩ := queue_in_memory (sampleSession_new 8080) .next sampleSegments
  refine ⟨m₀, m, s, hsyn, hrun, ?_, hclear⟩
  rw [hs]
  decide +kernel

end TunProxy.Native
