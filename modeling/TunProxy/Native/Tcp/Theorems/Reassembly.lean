import TunProxy.Native.Tcp.Lemmas.Coherent

/-!
# The queue of data for the socket

As long as packets fit into the gaps of the queue, its segments are in order and apart from each other, and the first
one is never behind the place of the next byte.
-/

namespace TunProxy.Native

open Lib Lib.Serial

variable {op : TcpOp} {old s s' : TcpSession} {ph ph' : Phase} {p : TcpPkt} {q : Segment} {rest forward : List Segment}
  {remoteSeq : U32}

/-- `a` is before `b` in the order of RFC 1982, and does not reach into it. -/
def Segment.Precedes (a b : Segment) : Prop := Before a.seq b.seq ∧ a.len ≤ dist a.seq b.seq

structure QueueOk (forward : List Segment) (remoteSeq : U32) : Prop where
  order : forward.Pairwise Segment.Precedes
  len_pos : ∀ q ∈ forward, 0 < q.len
  unsent : ∀ q ∈ forward.tail, q.sent = 0
  head : ∀ q ∈ forward.head?, NotBefore q.pos remoteSeq

/-- The loop of `queue_tcp` stops at a segment with the number of the packet. -/
def Known (p : TcpPkt) (forward : List Segment) : Prop := ∃ q ∈ (forward.dropWhile p.skips).head?, q.seq = p.seq

/-- The data has its place between the segments of the queue, where the loop of `queue_tcp` stops. -/
structure Fits (p : TcpPkt) (forward : List Segment) (remoteSeq : U32) : Prop where
  data : p.data ≠ []
  before : ∀ q ∈ forward.takeWhile p.skips, q.Precedes p.segment
  after : ∀ q ∈ forward.dropWhile p.skips, p.segment.Precedes q ∧ q.sent = 0
  first : forward.takeWhile p.skips = [] → NotBefore p.seq remoteSeq

/-- Data that the call queues fits, or is known. -/
def PacketFits (s : TcpSession) : TcpOp → Prop
  | .packet p e => p.Queues s → ¬compareU32 p.seq (seqAtQueue s p e) < 0 →
      Known p s.forward ∨ Fits p s.forward (seqAtQueue s p e)
  | _ => True

/-- The call queues nothing but data that fits, and counts the SYN only where the queue does not begin at it. -/
def QueueSafe (s : TcpSession) (op : TcpOp) : Prop :=
  PacketFits s op ∧ (CountsSyn s op → ∀ q ∈ (queueAtCount s op).head?, q.pos ≠ s.remoteSeq)

/-- The queue as it should be in every session. -/
def Reassembles (s : TcpSession) : Prop :=
  s.forward.Pairwise Segment.Precedes ∧ (∀ q ∈ s.forward, 0 < q.len ∧ q.sent ≤ q.len) ∧
    (s.state ≠ .listen → ∀ q ∈ s.forward.head?, NotBefore q.pos s.remoteSeq)

instance : DecidableRel Segment.Precedes := fun _ _ => inferInstanceAs (Decidable (_ ∧ _))

instance : Decidable (Known p forward) := inferInstanceAs (Decidable (∃ q ∈ (forward.dropWhile p.skips).head?, _))

instance : Decidable (Fits p forward remoteSeq) :=
  decidable_of_iff
    (p.data ≠ [] ∧ (∀ q ∈ forward.takeWhile p.skips, q.Precedes p.segment) ∧
      (∀ q ∈ forward.dropWhile p.skips, p.segment.Precedes q ∧ q.sent = 0) ∧
      (forward.takeWhile p.skips = [] → NotBefore p.seq remoteSeq))
    ⟨fun ⟨h₁, h₂, h₃, h₄⟩ => ⟨h₁, h₂, h₃, h₄⟩, fun ⟨h₁, h₂, h₃, h₄⟩ => ⟨h₁, h₂, h₃, h₄⟩⟩

instance : (op : TcpOp) → Decidable (PacketFits s op)
  | .packet _ _ => inferInstanceAs (Decidable (_ → _ → _))
  | .socket _ | .monitor _ | .check _ | .stop _ => .isTrue trivial

instance : Decidable (QueueSafe s op) := inferInstanceAs (Decidable (_ ∧ (_ → ∀ _ ∈ _, _)))

instance : Decidable (Reassembles s) := inferInstanceAs (Decidable (_ ∧ (∀ _ ∈ _, _) ∧ (_ → ∀ _ ∈ _, _)))

/-! ## What keeps the queue in order -/

theorem QueueOk.nil : QueueOk [] remoteSeq := ⟨.nil, by simp, by simp, by simp⟩

/-- The place of the next byte moves on by one, but not past the first segment. -/
theorem QueueOk.count (h : QueueOk forward remoteSeq) (hne : ∀ q ∈ forward.head?, q.pos ≠ remoteSeq) :
    QueueOk forward (remoteSeq + 1) := by
  refine ⟨h.order, h.len_pos, h.unsent, ?_⟩
  intro q hq
  have hd : dist remoteSeq q.pos ≠ 0 := fun hd => hne q hq (dist_eq_zero.1 hd).symm
  have h₁ : dist remoteSeq (remoteSeq + 1) = 1 := dist_add_of_lt (w := 32) (n := 1) (by decide)
  have hnb : dist remoteSeq q.pos < 2 ^ 31 := h.head q hq
  have h₂ := dist_of_le (a := remoteSeq) (b := remoteSeq + 1) (c := q.pos) (by omega)
  change dist (remoteSeq + 1) q.pos < 2 ^ 31
  omega

theorem Segment.precedes_congr {a b a' b' : Segment} (ha : a'.seq = a.seq) (hal : a'.len = a.len)
    (hb : b'.seq = b.seq) :
    a'.Precedes b' ↔ a.Precedes b := by
  rw [Segment.Precedes, Segment.Precedes, ha, hal, hb]

/-- Another segment with the same numbers takes the place of `q`. -/
theorem QueueOk.congr {before : List Segment} {q' : Segment} (h : QueueOk (before ++ q :: rest) remoteSeq)
    (hseq : q'.seq = q.seq) (hlen : q'.len = q.len) (hsent : q'.sent = q.sent) :
    QueueOk (before ++ q' :: rest) remoteSeq := by
  obtain ⟨ho, hl, hu, hh⟩ := h
  refine ⟨?_, ?_, ?_, ?_⟩
  · rw [List.pairwise_append, List.pairwise_cons] at ho ⊢
    obtain ⟨hbefore, ⟨hq, hrest⟩, hcross⟩ := ho
    refine ⟨hbefore, ⟨fun r hr => (Segment.precedes_congr hseq hlen rfl).2 (hq r hr), hrest⟩, ?_⟩
    intro a ha b hb
    rcases List.mem_cons.1 hb with rfl | hb
    · exact (Segment.precedes_congr rfl rfl hseq).2 (hcross a ha q (by simp))
    · exact hcross a ha b (by simp [hb])
  · intro r hr
    rcases List.mem_append.1 hr with hr | hr
    · exact hl r (by simp [hr])
    · rcases List.mem_cons.1 hr with rfl | hr
      · exact hlen ▸ hl q (by simp)
      · exact hl r (by simp [hr])
  · cases before with
    | nil => exact hu
    | cons a before =>
        intro r hr
        rcases List.mem_append.1 hr with hr | hr
        · exact hu r (List.mem_append_left _ hr)
        · rcases List.mem_cons.1 hr with rfl | hr
          · exact hsent.trans (hu q (List.mem_append_right _ (by simp)))
          · exact hu r (List.mem_append_right _ (by simp [hr]))
  · cases before with
    | nil =>
        intro r hr
        obtain rfl : q' = r := by simpa using hr
        rw [Segment.pos, hseq, hsent]
        exact hh q (by simp)
    | cons a before => exact hh

theorem QueueOk.enqueue_known (h : QueueOk forward remoteSeq) (hk : Known p forward) :
    QueueOk (enqueue p forward) remoteSeq := by
  obtain ⟨q, hq, hseq⟩ := hk
  rw [← List.takeWhile_append_dropWhile (p := p.skips) (l := forward)] at h
  rw [enqueue_eq]
  generalize forward.takeWhile p.skips = before, forward.dropWhile p.skips = after at h hq ⊢
  cases after with
  | nil => simp at hq
  | cons q' rest =>
      obtain rfl : q' = q := by simpa using hq
      rw [place, if_pos hseq]
      exact h.congr Segment.replace_seq Segment.replace_len Segment.replace_sent

/-- Data that fits is put where the loop stops. -/
theorem Fits.enqueue (hf : Fits p forward remoteSeq) :
    enqueue p forward = forward.takeWhile p.skips ++ p.segment :: forward.dropWhile p.skips := by
  have hafter := hf.after
  rw [enqueue_eq]
  generalize forward.dropWhile p.skips = after at hafter ⊢
  cases after with
  | nil => rfl
  | cons q rest =>
      obtain ⟨⟨⟨hpos, -⟩, -⟩, -⟩ := hafter q (by simp)
      have hne : q.seq ≠ p.seq := by
        intro hseq
        rw [hseq] at hpos
        exact absurd (dist_self p.seq) (Nat.ne_of_gt hpos)
      rw [place, if_neg hne]

theorem QueueOk.enqueue_fits (h : QueueOk forward remoteSeq) (hf : Fits p forward remoteSeq) :
    QueueOk (enqueue p forward) remoteSeq := by
  rw [hf.enqueue]
  rw [← List.takeWhile_append_dropWhile (p := p.skips) (l := forward)] at h
  obtain ⟨hdata, hbefore, hafter, hfirst⟩ := hf
  generalize forward.takeWhile p.skips = before, forward.dropWhile p.skips = after at h hbefore hafter hfirst ⊢
  obtain ⟨ho, hl, hu, hh⟩ := h
  refine ⟨?_, ?_, ?_, ?_⟩
  · rw [List.pairwise_append] at ho ⊢
    obtain ⟨ho₁, ho₂, hcross⟩ := ho
    refine ⟨ho₁, List.pairwise_cons.2 ⟨fun q hq => (hafter q hq).1, ho₂⟩, ?_⟩
    intro a ha b hb
    rcases List.mem_cons.1 hb with rfl | hb
    · exact hbefore a ha
    · exact hcross a ha b hb
  · intro q hq
    rcases List.mem_append.1 hq with hq | hq
    · exact hl q (by simp [hq])
    · rcases List.mem_cons.1 hq with rfl | hq
      · exact List.length_pos_iff.2 hdata
      · exact hl q (by simp [hq])
  · cases before with
    | nil => exact fun q hq => (hafter q hq).2
    | cons a before =>
        intro q hq
        rcases List.mem_append.1 hq with hq | hq
        · exact hu q (List.mem_append_left _ hq)
        · rcases List.mem_cons.1 hq with rfl | hq
          · rfl
          · exact (hafter q hq).2
  · cases before with
    | nil =>
        intro q hq
        obtain rfl : p.segment = q := by simpa using hq
        have hpos : p.segment.pos = p.seq := by simp [Segment.pos, TcpPkt.segment]
        rw [hpos]
        exact hfirst rfl
    | cons a before => exact hh

/-- The first segment is sent, in part or as a whole. -/
theorem QueueOk.sent {n : Nat} (h : QueueOk (q :: rest) remoteSeq) (hle : n ≤ q.len - q.sent) :
    QueueOk (if q.len = q.sent + n then rest else q.advance n hle :: rest) (q.advance n hle).pos := by
  have hlt := q.len_lt
  obtain ⟨hq, horder⟩ := List.pairwise_cons.1 h.order
  have hunsent : ∀ r ∈ rest, r.sent = 0 := h.unsent
  split
  · rename_i hall
    refine ⟨horder, fun r hr => h.len_pos r (by simp [hr]), fun r hr => hunsent r (List.mem_of_mem_tail hr), ?_⟩
    intro r hr
    have hr : r ∈ rest := List.mem_of_mem_head? hr
    obtain ⟨⟨-, hlt'⟩, hlen⟩ := hq r hr
    have hpos : (q.advance n hle).pos = q.seq + BitVec.ofNat 32 q.len := by
      simp only [Segment.pos, Segment.advance, hall]
    have hrpos : r.pos = r.seq := by simp [Segment.pos, hunsent r hr]
    have hlen' : dist q.seq (q.seq + BitVec.ofNat 32 q.len) = q.len := dist_add_of_lt (by omega)
    have h₂ := dist_of_le (a := q.seq) (b := q.seq + BitVec.ofNat 32 q.len) (c := r.seq) (by omega)
    rw [hpos, hrpos, NotBefore, h₂]
    omega
  · refine ⟨List.pairwise_cons.2 ⟨hq, horder⟩, ?_, hunsent, ?_⟩
    · intro r hr
      rcases List.mem_cons.1 hr with rfl | hr
      · exact h.len_pos q (by simp)
      · exact h.len_pos r (by simp [hr])
    · intro r hr
      obtain rfl : q.advance n hle = r := by simpa using hr
      exact NotBefore.refl _

/-- The packet comes to `queue_tcp` in a call on `old`. -/
theorem QueueOk.queueTcp {e : HandleEnv} (h : QueueOk s.forward s.remoteSeq) (hop : op = .packet p e)
    (hsafe : QueueSafe old op) (hq : p.Queues old ∧ s.remoteSeq = seqAtQueue old p e ∧ s.forward = old.forward) :
    QueueOk (queueTcp s p).forward (queueTcp s p).remoteSeq := by
  subst hop
  obtain ⟨hq, hseq, hf⟩ := hq
  rw [queueTcp_eq]
  simp only []
  split
  · exact h
  · rename_i hlt
    rw [hseq] at hlt
    rcases hsafe.1 hq hlt with hk | hfit
    · exact h.enqueue_known (hf ▸ hk)
    · exact h.enqueue_fits (hf ▸ hseq ▸ hfit)

/-! ## Runs -/

theorem Move.queueOk (hm : Move old op (ph, s) (ph', s')) (hsafe : QueueSafe old op) (hc : Coherent s)
    (h : QueueOk s.forward s.remoteSeq) : QueueOk s'.forward s'.remoteSeq := by
  cases hm with
  | rst ok hl =>
      rw [writeRst_eq, rstSeq]
      simp only []
      split
      · rename_i hs
        obtain ⟨hcount, hseq, hf⟩ := hl hs (hc.open_socket (by simp [hs, TcpState.isOpen]))
        refine h.count ?_
        rw [hseq, hf]
        exact hsafe.2 hcount
      · exact h
  | early hop hu hd hn hq => exact h.queueTcp hop hsafe hq
  | queue hop ht hdata ho hw hq => exact h.queueTcp hop hsafe hq
  | fin hop ht hr hcur hsyn hfin hs hf hb ok =>
      simp only [hf]
      exact QueueOk.nil
  | lastFin hop ht hr hcur hsyn hfin hs hb ok =>
      simp only [hc.drained (.inl hs)]
      exact QueueOk.nil
  | connected hop ho hs hb ok =>
      obtain ⟨hcount, hseq, hf⟩ := hb
      refine h.count ?_
      rw [hseq, hf]
      exact hsafe.2 hcount
  | send hop ho hs hf hpos hdata hn hle =>
      rw [hf] at h
      exact h.sent hle
  | confirmFin hop ho hs hf ok =>
      simp only [hf]
      exact QueueOk.nil
  | _ => exact h

theorem tcpStep_queueOk (hsafe : QueueSafe s op) (hc : Coherent s) (h : QueueOk s.forward s.remoteSeq) :
    QueueOk (tcpStep s op).forward (tcpStep s op).remoteSeq := by
  obtain ⟨ph, -, hs⟩ := tcpStep_invariant op
    (I := fun x => Coherent x.2 ∧ QueueOk x.2.forward x.2.remoteSeq) ⟨hc, h⟩
    fun _ _ hx hm => ⟨hm.coherent hx.1, hm.queueOk hsafe hx.1 hx.2⟩
  exact hs

theorem QueueOk.of_new {e : HandleEnv} (h : handleTcpNew p e = some s) : QueueOk s.forward s.remoteSeq := by
  obtain ⟨-, -, -, mss, ws, rfl⟩ := handleTcpNew_some h
  simp only [synSession]
  split
  · rename_i hdata
    refine ⟨List.pairwise_singleton .., ?_, by simp, ?_⟩
    · simpa [TcpPkt.segment] using List.length_pos_iff.2 hdata
    · intro q hq
      obtain rfl : p.segment = q := by simpa using hq
      have hpos : p.segment.pos = p.seq := by simp [Segment.pos, TcpPkt.segment]
      rw [hpos]
      exact NotBefore.refl _
  · exact QueueOk.nil

/-- In every run of safe calls: the queue is in order and without overlaps, its segments are not empty, and once the
connection has left `TCP_LISTEN` the first one is never behind the place of the next byte. -/
theorem reassembles_of_safe {e : HandleEnv} {s₀ : TcpSession} {ops : List TcpOp} (h₀ : handleTcpNew p e = some s₀)
    (h : Run tcpStep QueueSafe s₀ ops s) : Reassembles s := by
  have hs := h.invariant' (I := fun s => Coherent s ∧ QueueOk s.forward s.remoteSeq)
    ⟨handleTcpNew_coherent h₀, QueueOk.of_new h₀⟩
    fun s op hi hsafe => ⟨tcpStep_coherent hi.1 op, tcpStep_queueOk hsafe hi.1 hi.2⟩
  exact ⟨hs.2.order, fun q hq => ⟨hs.2.len_pos q hq, q.sent_le⟩, fun _ => hs.2.head⟩

/-- The client connects, and sends the bytes 3 to 5 before the bytes 0 to 2. -/
def sampleReordered : List TcpOp :=
  [.socket { ev := ⟨false, false, true⟩ }, .packet (samplePkt 8080 1001 1 []) {},
    .packet (samplePkt 8080 1004 1 [100, 101, 102]) {}, .packet (samplePkt 8080 1001 1 [97, 98, 99]) {}]

theorem reassembles_of_safe_reordered :
    Reassembles (sampleReordered.foldl tcpStep (sampleSession 8080)) ∧
      (sampleReordered.foldl tcpStep (sampleSession 8080)).forward.length = 2 :=
  ⟨reassembles_of_safe (sampleSession_new 8080) (Run.ofAllOk (by decide)), by decide⟩

/-- The bytes 0 to 2 and 1 to 3 are both queued. Once the first segment was sent, the second one is behind. -/
theorem overlap_blocks :
    let s := List.foldl tcpStep (sampleSession 8080)
      [.socket { ev := ⟨false, false, true⟩ }, .packet (samplePkt 8080 1001 1 []) {},
        .packet (samplePkt 8080 1001 1 [97, 98, 99]) {}, .packet (samplePkt 8080 1002 1 [98, 99, 100]) {}]
    let e : SocketEnv :=
      { ev := ⟨false, false, true⟩, fwdBuf := ⟨16384, 0⟩, send := fun _ _ => { ret := 3, errno := .other } }
    handleTcpNew (sampleSyn 8080) { socket := 5, buf := ⟨1, 0⟩ } = some (sampleSession 8080) ∧ ¬Reassembles s ∧
      ¬Reassembles (tcpStep s (.socket e)) ∧ (tcpStep s (.socket e)).remoteSeq = 1004 ∧
      (tcpStep s (.socket e)).forward.map Segment.pos = [1002] :=
  ⟨sampleSession_new 8080, by decide, by decide, by decide, by decide⟩

end TunProxy.Native
