import TunProxy.Native.Tcp.Queue

/-!
# What `queue_tcp` does to the queue
-/

namespace TunProxy.Native

variable {s : TcpSession} {p : TcpPkt} {q : Segment} {rest forward : List Segment}

/-- Only the queue changes. -/
theorem queueTcp_eq : queueTcp s p =
    { s with forward := if compareU32 p.seq s.remoteSeq < 0 then s.forward else enqueue p s.forward } := by
  unfold queueTcp
  split <;> rfl

theorem enqueue_skip (h : compareU32 q.seq p.seq < 0) : enqueue p (q :: rest) = q :: enqueue p rest := by
  rw [enqueue, if_pos h]

theorem enqueue_insert (h : compareU32 q.seq p.seq > 0) : enqueue p (q :: rest) = p.segment :: q :: rest := by
  rw [enqueue, if_neg (by omega), if_pos h]

/-- The segment with the same number after the packet: its data is replaced where the packet has more. -/
def Segment.replace (q : Segment) (p : TcpPkt) : Segment :=
  if h : q.len < p.data.length then { q with data := p.data, len_le := h.le } else q

theorem enqueue_same (h : q.seq = p.seq) : enqueue p (q :: rest) = q.replace p :: rest := by
  have hc : compareU32 q.seq p.seq = 0 := by rw [h, compareU32_self]
  simp only [enqueue, hc, lt_self_iff_false, ↓reduceIte, Segment.replace]
  split
  · rename_i hl
    rw [dif_neg (by omega)]
  · split <;> rfl

/-- The loop goes on behind the segment. -/
def TcpPkt.skips (p : TcpPkt) (q : Segment) : Bool := compareU32 q.seq p.seq < 0

/-- What happens to the part of the queue the loop stops at. -/
def place (p : TcpPkt) : List Segment → List Segment
  | [] => [p.segment]
  | q :: rest => if q.seq = p.seq then q.replace p :: rest else p.segment :: q :: rest

theorem enqueue_eq : enqueue p forward =
    forward.takeWhile p.skips ++ place p (forward.dropWhile p.skips) := by
  induction forward with
  | nil => rfl
  | cons q rest ih =>
      rcases lt_trichotomy (compareU32 q.seq p.seq) 0 with h | h | h
      · have hb : p.skips q = true := by simpa [TcpPkt.skips] using h
        rw [enqueue_skip h, ih, List.takeWhile_cons_of_pos hb, List.dropWhile_cons_of_pos hb, List.cons_append]
      · have hb : ¬p.skips q = true := by simp [TcpPkt.skips, h]
        have hseq := compareU32_eq_zero.1 h
        rw [enqueue_same hseq, List.takeWhile_cons_of_neg hb, List.dropWhile_cons_of_neg hb, place, if_pos hseq,
          List.nil_append]
      · have hb : ¬p.skips q = true := by
          simp only [TcpPkt.skips, decide_eq_true_eq]
          omega
        have hseq : q.seq ≠ p.seq := fun hseq => by
          rw [compareU32_eq_zero.2 hseq] at h
          exact absurd h (lt_irrefl 0)
        rw [enqueue_insert h, List.takeWhile_cons_of_neg hb, List.dropWhile_cons_of_neg hb, place, if_neg hseq,
          List.nil_append]

/-- Where the segments of the queue come from. -/
theorem mem_enqueue (h : q ∈ enqueue p forward) :
    q = p.segment ∨ q ∈ forward ∨ ∃ q' ∈ forward, q'.seq = p.seq ∧ q = q'.replace p := by
  rw [enqueue_eq, List.mem_append] at h
  rcases h with h | h
  · exact .inr (.inl ((List.takeWhile_sublist _).mem h))
  · have hsub := List.dropWhile_sublist (l := forward) p.skips
    generalize forward.dropWhile p.skips = after at h hsub
    cases after with
    | nil => exact .inl (by simpa [place] using h)
    | cons q' rest =>
        rw [place] at h
        by_cases hseq : q'.seq = p.seq
        · rw [if_pos hseq] at h
          rcases List.mem_cons.1 h with rfl | h
          · exact .inr (.inr ⟨q', hsub.mem List.mem_cons_self, hseq, rfl⟩)
          · exact .inr (.inl (hsub.mem (List.mem_cons_of_mem _ h)))
        · rw [if_neg hseq] at h
          rcases List.mem_cons.1 h with rfl | h
          · exact .inl rfl
          · exact .inr (.inl (hsub.mem h))

theorem enqueue_ne_nil : enqueue p forward ≠ [] := by
  cases forward with
  | nil => simp [enqueue]
  | cons q rest =>
      unfold enqueue
      split <;> try split <;> try split <;> try split
      all_goals simp

@[simp] theorem Segment.replace_seq : (q.replace p).seq = q.seq := by
  unfold Segment.replace
  split <;> rfl

@[simp] theorem Segment.replace_len : (q.replace p).len = q.len := by
  unfold Segment.replace
  split <;> rfl

@[simp] theorem Segment.replace_sent : (q.replace p).sent = q.sent := by
  unfold Segment.replace
  split <;> rfl

theorem Segment.replace_replace : (q.replace p).replace p = q.replace p := by
  unfold Segment.replace
  split <;> simp

theorem enqueue_idem : enqueue p (enqueue p forward) = enqueue p forward := by
  induction forward with
  | nil =>
      have h : p.segment.replace p = p.segment := by simp [Segment.replace, TcpPkt.segment]
      rw [enqueue, enqueue_same rfl, h]
  | cons q rest ih =>
      rcases lt_trichotomy (compareU32 q.seq p.seq) 0 with h | h | h
      · rw [enqueue_skip h, enqueue_skip h, ih]
      · have hseq := compareU32_eq_zero.1 h
        have hseq' : (q.replace p).seq = p.seq := Segment.replace_seq.trans hseq
        rw [enqueue_same hseq, enqueue_same hseq', Segment.replace_replace]
      · have h' : p.segment.replace p = p.segment := by simp [Segment.replace, TcpPkt.segment]
        rw [enqueue_insert h, enqueue_same rfl, h']

end TunProxy.Native
