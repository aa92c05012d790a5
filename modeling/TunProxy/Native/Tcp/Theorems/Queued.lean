import TunProxy.Native.Tcp.Lemmas.Queue
import TunProxy.Native.Tcp.Step

/-!
# Which bytes `queue_tcp` keeps

A segment holds the bytes with the numbers from `seq` to `seq + len`. The data that takes the place of the data of a
shorter segment is held only as far as that one was, and a packet that begins before the place of the next byte is
dropped with its tail.
-/

namespace TunProxy.Native

open Lib.Serial

variable {s : TcpSession} {p : TcpPkt} {q : Segment} {before rest forward forward' : List Segment} {x remoteSeq : U32}
  {v : UInt8}

/-- The byte with the number `x` is in the range of the segment, and is `v`. -/
def Segment.Holds (q : Segment) (x : U32) (v : UInt8) : Prop := dist q.seq x < q.len ∧ q.data[dist q.seq x]? = some v

def Queued (forward : List Segment) (x : U32) (v : UInt8) : Prop := ∃ q ∈ forward, q.Holds x v

/-- The packet has the byte, and its number is not before `remoteSeq`. -/
def TcpPkt.Brings (p : TcpPkt) (remoteSeq x : U32) (v : UInt8) : Prop :=
  p.segment.Holds x v ∧ NotBefore x remoteSeq

/-- What the packet brings is in the new queue, and so is all that was in the old one. -/
structure KeepsBytes (s s' : TcpSession) (p : TcpPkt) : Prop where
  new : ∀ x v, p.Brings s.remoteSeq x v → Queued s'.forward x v
  old : ∀ x v, Queued s.forward x v → Queued s'.forward x v

/-- The queue has all that the packet brings from its byte `n` on. -/
def QueuedFrom (n : Nat) (p : TcpPkt) (remoteSeq : U32) (forward : List Segment) : Prop :=
  ∀ x v, p.Brings remoteSeq x v → n ≤ dist p.seq x → Queued forward x v

/-- The packet gets a place of its own, or the queue has all that gets lost. -/
def Lossless (s : TcpSession) (p : TcpPkt) : Prop :=
  if compareU32 p.seq s.remoteSeq < 0 then QueuedFrom 0 p s.remoteSeq s.forward
  else
    match s.forward.dropWhile p.skips with
    | [] => True
    | q :: rest =>
        if q.seq ≠ p.seq then True
        else if p.data.length ≤ q.len then QueuedFrom 0 p s.remoteSeq s.forward
        else
          QueuedFrom q.len p s.remoteSeq s.forward ∧
            ∀ x v, q.Holds x v → p.segment.Holds x v ∨ Queued (s.forward.takeWhile p.skips ++ rest) x v

/-! ## Queues -/

theorem Queued.mono (h : Queued forward x v) (hsub : forward ⊆ forward') : Queued forward' x v := by
  obtain ⟨q, hq, hv⟩ := h
  exact ⟨q, hsub hq, hv⟩

theorem queued_mid : Queued (before ++ q :: rest) x v ↔ q.Holds x v ∨ Queued (before ++ rest) x v := by
  constructor
  · rintro ⟨r, hr, hv⟩
    rcases List.mem_append.1 hr with hr | hr
    · exact .inr ⟨r, List.mem_append_left _ hr, hv⟩
    · cases hr with
      | head => exact .inl hv
      | tail _ hr => exact .inr ⟨r, List.mem_append_right _ hr, hv⟩
  · rintro (hv | h)
    · exact ⟨q, by simp, hv⟩
    · exact h.mono (List.append_subset.2 ⟨List.subset_append_left _ _, fun r hr => by simp [hr]⟩)

/-! ## The three outcomes of the search -/

theorem keepsBytes_same : KeepsBytes s s p ↔ QueuedFrom 0 p s.remoteSeq s.forward := by
  constructor
  · intro h x v hb _
    exact h.new x v hb
  · intro h
    exact ⟨fun x v hb => h x v hb (Nat.zero_le _), fun _ _ hq => hq⟩

theorem keepsBytes_placed (h : s.forward = before ++ rest) :
    KeepsBytes s { s with forward := before ++ p.segment :: rest } p := by
  refine ⟨fun x v hb => queued_mid.2 (.inl hb.1), fun x v hq => ?_⟩
  rw [h] at hq
  exact queued_mid.2 (.inr hq)

/-- The data was replaced, but not the length. -/
theorem holds_replace (hlen : q.len < p.data.length) (hseq : q.seq = p.seq) :
    (q.replace p).Holds x v ↔ p.segment.Holds x v ∧ dist p.seq x < q.len := by
  rw [Segment.replace, dif_pos hlen, Segment.Holds, Segment.Holds, hseq]
  constructor
  · rintro ⟨hlt, hv⟩
    exact ⟨⟨Nat.lt_trans hlt hlen, hv⟩, hlt⟩
  · rintro ⟨⟨-, hv⟩, hlt⟩
    exact ⟨hlt, hv⟩

theorem keepsBytes_replaced (h : s.forward = before ++ q :: rest) (hseq : q.seq = p.seq)
    (hlen : q.len < p.data.length) :
    KeepsBytes s { s with forward := before ++ q.replace p :: rest } p ↔
      QueuedFrom q.len p s.remoteSeq s.forward ∧
        ∀ x v, q.Holds x v → p.segment.Holds x v ∨ Queued (before ++ rest) x v := by
  constructor
  · intro hk
    refine ⟨fun x v hb hle => ?_, fun x v hv => ?_⟩
    · rcases queued_mid.1 (hk.new x v hb) with hr | hq
      · have hlt := ((holds_replace hlen hseq).1 hr).2
        omega
      · rw [h]
        exact queued_mid.2 (.inr hq)
    · have hq : Queued s.forward x v := by
        rw [h]
        exact queued_mid.2 (.inl hv)
      rcases queued_mid.1 (hk.old x v hq) with hr | hq
      · exact .inl ((holds_replace hlen hseq).1 hr).1
      · exact .inr hq
  · rintro ⟨hnew, hold⟩
    refine ⟨fun x v hb => ?_, fun x v hq => ?_⟩
    · by_cases hlt : dist p.seq x < q.len
      · exact queued_mid.2 (.inl ((holds_replace hlen hseq).2 ⟨hb.1, hlt⟩))
      · have hq := hnew x v hb (Nat.le_of_not_lt hlt)
        rw [h] at hq
        rcases queued_mid.1 hq with hv | hq
        · have := hv.1
          rw [hseq] at this
          omega
        · exact queued_mid.2 (.inr hq)
    · rw [h] at hq
      rcases queued_mid.1 hq with hv | hq
      · rcases hold x v hv with hp | hq
        · have hlt := hv.1
          rw [hseq] at hlt
          exact queued_mid.2 (.inl ((holds_replace hlen hseq).2 ⟨hp, hlt⟩))
        · exact queued_mid.2 (.inr hq)
      · exact queued_mid.2 (.inr hq)

/-! ## Exactly when nothing is lost -/

theorem queueTcp_keepsBytes_iff (s : TcpSession) (p : TcpPkt) : KeepsBytes s (queueTcp s p) p ↔ Lossless s p := by
  have hsplit := List.takeWhile_append_dropWhile (p := p.skips) (l := s.forward)
  rw [Lossless, queueTcp]
  split
  · exact keepsBytes_same
  · rw [enqueue_eq]
    cases hd : s.forward.dropWhile p.skips with
    | nil =>
        rw [hd] at hsplit
        exact iff_of_true (keepsBytes_placed hsplit.symm) trivial
    | cons q rest =>
        rw [hd] at hsplit
        dsimp only
        rw [place]
        by_cases hseq : q.seq = p.seq
        · rw [if_pos hseq, if_neg (not_not.2 hseq)]
          split
          · rename_i hle
            have hsame : q.replace p = q := dif_neg (by omega)
            rw [hsame, hsplit]
            exact keepsBytes_same
          · rename_i hlt
            exact keepsBytes_replaced hsplit.symm hseq (by omega)
        · rw [if_neg hseq, if_pos hseq]
          exact iff_of_true (keepsBytes_placed hsplit.symm) trivial

/-- `abc` is in the queue when `abcdef` with the same number comes: nothing after it will ever be in the queue. -/
theorem queueTcp_loses_tail :
    let p := samplePkt 80 1001 1 [97, 98, 99, 100, 101, 102]
    let s := queueTcp { sampleSession 80 with state := .established, remoteSeq := 1001 }
      (samplePkt 80 1001 1 [97, 98, 99])
    (∀ q ∈ s.forward, q.sent ≤ q.len) ∧ s.forward.map (·.seq) = [1001] ∧ ¬KeepsBytes s (queueTcp s p) p := by
  refine ⟨by decide, by decide, fun h => ?_⟩
  have hb : (samplePkt 80 1001 1 [97, 98, 99, 100, 101, 102]).Brings 1001 1004 100 :=
    ⟨⟨by decide, by decide⟩, by decide⟩
  obtain ⟨q, hq, hlt, -⟩ := h.new 1004 100 hb
  have hnone : ∀ q ∈ (queueTcp (queueTcp { sampleSession 80 with state := .established, remoteSeq := 1001 }
      (samplePkt 80 1001 1 [97, 98, 99])) (samplePkt 80 1001 1 [97, 98, 99, 100, 101, 102])).forward,
      ¬dist q.seq 1004 < q.len := by decide
  exact hnone q hq hlt

end TunProxy.Native
