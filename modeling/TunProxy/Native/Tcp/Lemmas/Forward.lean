import TunProxy.Native.Tcp.Socket

/-!
# One round of the forward loop
-/

namespace TunProxy.Native

variable {s : TcpSession} {e : SocketEnv} {q : Segment} {rest : List Segment} {round n : Nat} {bufferSize : U32}
  {fwd : Bool} {data : Bytes}

theorem onSocket_of_nonneg {socket ret : Int} (h : 0 ≤ socket) : onSocket socket ret = ret := by
  rw [onSocket, if_neg (by omega)]

theorem RecvResult.length_of_upTo {size : Nat} {r : RecvResult} {bytes : Bytes} (h : r.upTo size = .got bytes) :
    bytes.length ≤ size := by
  cases r with
  | fail errno => cases h
  | got all =>
      simp only [RecvResult.upTo, RecvResult.got.injEq] at h
      rw [← h, List.length_take]
      omega

/-- The comparison as `size_t` cuts every result down to the length, that of a failed call too. -/
theorem clampSent_range {ret : Int} {len : Nat} (hge : -1 ≤ ret) (hlt : ret < 2 ^ 63) (hlen : len < 2 ^ 16) :
    0 ≤ clampSent ret len ∧ clampSent ret len ≤ len := by
  unfold clampSent toSize
  split <;> omega

theorem Segment.rest_lt (q : Segment) : q.len - q.sent < 2 ^ 16 := by
  have := q.len_lt
  omega

theorem Segment.rest_length (q : Segment) : q.rest.length = q.len - q.sent := by
  have := q.len_le
  rw [Segment.rest, List.length_take, List.length_drop]
  omega

/-- So a round always counts some number of bytes of the segment as sent. -/
theorem clampSent_eq (r : SendResult) (q : Segment) (socket : Int) :
    ∃ n, clampSent (onSocket socket r.ret) (q.len - q.sent) = (n : Nat) ∧ n ≤ q.len - q.sent := by
  have hge : -1 ≤ onSocket socket r.ret := by
    have := r.ret_ge
    unfold onSocket
    split <;> omega
  obtain ⟨h₀, hle⟩ := clampSent_range hge (onSocket_lt socket r) q.rest_lt
  obtain ⟨n, hn⟩ := Int.eq_ofNat_of_zero_le h₀
  exact ⟨n, hn, by omega⟩

/-- The session after a round that counted `n` bytes of the first segment as sent. -/
def afterSend (s : TcpSession) (q : Segment) (rest : List Segment) (data : Bytes) (ret : Int) (n : Nat)
    (hle : n ≤ q.len - q.sent) : TcpSession :=
  { s with
    forward := q :: rest
    io := s.io ++ [.send data ret]
    sent := (s.sent + n) % 2 ^ 64
    remoteSeq := (q.advance n hle).pos }

theorem forwardLoop_send (hg : q.pos = s.remoteSeq ∧ q.left < bufferSize)
    (hoffer : offer s.dest q (e.heap round) = some data)
    (hn : clampSent (onSocket s.socket (e.send round data).ret) (q.len - q.sent) = n) (hle : n ≤ q.len - q.sent) :
    forwardLoop e (q :: rest) round bufferSize fwd s =
      if q.len = q.sent + n then
        forwardLoop e rest (round + 1) (bufferSize - BitVec.ofInt 32 n) true
          (afterSend s q rest data (onSocket s.socket (e.send round data).ret) n hle)
      else
        ({ afterSend s q rest data (onSocket s.socket (e.send round data).ret) n hle with
            forward := q.advance n hle :: rest }, some true) := by
  have hneg : ¬(n : Int) < 0 := by omega
  rw [forwardLoop]
  simp only [hg, and_self, ↓reduceIte, hoffer, hn, hneg, ↓reduceDIte, Int.toNat_natCast]
  rfl

theorem forwardLoop_fault (hg : q.pos = s.remoteSeq ∧ q.left < bufferSize)
    (hoffer : offer s.dest q (e.heap round) = none) : forwardLoop e (q :: rest) round bufferSize fwd s =
      ({ s with forward := q :: rest, io := s.io ++ [.fault] }, none) := by
  rw [forwardLoop]
  simp [hg, hoffer]

theorem forwardLoop_stop (hg : ¬(q.pos = s.remoteSeq ∧ q.left < bufferSize)) :
    forwardLoop e (q :: rest) round bufferSize fwd s = ({ s with forward := q :: rest }, some fwd) := by
  rw [forwardLoop]
  simp only [hg, ↓reduceIte]

/-- The loop takes segments from the queue and puts none in. -/
theorem forwardLoop_length (e : SocketEnv) (forward : List Segment) :
    ∀ round bufferSize fwd s, (forwardLoop e forward round bufferSize fwd s).1.forward.length ≤ forward.length := by
  induction forward with
  | nil => intros; simp [forwardLoop]
  | cons q rest ih =>
      intro round bufferSize fwd s
      by_cases hg : q.pos = s.remoteSeq ∧ q.left < bufferSize
      · cases hoffer : offer s.dest q (e.heap round) with
        | none => simp [forwardLoop_fault hg hoffer]
        | some data =>
            obtain ⟨n, hn, hle⟩ := clampSent_eq (e.send round data) q s.socket
            rw [forwardLoop_send hg hoffer hn hle]
            split
            · exact (ih _ _ _ _).trans (by simp)
            · simp
      · simp [forwardLoop_stop hg]

/-- The loop makes calls and takes none back. -/
theorem forwardLoop_io (e : SocketEnv) (forward : List Segment) :
    ∀ round bufferSize fwd s, ∃ calls, (forwardLoop e forward round bufferSize fwd s).1.io = s.io ++ calls := by
  induction forward with
  | nil => exact fun _ _ _ _ => ⟨[], (List.append_nil _).symm⟩
  | cons q rest ih =>
      intro round bufferSize fwd s
      by_cases hg : q.pos = s.remoteSeq ∧ q.left < bufferSize
      · cases hoffer : offer s.dest q (e.heap round) with
        | none => exact ⟨[.fault], by rw [forwardLoop_fault hg hoffer]⟩
        | some data =>
            obtain ⟨n, hn, hle⟩ := clampSent_eq (e.send round data) q s.socket
            rw [forwardLoop_send hg hoffer hn hle]
            split
            · obtain ⟨calls, hcalls⟩ := ih (round + 1) (bufferSize - BitVec.ofInt 32 n) true
                (afterSend s q rest data (onSocket s.socket (e.send round data).ret) n hle)
              exact ⟨.send data (onSocket s.socket (e.send round data).ret) :: calls, by rw [hcalls]; simp [afterSend]⟩
            · exact ⟨[.send data (onSocket s.socket (e.send round data).ret)], rfl⟩
      · exact ⟨[], by rw [forwardLoop_stop hg, List.append_nil]⟩

end TunProxy.Native
