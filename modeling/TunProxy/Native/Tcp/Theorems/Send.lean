import TunProxy.Native.Tcp.Lemmas.Forward
import TunProxy.Native.Tcp.Step

/-!
# A failed send

`send` returns -1 as a `ssize_t`, and `if (sent > len) sent = len;` compares it with a `size_t`. So the branch for
errors is never reached: a failed call counts as one that took the whole rest of the segment.
-/

namespace TunProxy.Native

variable {s : TcpSession} {e : SocketEnv} {q : Segment} {rest : List Segment} {round : Nat} {bufferSize : U32}
  {fwd : Bool} {data : Bytes}

/-- What a failed send should leave as it was, and what it should do to the state: `s'` is the session after it. -/
def FailedSendKept (s : TcpSession) (errno : Errno) (s' : TcpSession) : Prop :=
  s'.forward = s.forward ∧ s'.remoteSeq = s.remoteSeq ∧ s'.sent = s.sent ∧
    (errno = .eintr ∨ errno = .eagain → s'.state = s.state) ∧ (errno = .other → s'.state = .closing)

instance {errno : Errno} {s' : TcpSession} : Decidable (FailedSendKept s errno s') :=
  inferInstanceAs (Decidable (_ ∧ _))

theorem clampSent_failed (q : Segment) : clampSent (-1) (q.len - q.sent) = (q.len - q.sent : Nat) := by
  have := q.rest_lt
  unfold clampSent toSize
  rw [if_pos (by omega)]

/-- The loop goes on as after a call that took everything. -/
theorem forwardLoop_failed (hg : q.pos = s.remoteSeq ∧ q.left < bufferSize)
    (hoffer : offer s.dest q (e.heap round) = some data)
    (hfail : onSocket s.socket (e.send round data).ret = -1) :
    forwardLoop e (q :: rest) round bufferSize fwd s =
      forwardLoop e rest (round + 1) (bufferSize - BitVec.ofNat 32 (q.len - q.sent)) true
        (afterSend s q rest data (-1) (q.len - q.sent) (Nat.le_refl _)) := by
  have hn : clampSent (onSocket s.socket (e.send round data).ret) (q.len - q.sent) = (q.len - q.sent : Nat) := by
    rw [hfail]
    exact clampSent_failed q
  have hall : q.len = q.sent + (q.len - q.sent) := by
    have := q.sent_le
    omega
  rw [forwardLoop_send hg hoffer hn (Nat.le_refl _), if_pos hall, hfail, BitVec.ofInt_natCast]

/-- Whatever the queue, the errno and the length: where a send of the loop fails, what should be kept is not. -/
theorem failed_send_never_kept (hf : s.forward = q :: rest) (hg : q.pos = s.remoteSeq ∧ q.left < bufferSize)
    (hoffer : offer s.dest q (e.heap round) = some data)
    (hfail : onSocket s.socket (e.send round data).ret = -1) :
    ¬FailedSendKept s (e.send round data).errno (forwardLoop e s.forward round bufferSize fwd s).1 := by
  rintro ⟨hkept, -⟩
  rw [hf, forwardLoop_failed hg hoffer hfail] at hkept
  have hlen := forwardLoop_length e rest (round + 1) (bufferSize - BitVec.ofNat 32 (q.len - q.sent)) true
    (afterSend s q rest data (-1) (q.len - q.sent) (Nat.le_refl _))
  rw [hkept] at hlen
  simp at hlen

/-- A session to port 8080 with the three bytes `abc` in the queue. -/
def sampleUpload : TcpSession :=
  List.foldl tcpStep (sampleSession 8080)
    [.socket { ev := ⟨false, false, true⟩ },
      .packet (samplePkt 8080 1001 1 []) {}, .packet (samplePkt 8080 1001 1 [97, 98, 99]) {}]

theorem failed_send_never_kept_upload :
    ¬FailedSendKept sampleUpload .eagain
      (forwardLoop { ev := ⟨false, false, true⟩ } sampleUpload.forward 0 65536 false sampleUpload).1 := by
  have hoffer : offer sampleUpload.dest (samplePkt 8080 1001 1 [97, 98, 99]).segment (fun _ => 0) =
      some [97, 98, 99] := by decide
  exact failed_send_never_kept (e := { ev := ⟨false, false, true⟩ }) rfl (by decide) hoffer (by decide)

/-- The send of `abc` fails with `EAGAIN`, and the bytes are acknowledged and gone. -/
theorem failed_send_acknowledged :
    handleTcpNew (sampleSyn 8080) { socket := 5, buf := ⟨1, 0⟩ } = some (sampleSession 8080) ∧
      (let e : SocketEnv :=
          { ev := ⟨false, false, true⟩, fwdBuf := ⟨16384, 0⟩, send := fun _ _ => { ret := -1, errno := .eagain } }
        let s := checkTcpSocket sampleUpload e
        ¬FailedSendKept sampleUpload .eagain s ∧ s.forward = [] ∧ s.state = .established ∧
          ∃ packet, s.io.getLast? = some (.tun packet true) ∧ packet.ack = true ∧ packet.ackSeq = 1004) :=
  ⟨sampleSession_new 8080, by decide, by decide, by decide, _, rfl, by decide, by decide⟩

end TunProxy.Native
