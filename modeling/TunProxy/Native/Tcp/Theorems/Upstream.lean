import TunProxy.Native.Tcp.Lemmas.Coherent
import TunProxy.Native.Tcp.Lemmas.Log

/-!
# Data for the server

On ports other than 80 and 443, the bytes the socket takes are a prefix of the stream the client sends, whatever the
order and the division of its segments.
-/

namespace TunProxy.Native

open Lib Lib.Serial

variable {op : TcpOp} {old s s' t : TcpSession} {ph ph' : Phase} {p : TcpPkt} {q : Segment} {rest : List Segment}
  {stream data : Bytes} {isn seq : U32}

/-! ## The client and the socket -/

/-- The data is the part of the stream at the place its number says. -/
def Slice (stream : Bytes) (isn seq : U32) (data : Bytes) : Prop :=
  ∃ offset, seq = isn + 1 + BitVec.ofNat 32 offset ∧ offset + data.length ≤ stream.length ∧
    data = (stream.drop offset).take data.length

/-- Data without SYN is part of the stream, and `send` takes no more than it is given and does not fail. -/
def StreamOk (stream : Bytes) (isn : U32) (s : TcpSession) : TcpOp → Prop
  | .packet p _ => p.belongs s = true → p.syn = false → p.data ≠ [] → Slice stream isn p.seq p.data
  | .socket e => ∀ round data, 0 ≤ (e.send round data).ret ∧ (e.send round data).ret ≤ data.length
  | _ => True

/-- Data with SYN is part of the stream too, or its number is not one of the stream: it is that of the SYN, say. -/
def SynOk (stream : Bytes) (isn : U32) (s : TcpSession) : TcpOp → Prop
  | .packet p _ => p.belongs s = true → p.syn = true → p.data ≠ [] →
      Slice stream isn p.seq p.data ∨ stream.length < dist (isn + 1) p.seq
  | _ => True

/-! ## The invariant -/

/-- The segment cannot be next. -/
def Segment.Stray (stream : Bytes) (isn : U32) (q : Segment) : Prop :=
  q.sent = 0 ∧ stream.length < dist (isn + 1) q.seq

/-- The session counts the bytes of the client: it was connected, and no FIN was counted. -/
def Forwarding (s : TcpSession) : Prop :=
  s.state = .synRecv ∨ s.state = .established ∨ s.state = .closeWait ∧ s.forward ≠ []

structure Upstream (stream : Bytes) (isn : U32) (s : TcpSession) : Prop where
  taken : accepted s.io = stream.take (accepted s.io).length
  queued : ∀ q ∈ s.forward, Slice stream isn q.seq q.data ∨ q.Stray stream isn
  first : s.state = .listen → s.remoteSeq = isn ∧ accepted s.io = []
  next : Forwarding s → s.remoteSeq = isn + 1 + BitVec.ofNat 32 (accepted s.io).length

/-- What holds of the session on every port but 80 and 443: while it is open, the invariant. -/
structure Uploads (stream : Bytes) (isn : U32) (s : TcpSession) : Prop where
  port : s.dest ≠ 80 ∧ s.dest ≠ 443
  unsent : s.connectSent ≠ .sent
  upstream : s.state.isOpen = true → Upstream stream isn s

theorem Slice.offset_le (h : Slice stream isn seq data) (hlt : stream.length < 2 ^ 31) :
    dist (isn + 1) seq ≤ stream.length := by
  obtain ⟨offset, rfl, hle, -⟩ := h
  rw [dist_add_of_lt (by omega)]
  omega

theorem Upstream.length_le (h : Upstream stream isn s) : (accepted s.io).length ≤ stream.length := by
  have htaken := congrArg List.length h.taken
  rw [List.length_take] at htaken
  omega

theorem Uploads.closed (h : Uploads stream isn s) (hd : t.dest = s.dest) (hc : t.connectSent = s.connectSent)
    (ho : t.state.isOpen = false) : Uploads stream isn t :=
  ⟨hd ▸ h.port, hc ▸ h.unsent, by simp [ho]⟩

/-- Neither the queue nor the bytes taken change. -/
theorem Uploads.keep (h : Uploads stream isn s) (hd : t.dest = s.dest) (hc : t.connectSent = s.connectSent)
    (ha : accepted t.io = accepted s.io) (hf : t.forward = s.forward)
    (ho : t.state.isOpen = true → s.state.isOpen = true)
    (hl : t.state = .listen → s.state = .listen ∧ t.remoteSeq = s.remoteSeq)
    (hn : Forwarding t → Forwarding s ∧ t.remoteSeq = s.remoteSeq) : Uploads stream isn t := by
  refine ⟨hd ▸ h.port, hc ▸ h.unsent, fun hopen => ?_⟩
  have hs := h.upstream (ho hopen)
  refine ⟨ha ▸ hs.taken, hf ▸ hs.queued, ?_, ?_⟩
  · intro hst
    rw [(hl hst).2, ha]
    exact hs.first (hl hst).1
  · intro hst
    rw [(hn hst).2, ha]
    exact hs.next (hn hst).1

theorem Uploads.writeRst {ok : Bool} (h : Uploads stream isn s) : Uploads stream isn (writeRst s ok) := by
  rw [writeRst_eq]
  refine h.closed rfl rfl ?_
  simp only []
  split <;> rfl

/-- Only calls that take nothing were made, in a session that goes on, or is closing now. -/
theorem Uploads.written {packet : TunPacket} {ok : Bool} (h : Uploads stream isn s) (state : TcpState) (remoteSeq : U32)
    (hd : t.dest = s.dest) (hc : t.connectSent = s.connectSent)
    (hs : t.state = orClosing ok state) (hio : t.io = s.io ++ [.tun packet ok])
    (hok : ok = true → Uploads stream isn { s with state, remoteSeq })
    (hf : t.forward = s.forward) (hr : t.remoteSeq = remoteSeq) : Uploads stream isn t := by
  cases ok with
  | false => exact h.closed hd hc (by rw [hs]; rfl)
  | true =>
      have ha : accepted t.io = accepted s.io := by simp [hio, Io.accepted]
      have hs : t.state = state := hs
      refine (hok rfl).keep hd hc ha hf ?_ ?_ ?_
      · simp [hs]
      · exact fun h => ⟨hs ▸ h, hr⟩
      · exact fun h => ⟨by rwa [Forwarding, hs, hf] at h, hr⟩

/-! ## The queue -/

theorem Segment.Stray.replace (h : q.Stray stream isn) : (q.replace p).Stray stream isn := by
  rw [Segment.Stray, Segment.replace_seq, Segment.replace_sent]
  exact h

theorem Uploads.queueTcp (h : Uploads stream isn s) (hlt : stream.length < 2 ^ 31)
    (hp : Slice stream isn p.seq p.data ∨ stream.length < dist (isn + 1) p.seq) (hw : s.state ≠ .closeWait) :
    Uploads stream isn (queueTcp s p) := by
  rw [queueTcp_eq]
  refine ⟨h.port, h.unsent, fun hopen => ?_⟩
  have hs := h.upstream hopen
  refine ⟨hs.taken, ?_, hs.first, ?_⟩
  · simp only []
    split
    · exact hs.queued
    · intro q hq
      rcases mem_enqueue hq with rfl | hq | ⟨q', hq', hseq, rfl⟩
      · exact hp.imp_right fun hp => ⟨rfl, hp⟩
      · exact hs.queued q hq
      · rcases hs.queued q' hq' with hslice | hstray
        · refine .inl ?_
          rw [Segment.replace_seq]
          unfold Segment.replace
          split
          · rcases hp with hp | hp
            · rw [hseq]
              exact hp
            · have := hslice.offset_le hlt
              rw [hseq] at this
              omega
          · exact hslice
        · exact .inr hstray.replace
  · rintro (hst | hst | ⟨hst, -⟩)
    · exact hs.next (.inl hst)
    · exact hs.next (.inr (.inl hst))
    · exact absurd hst hw

/-! ## What the socket takes -/

theorem offer_of_ne {dest : BitVec 16} {heap : Nat → UInt8} (h : dest ≠ 80) : offer dest q heap = some q.rest := by
  rw [offer, if_neg h]

/-- What `send` takes is what is counted as sent. -/
theorem clampSent_of_le {ret : Int} {len : Nat} (h₀ : 0 ≤ ret) (hle : ret ≤ len) (hlen : len < 2 ^ 16) :
    clampSent ret len = ret := by
  unfold clampSent toSize
  rw [if_neg]
  omega

/-- The part of the stream that begins where the bytes taken so far end. -/
theorem Slice.take {n : Nat} (hq : Slice stream isn q.seq q.data) (hlt : stream.length < 2 ^ 31) {taken : Nat}
    (ht : taken ≤ stream.length) (hpos : q.pos = isn + 1 + BitVec.ofNat 32 taken) (hn : n ≤ q.len - q.sent) :
    q.rest.take n = (stream.drop taken).take n ∧ taken + n ≤ stream.length := by
  obtain ⟨offset, hseq, hle, hdata⟩ := hq
  have hlen := q.len_le
  have hsent := q.sent_le
  have hoff : offset + q.sent = taken := by
    have h₁ : dist (isn + 1) q.pos = offset + q.sent := by
      rw [Segment.pos, hseq, BitVec.add_assoc, ← BitVec.ofNat_add, dist_add_of_lt (by omega)]
    have h₂ : dist (isn + 1) q.pos = taken := by rw [hpos, dist_add_of_lt (by omega)]
    omega
  refine ⟨?_, by omega⟩
  rw [Segment.rest, List.take_take, Nat.min_eq_left hn, hdata, List.drop_take, List.drop_drop, List.take_take, hoff]
  congr 1
  omega

theorem Uploads.send {e : SocketEnv} {n round : Nat} {ret : Int} (h : Uploads stream isn s)
    (hlt : stream.length < 2 ^ 31)
    (hl : s.state ≠ .listen) (hf : s.forward = q :: rest) (hpos : q.pos = s.remoteSeq)
    (hoffer : offer s.dest q (e.heap round) = some data) (hret : 0 ≤ ret ∧ ret ≤ data.length)
    (hn : clampSent ret (q.len - q.sent) = n) (hle : n ≤ q.len - q.sent) :
    Uploads stream isn { s with
      remoteSeq := (q.advance n hle).pos
      forward := if q.len = q.sent + n then rest else q.advance n hle :: rest
      io := s.io ++ [.send data ret] } := by
  refine ⟨h.port, h.unsent, fun hopen => ?_⟩
  have hs := h.upstream hopen
  have hforwarding : Forwarding s := by
    simp only [] at hopen
    cases hst : s.state <;> simp_all [TcpState.isOpen, Forwarding]
  have hnext := hs.next hforwarding
  have hrest : data = q.rest := by
    rw [offer_of_ne h.port.1, Option.some.injEq] at hoffer
    exact hoffer.symm
  have hclamp : ret = n := by
    rw [hrest, q.rest_length] at hret
    rwa [clampSent_of_le hret.1 hret.2 q.rest_lt] at hn
  have hlength := hs.length_le
  have hslice : Slice stream isn q.seq q.data := by
    rcases hs.queued q (by simp [hf]) with hslice | ⟨hsent, hstray⟩
    · exact hslice
    · have hpos' : q.pos = q.seq := by simp [Segment.pos, hsent]
      rw [← hpos', hpos, hnext, dist_add_of_lt (by omega)] at hstray
      omega
  obtain ⟨htake, hle'⟩ := hslice.take hlt hlength (hpos.trans hnext) hle
  have hacc : accepted (s.io ++ [.send data ret]) = accepted s.io ++ (stream.drop (accepted s.io).length).take n := by
    rw [accepted_append, hrest, hclamp, ← htake]
    simp [Io.accepted]
  have hlen : (accepted (s.io ++ [.send data ret])).length = (accepted s.io).length + n := by
    rw [hacc, List.length_append, List.length_take, List.length_drop]
    omega
  refine ⟨?_, ?_, fun hst => absurd hst hl, fun _ => ?_⟩
  · simp only []
    rw [hlen, hacc, List.take_add, ← hs.taken]
  · intro r hr
    simp only [] at hr
    split at hr
    · exact hs.queued r (by simp [hf, hr])
    · rcases List.mem_cons.1 hr with rfl | hr
      · exact .inl hslice
      · exact hs.queued r (by simp [hf, hr])
  · simp only []
    rw [hlen]
    have hadv : (q.advance n hle).pos = q.pos + BitVec.ofNat 32 n := by
      simp only [Segment.pos, Segment.advance, BitVec.ofNat_add, BitVec.add_assoc]
    rw [hadv, hpos, hnext, BitVec.add_assoc, ← BitVec.ofNat_add]

/-! ## The changes -/

/-- What the session needs of a call. -/
def UploadSafe (stream : Bytes) (isn : U32) (s : TcpSession) (op : TcpOp) : Prop :=
  StreamOk stream isn s op ∧ SynOk stream isn s op

theorem UploadSafe.packet {e : HandleEnv} (hsafe : UploadSafe stream isn old (.packet p e))
    (hb : p.belongs old = true) (hdata : p.data ≠ []) :
    Slice stream isn p.seq p.data ∨ stream.length < dist (isn + 1) p.seq := by
  by_cases hsyn : p.syn = true
  · exact hsafe.2 hb hsyn hdata
  · exact .inl (hsafe.1 hb (by simpa using hsyn) hdata)

/-- In `TCP_CLOSE_WAIT` with nothing queued, the place of the next byte does not matter any more. -/
theorem Uploads.drained {remoteSeq : U32} (h : Uploads stream isn s)
    (hs : s.state = .established ∨ s.state = .closeWait)
    (hf : s.forward = []) : Uploads stream isn { s with state := .closeWait, remoteSeq } := by
  refine h.keep rfl rfl rfl rfl ?_ (by simp) ?_
  · rcases hs with hs | hs <;> simp [hs, TcpState.isOpen]
  · rintro (hst | hst | ⟨-, hst⟩)
    · cases hst
    · cases hst
    · exact absurd hf hst

theorem Move.uploads (hm : Move old op (ph, s) (ph', s')) (hsafe : UploadSafe stream isn old op)
    (hlt : stream.length < 2 ^ 31) (h : Uploads stream isn s) : Uploads stream isn s' := by
  cases hm with
  | note hio =>
      obtain ⟨calls, rfl, hq⟩ := hio
      exact h.keep rfl rfl (by simp [accepted_quiet hq]) rfl id (fun hs => ⟨hs, rfl⟩) fun hs => ⟨hs, rfl⟩
  | window hop => exact h.keep rfl rfl rfl rfl id (fun hs => ⟨hs, rfl⟩) fun hs => ⟨hs, rfl⟩
  | rst ok hl => exact h.writeRst
  | drop hs => exact h.closed rfl rfl rfl
  | connect hop hd hu hp hn hs => exact absurd (hd.trans hp) h.port.2
  | early hop hu hd hn hq => exact absurd hd h.port.2
  | queue hop ht hdata ho hw hq =>
      subst hop
      exact h.queueTcp hlt (hsafe.packet hq.1.1 hdata) hw
  | finQueued hop ht hr hc hsyn hfin hs hf hb =>
      refine h.keep rfl rfl rfl rfl ?_ (by simp) fun _ => ⟨.inr (.inl hs), rfl⟩
      simp [hs, TcpState.isOpen]
  | fin hop ht hr hc hsyn hfin hs hf hb ok =>
      exact h.written _ _ rfl rfl rfl rfl (fun _ => h.drained (.inl hs) hf) rfl rfl
  | lastFin hop ht hr hc hsyn hfin hs hb ok =>
      refine h.closed rfl rfl ?_
      cases ok <;> rfl
  | ackAll hop ht hr ha hc =>
      refine h.keep rfl rfl rfl rfl ?_ ?_ ?_
      · cases hs : s.state <;> simp [TcpState.afterAck, TcpState.isOpen]
      · cases hs : s.state <;> simp [TcpState.afterAck]
      · cases hs : s.state <;> simp [Forwarding, TcpState.afterAck, hs]
  | ackPrevious hop ht ha hl hp => exact h.keep rfl rfl rfl rfl id (fun hs => ⟨hs, rfl⟩) fun hs => ⟨hs, rfl⟩
  | connected hop ho hs hb ok =>
      refine h.written .synRecv (s.remoteSeq + 1) rfl rfl rfl rfl (fun _ => ?_) rfl rfl
      have hup := h.upstream (by simp [hs, TcpState.isOpen])
      obtain ⟨hseq, hnil⟩ := hup.first hs
      refine ⟨h.port, h.unsent, fun _ => ⟨hup.taken, hup.queued, by simp, fun _ => ?_⟩⟩
      simp [hseq, hnil]
  | proxied hop ho hs hn => exact absurd hn h.unsent
  | send hop ho hs hf hpos hdata hn hle =>
      subst hop
      obtain ⟨round, hoffer, hret⟩ := hdata
      exact h.send hlt hs hf hpos hoffer (hret ▸ hsafe.1 round _) hn hle
  | ack hop ho hs hf ok => exact h.written _ _ rfl rfl rfl rfl (fun _ => h) rfl rfl
  | confirmFin hop ho hs hf ok =>
      exact h.written _ _ rfl rfl (hs ▸ rfl) rfl (fun _ => h.drained (.inr hs) hf) rfl rfl
  | data hop ho hs hw hb ok =>
      rename_i e bytes
      have h₁ : Uploads stream isn { s with io := s.io ++ [.recv bytes] } :=
        h.keep rfl rfl (by simp [Io.accepted]) rfl id (fun hs => ⟨hs, rfl⟩) fun hs => ⟨hs, rfl⟩
      exact h₁.written _ _ rfl rfl rfl rfl (fun _ => h₁) rfl rfl
  | eof hop ho hs hf ok =>
      refine h.closed rfl rfl ?_
      cases ok <;> rcases hs with hs | hs <;> simp [orClosing, hs, TcpState.afterEof, TcpState.isOpen]
  | eofQueued hop ho hs hf ok => exact h.closed rfl rfl rfl
  | keepAlive hop ho hs hb ok => exact h.written _ _ rfl rfl rfl rfl (fun _ => h) rfl rfl
  | close hop hs => exact h.closed rfl rfl rfl

/-! ## Runs -/

theorem Uploads.of_new {e : HandleEnv} (h : handleTcpNew p e = some s) (hlt : stream.length < 2 ^ 31)
    (hport : p.dest ≠ 80 ∧ p.dest ≠ 443) : Uploads stream p.seq s := by
  obtain ⟨-, -, -, mss, ws, rfl⟩ := handleTcpNew_some h
  refine ⟨hport, ?_, fun _ => ⟨?_, ?_, fun _ => ⟨rfl, ?_⟩, ?_⟩⟩
  · simp only [synSession]
    split <;> simp
  · simp [synSession, Io.accepted]
  · intro q hq
    have hq : q = p.segment := by
      simp only [synSession] at hq
      split at hq <;> simp_all
    refine .inr ⟨by rw [hq]; rfl, ?_⟩
    have hseq : q.seq = p.seq := by rw [hq]; rfl
    -- the data of the SYN is queued with the number of the SYN
    rw [hseq, dist_succ_self]
    omega
  · simp [synSession, Io.accepted]
  · simp [Forwarding, synSession]

theorem tcpStep_uploads (hlt : stream.length < 2 ^ 31) (hsafe : UploadSafe stream isn s op)
    (h : Uploads stream isn s) : Uploads stream isn (tcpStep s op) := by
  obtain ⟨ph, hs⟩ := tcpStep_invariant op (I := fun x => Uploads stream isn x.2) h
    fun _ _ hx hm => hm.uploads hsafe hlt hx
  exact hs

/-- On a port other than 80 and 443: as long as the session is open, the bytes the socket took are a prefix of the
stream, and until the client has closed its side, the next byte is the one behind them. -/
theorem upload_in_order {e : HandleEnv} {s₀ : TcpSession} {ops : List TcpOp} (h₀ : handleTcpNew p e = some s₀)
    (hport : p.dest ≠ 80 ∧ p.dest ≠ 443) (hlt : stream.length < 2 ^ 31)
    (h : Run tcpStep (UploadSafe stream p.seq) s₀ ops s) (hopen : s.state.isOpen = true) :
    accepted s.io <+: stream ∧
      (s.state = .synRecv ∨ s.state = .established →
        s.remoteSeq = p.seq + 1 + BitVec.ofNat 32 (accepted s.io).length) := by
  have hs := (h.invariant' (Uploads.of_new h₀ hlt hport)
    fun s op hi hsafe => tcpStep_uploads hlt hsafe hi).upstream hopen
  refine ⟨?_, fun hst => hs.next (hst.imp_right .inl)⟩
  rw [hs.taken]
  exact List.take_prefix _ _

/-- The socket can be written to, and takes at most two bytes at once. -/
def sampleWritable : TcpOp :=
  .socket {
    ev := ⟨false, false, true⟩
    fwdBuf := ⟨16384, 0⟩
    send := fun _ data => { ret := min data.length 2, errno := .other, ret_ge := by omega, ret_lt := by omega } }

theorem sampleWritable_ok : StreamOk stream isn s sampleWritable := by
  intro round data
  simp only []
  omega

/-- The client sends the bytes 2 and 3 of the stream before the bytes 0 to 1. -/
def sampleStream : List TcpOp :=
  [sampleWritable, .packet (samplePkt 8080 1001 1 []) {}, .packet (samplePkt 8080 1003 1 [99, 100]) {},
    .packet (samplePkt 8080 1001 1 [97, 98]) {}, sampleWritable]

theorem upload_in_order_ok :
    accepted (sampleStream.foldl tcpStep (sampleSession 8080)).io <+: [97, 98, 99, 100, 101] ∧
      (sampleStream.foldl tcpStep (sampleSession 8080)).remoteSeq = 1005 := by
  have hrun : Run tcpStep (UploadSafe [97, 98, 99, 100, 101] 1000) (sampleSession 8080) sampleStream
      (sampleStream.foldl tcpStep (sampleSession 8080)) := by
    refine Run.ofAllOk ⟨⟨sampleWritable_ok, trivial⟩, ⟨?_, ?_⟩, ⟨?_, ?_⟩, ⟨?_, ?_⟩,
      ⟨sampleWritable_ok, trivial⟩, trivial⟩
    · exact fun _ _ hdata => absurd rfl hdata
    · exact fun _ hsyn => by cases hsyn
    · exact fun _ _ _ => ⟨2, by decide, by decide, by decide⟩
    · exact fun _ hsyn => by cases hsyn
    · exact fun _ _ _ => ⟨0, by decide, by decide, by decide⟩
    · exact fun _ hsyn => by cases hsyn
  exact ⟨(upload_in_order (sampleSession_new 8080) (by decide) (by decide) hrun (by decide)).1, by decide⟩

/-- A SYN on the known session carries a byte that is none of the stream, with the number of the first byte. -/
theorem syn_data_forwarded :
    let ops := [sampleWritable, .packet (samplePkt 8080 1001 1 []) {},
      .packet { samplePkt 8080 1001 1 [57] with syn := true } {}, sampleWritable]
    handleTcpNew (sampleSyn 8080) { socket := 5, buf := ⟨1, 0⟩ } = some (sampleSession 8080) ∧
      Run tcpStep (StreamOk [97] 1000) (sampleSession 8080) ops (ops.foldl tcpStep (sampleSession 8080)) ∧
      (ops.foldl tcpStep (sampleSession 8080)).state = .established ∧
      ¬accepted (ops.foldl tcpStep (sampleSession 8080)).io <+: [97] := by
  refine ⟨sampleSession_new 8080, Run.ofAllOk ⟨sampleWritable_ok, ?_, ?_, sampleWritable_ok, trivial⟩, by decide,
    by decide⟩
  · exact fun _ _ hdata => absurd rfl hdata
  · exact fun _ hsyn => by cases hsyn

end TunProxy.Native
