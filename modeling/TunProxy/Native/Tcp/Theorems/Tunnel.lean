import TunProxy.Native.Tcp.Lemmas.Calls

/-!
# The answer to CONNECT, and the bytes behind it

In `TCP_LISTEN` the code reads 12 bytes once and discards what else is there. So the tunnel depends on how the answer
is split: it is as it should be exactly when the first 12 bytes come at once and the loop stops right behind the header.
-/

namespace TunProxy.Native

variable {s t : TcpSession} {e : SocketEnv} {io calls : List Io} {header body bytes : Bytes}

/-! ## The stream -/

/-- Bytes read from the socket. -/
def Io.read : Io → Bytes
  | .reply bytes => bytes
  | .recv bytes => bytes
  | _ => []

/-- Bytes given to `write` for the client. -/
def Io.written : Io → Bytes
  | .tun packet _ => packet.data
  | _ => []

def reads (io : List Io) : Bytes := io.flatMap Io.read
def writes (io : List Io) : Bytes := io.flatMap Io.written

@[simp] theorem reads_append : reads (io ++ calls) = reads io ++ reads calls := List.flatMap_append
@[simp] theorem writes_append : writes (io ++ calls) = writes io ++ writes calls := List.flatMap_append

@[simp] theorem reads_reply : reads [.reply bytes] = bytes := List.append_nil _

/-- The header of an answer with the code 200: the status line and the fields, up to the first empty line. -/
structure OkHeader (header : Bytes) : Prop where
  status : ∃ minor : UInt8, header.take 12 = ascii "HTTP/1." ++ [minor] ++ ascii " 200"
  ends : ascii "\r\n\r\n" <:+ header
  first : ∀ before after, header = before ++ ascii "\r\n\r\n" ++ after → after = []

/-- A piece of the stream, or nothing yet. -/
def RecvResult.IsPiece : RecvResult → Prop
  | .got bytes => bytes ≠ []
  | .fail errno => errno ≠ .other

instance RecvResult.IsPiece.decidable : (r : RecvResult) → Decidable r.IsPiece
  | .got _ => inferInstanceAs (Decidable (_ ≠ _))
  | .fail _ => inferInstanceAs (Decidable (_ ≠ _))

/-- `recv` returns pieces of the stream. It fails or comes to an end only behind the header. -/
def SocketEnv.InPieces (e : SocketEnv) (header : Bytes) : Prop :=
  e.reply.IsPiece ∧ ((∀ r ∈ e.drain, r.IsPiece) ∨ header.length ≤ 12 + (reads (drained e.drain)).length)

/-- The calls made since `s`. -/
def since (s t : TcpSession) : List Io := t.io.drop s.io.length

/-- What the answer should lead to, from its first event on, whatever happens later and however the stream is split:
as long as the header is not complete, the session waits; from then on the tunnel is there, and exactly the bytes behind
the header were written to the client. -/
structure Tunnels (s : TcpSession) (e : SocketEnv) (header body : Bytes) : Prop where
  waits : e.InPieces header → (reads (since s (tcpStep s (.socket e)))).length < header.length →
    (tcpStep s (.socket e)).state = .listen ∧ (tcpStep s (.socket e)).connectSent = .sent
  established (ops : List TcpOp) : reads (since s ((.socket e :: ops).foldl tcpStep s)) <+: header ++ body →
    header.length ≤ (reads (since s ((.socket e :: ops).foldl tcpStep s))).length →
    ((.socket e :: ops).foldl tcpStep s).connectSent = .established
  behind (ops : List TcpOp) : reads (since s ((.socket e :: ops).foldl tcpStep s)) <+: header ++ body →
    writes (since s ((.socket e :: ops).foldl tcpStep s)) =
      (reads (since s ((.socket e :: ops).foldl tcpStep s))).drop header.length

/-- The first `recv` returns the first 12 bytes, with a version the code knows, and the loop stops right behind the
header. -/
def ReadsHeader (e : SocketEnv) (header : Bytes) : Prop :=
  (header.take 12 = ascii "HTTP/1.0 200" ∨ header.take 12 = ascii "HTTP/1.1 200") ∧
    e.reply.upTo 12 = .got (header.take 12) ∧ header.length = 12 + (reads (drained e.drain)).length

/-! ## The event -/

theorem since_append (h : t.io = s.io ++ calls) : since s t = calls := by
  rw [since, h, List.drop_left]

theorem OkHeader.length_ge (h : OkHeader header) : 12 ≤ header.length := by
  obtain ⟨minor, hminor⟩ := h.status
  have hlen := congrArg List.length hminor
  rw [List.length_take] at hlen
  have : (ascii "HTTP/1." ++ [minor] ++ ascii " 200").length = 12 := rfl
  omega

theorem tcpStep_listen (hl : s.state = .listen) (ho : 0 ≤ s.socket) (herr : e.ev.err = false) :
    tcpStep s (.socket e) = checkListen s e := by
  rw [← checkTcpSocket_listen hl herr]
  exact if_pos ho

theorem writes_drained {rs : List RecvResult} : writes (drained rs) = [] := by
  induction rs with
  | nil => rfl
  | cons r rest ih =>
      unfold drained
      split
      · rfl
      · rfl
      · exact ih

/-- The answer is accepted: it is read up to where the loop stops. -/
theorem checkListen_accepts (hc : s.connectSent = .sent) (hin : e.ev.inp = true) (hr : e.reply.upTo 12 = .got bytes)
    (hok : bytes = ascii "HTTP/1.0 200" ∨ bytes = ascii "HTTP/1.1 200") :
    checkListen s e = { s with
      connectSent := .established, io := s.io ++ ([.reply bytes] ++ drained e.drain), state := .synRecv } := by
  simp only [checkListen, hin, hr, hc, hok, ↓reduceIte, List.append_assoc]

/-- The answer is refused: the session is reset, whatever the code read of it. -/
theorem checkListen_refuses (hc : s.connectSent = .sent) (hin : e.ev.inp = true)
    (hno : ∀ bytes, e.reply.upTo 12 = .got bytes → ¬(bytes = ascii "HTTP/1.0 200" ∨ bytes = ascii "HTTP/1.1 200")) :
    (checkListen s e).state ≠ .listen ∧ (checkListen s e).connectSent = .sent := by
  have hrst (t : TcpSession) (ht : t.connectSent = .sent) :
      (writeRst t e.writeOk).state ≠ .listen ∧ (writeRst t e.writeOk).connectSent = .sent := by
    rw [writeRst_eq]
    refine ⟨?_, ht⟩
    dsimp only
    split <;> simp
  unfold checkListen
  rw [if_pos hin]
  split
  · exact hrst s hc
  · rename_i bytes hr
    dsimp only
    rw [if_pos hc, if_neg (hno bytes hr)]
    exact hrst _ hc

/-! ## The run -/

/-- What is read is written. -/
theorem readsWritten : CallRule (fun calls => reads calls = writes calls) where
  nil := rfl
  append h h' := by rw [reads_append, writes_append, h, h']
  tun _ hp := by simp [reads, writes, Io.read, Io.written, hp]
  send _ _ := rfl
  close _ := rfl
  fault := rfl
  data _ hp := by simp [reads, writes, Io.read, Io.written, hp]

/-- After an answer that was read as far as its header goes. -/
theorem tunnels_of_read (hl : s.state = .listen) (hc : s.connectSent = .sent) (ho : 0 ≤ s.socket)
    (hin : e.ev.inp = true) (herr : e.ev.err = false) (hread : ReadsHeader e header)
    (hstream : reads (since s (tcpStep s (.socket e))) <+: header ++ body) : Tunnels s e header body := by
  obtain ⟨hok, hr, hlen⟩ := hread
  rw [tcpStep_listen hl ho herr, checkListen_accepts hc hin hr hok, since_append rfl] at hstream
  have hpiece : (header.take 12).length = 12 := by
    rcases hok with h | h <;> rw [h] <;> rfl
  have hheader : reads ([.reply (header.take 12)] ++ drained e.drain) = header := by
    have hall : (reads ([.reply (header.take 12)] ++ drained e.drain)).length = header.length := by
      rw [reads_append, List.length_append, reads_reply, hpiece, hlen]
    exact (List.prefix_of_prefix_length_le hstream (List.prefix_append header body) hall.le).eq_of_length hall
  have hrun (ops : List TcpOp) : ∃ calls, reads calls = writes calls ∧
      ((.socket e :: ops).foldl tcpStep s).io = s.io ++ ([.reply (header.take 12)] ++ drained e.drain ++ calls) ∧
      ((.socket e :: ops).foldl tcpStep s).connectSent = .established := by
    rw [List.foldl_cons, tcpStep_listen hl ho herr, checkListen_accepts hc hin hr hok]
    obtain ⟨⟨calls, hio, hcalls⟩, hconnect, -⟩ := readsWritten.run (s := { s with
      connectSent := .established, io := s.io ++ ([.reply (header.take 12)] ++ drained e.drain)
      state := .synRecv }) (by simp) (by simp) ops
    exact ⟨calls, hcalls, by rw [hio, List.append_assoc], hconnect⟩
  refine ⟨fun _ hlt => ?_, fun ops _ _ => ?_, fun ops _ => ?_⟩
  · rw [tcpStep_listen hl ho herr, checkListen_accepts hc hin hr hok, since_append rfl, hheader] at hlt
    exact absurd hlt (lt_irrefl _)
  · obtain ⟨-, -, -, hconnect⟩ := hrun ops
    exact hconnect
  · obtain ⟨calls, hcalls, hio, -⟩ := hrun ops
    rw [since_append hio, reads_append, hheader, List.drop_left, writes_append, writes_append, writes_drained, hcalls]
    rfl

/-- For every session in `TCP_LISTEN` that has sent CONNECT, every answer with the code 200 and every way the event
reads it: the tunnel is established and carries exactly the bytes behind the header, in every run that follows, exactly
when the first `recv` returns 12 bytes of a known version and the loop stops right behind the header. -/
theorem tunnels_iff (hl : s.state = .listen) (hc : s.connectSent = .sent) (ho : 0 ≤ s.socket)
    (hin : e.ev.inp = true) (herr : e.ev.err = false) (hh : OkHeader header)
    (hpieces : e.InPieces header)
    (hstream : reads (since s (tcpStep s (.socket e))) <+: header ++ body) :
    Tunnels s e header body ↔ ReadsHeader e header := by
  refine ⟨fun h => ?_, fun h => tunnels_of_read hl hc ho hin herr h hstream⟩
  have hstep := tcpStep_listen hl ho herr
  by_cases hok : ∃ bytes, e.reply.upTo 12 = .got bytes ∧ (bytes = ascii "HTTP/1.0 200" ∨ bytes = ascii "HTTP/1.1 200")
  · obtain ⟨bytes, hr, hok⟩ := hok
    have hlen : bytes.length = 12 := by rcases hok with rfl | rfl <;> rfl
    have hsince : since s (tcpStep s (.socket e)) = [.reply bytes] ++ drained e.drain := by
      rw [hstep, checkListen_accepts hc hin hr hok, since_append rfl]
    have hreads : reads (since s (tcpStep s (.socket e))) = bytes ++ reads (drained e.drain) := by
      rw [hsince, reads_append, reads_reply]
    have hge : header.length ≤ (reads (since s (tcpStep s (.socket e)))).length := by
      by_contra hlt
      have hwait := (h.waits hpieces (by omega)).2
      rw [hstep, checkListen_accepts hc hin hr hok] at hwait
      cases hwait
    have hle : (reads (since s (tcpStep s (.socket e)))).length ≤ header.length := by
      have hbehind := h.behind [] hstream
      rw [List.foldl_cons, List.foldl_nil] at hbehind
      rw [← List.drop_eq_nil_iff, ← hbehind, hsince, writes_append, writes_drained]
      rfl
    have hbytes : bytes = header.take 12 := by
      have hpre : bytes <+: header ++ body := (List.prefix_append bytes _).trans (hreads ▸ hstream)
      rw [List.prefix_iff_eq_take.1 hpre, hlen, List.take_append_of_le_length hh.length_ge]
    rw [hreads, List.length_append, hlen] at hge hle
    exact ⟨hbytes ▸ hok, hbytes ▸ hr, by omega⟩
  · obtain ⟨hstate, hsent⟩ := checkListen_refuses (s := s) hc hin fun bytes hr hbytes => hok ⟨bytes, hr, hbytes⟩
    rw [← hstep] at hstate hsent
    by_cases hlt : (reads (since s (tcpStep s (.socket e)))).length < header.length
    · exact absurd (h.waits hpieces hlt).1 hstate
    · have hconnect := h.established [] hstream (by simpa using hlt)
      rw [List.foldl_cons, List.foldl_nil, hsent] at hconnect
      cases hconnect

/-- A session that waits for the answer to its CONNECT request. -/
def sampleAwaiting : TcpSession :=
  List.foldl tcpStep (sampleSession 443)
    [.socket { ev := ⟨false, false, true⟩ }, .packet (samplePkt 443 1001 1 []) { connect := 41 }]

def sampleHeader : Bytes := ascii "HTTP/1.1 200 OK\r\n\r\n"

/-- The event with the answer: what the first `recv` returns, and what those of the loop do. -/
def sampleAnswer (first : Bytes) (drain : List RecvResult) : SocketEnv :=
  { ev := ⟨false, true, false⟩, reply := .got first, drain }

theorem sampleHeader_ok : OkHeader sampleHeader := by
  refine ⟨⟨49, by decide⟩, by decide, fun before after h => ?_⟩
  have hplaces : ∀ i < 16, (sampleHeader.drop i).take 4 = ascii "\r\n\r\n" → i = 15 := by decide
  have hlen : before.length + 4 + after.length = 19 := by
    have := congrArg List.length h
    simp only [List.length_append] at this
    exact this.symm
  have hplace := hplaces before.length (by omega) (by rw [h, List.append_assoc, List.drop_left]; rfl)
  exact List.length_eq_zero_iff.1 (by omega)

theorem tunnels_sample :
    Tunnels sampleAwaiting (sampleAnswer (ascii "HTTP/1.1 200") [.got (ascii " OK\r\n\r\n"), .fail .eagain])
      sampleHeader (ascii "data") :=
  (tunnels_iff (by decide +kernel) (by decide +kernel) (by decide +kernel) rfl rfl sampleHeader_ok
    ⟨by decide, .inr (by decide)⟩ (by decide +kernel)).2 ⟨by decide, by decide, by decide⟩

/-- A short first read resets the session, and bytes of the tunnel that come with the header are lost. -/
theorem not_tunnels_split :
    ¬Tunnels sampleAwaiting (sampleAnswer (ascii "HTTP/1.1") []) sampleHeader (ascii "data") ∧
      ¬Tunnels sampleAwaiting (sampleAnswer (ascii "HTTP/1.1 200") [.got (ascii " OK\r\n\r\nda"), .fail .eagain])
        sampleHeader (ascii "data") := by
  constructor
  · intro h
    have hwaits := (h.waits ⟨by decide, .inl (by simp [sampleAnswer])⟩ (by decide +kernel)).1
    revert hwaits
    decide +kernel
  · intro h
    have hbehind := h.behind [] (by decide +kernel)
    revert hbehind
    decide +kernel

end TunProxy.Native
