import TunProxy.Native.Tcp.Lemmas.Calls
import TunProxy.Tls.Theorems.ServerName

/-!
# The host of the CONNECT request

On port 443 the first packet after the SYN sends the CONNECT request, with the name of the client hello it carries or
with the address of the server. So the request names the host of the client hello only when no packet without the
client hello comes before it: no acknowledgement, no retransmitted SYN, and no later data.
-/

namespace TunProxy.Native

open Lib
open Tls (Record recordSample recordSample_names)

variable {op : TcpOp} {ops : List TcpOp} {s s' s₀ : TcpSession} {p p₀ : TcpPkt} {e e₀ : HandleEnv} {io calls : List Io}
  {host : Bytes}

/-! ## Requests -/

/-- A CONNECT request that the socket took. -/
def Io.request : Io → List Bytes
  | .connect request ret => if 0 ≤ ret then [request] else []
  | _ => []

def requests (io : List Io) : List Bytes := io.flatMap Io.request

@[simp] theorem requests_append : requests (io ++ calls) = requests io ++ requests calls := List.flatMap_append

@[simp] theorem requests_nil : requests [] = [] := rfl

@[simp] theorem requests_cons {c : Io} : requests (c :: io) = c.request ++ requests io := List.flatMap_cons

theorem connectRequest_inj {name : Bytes} (h : connectRequest name = connectRequest host) : name = host := by
  unfold connectRequest at h
  exact List.append_cancel_left (List.append_cancel_right h)

/-- The packet finds the socket open, and `send` of a CONNECT request works. -/
def TcpPkt.Connects (p : TcpPkt) (s : TcpSession) (e : HandleEnv) : Prop :=
  p.belongs s = true ∧ p.urg = false ∧ 0 ≤ onSocket s.socket e.connect

instance TcpPkt.Connects.decidable : Decidable (p.Connects s e) := inferInstanceAs (Decidable (_ ∧ _))

/-- The packet of the call, where it is one that can send the CONNECT request. -/
def TcpOp.connects (s : TcpSession) : TcpOp → Option (TcpPkt × HandleEnv)
  | .packet p e => if p.Connects s e then some (p, e) else none
  | _ => none

/-- The first packet of a run that can send the CONNECT request. -/
def firstConnect : TcpSession → List TcpOp → Option (TcpPkt × HandleEnv)
  | _, [] => none
  | s, op :: ops => (op.connects s).or (firstConnect (tcpStep s op) ops)

/-- The data of the call, where it is the packet of the session with which the client's stream begins: right behind the
number of the SYN `p₀`. -/
def TcpOp.beginning (p₀ : TcpPkt) (s : TcpSession) : TcpOp → Bytes
  | .packet p _ => if p.belongs s = true ∧ p.dataSeq = p₀.seq + 1 then p.data else []
  | _ => []

/-- The client's first data by its number, in whatever place it arrives: that of the SYN `p₀`, or of a later packet. -/
def firstData (p₀ : TcpPkt) (s₀ : TcpSession) (ops : List TcpOp) : Option Bytes :=
  (p₀.data :: ops.map (TcpOp.beginning p₀ s₀)).find? (· ≠ [])

/-- What `parse_tls_header` finds in the packet. -/
def TcpPkt.tlsName (p : TcpPkt) (e : HandleEnv) : Bytes := (parseTlsHeader p.data).getD e.strayName

/-- What the packet with the request brings: the client hello itself, other data in which `parse_tls_header` finds the
same name, or no name where the name is the address in figures. -/
inductive BringsHello (s : TcpSession) (p : TcpPkt) (e : HandleEnv) (hello host : Bytes) : Prop
  | hello (h : p.data = hello)
  | sameName (h : p.tlsName e = host)
  | address (hnone : p.tlsName e = []) (h : inetNtoa s.daddr = host)

/-- After the run, at most one CONNECT request was sent; and where the client's first data is a client hello with a
server name, exactly one, with this name. -/
def NamesServer (p₀ : TcpPkt) (s₀ : TcpSession) (ops : List TcpOp) : Prop :=
  (requests (ops.foldl tcpStep s₀).io).length ≤ 1 ∧
    ∀ (r : Record) (host : Bytes), firstData p₀ s₀ ops = some r.bytes → r.hello.Names (some host) →
      requests (ops.foldl tcpStep s₀).io = [connectRequest host]

/-! ## One call -/

/-- No CONNECT request is sent. -/
theorem noRequest : CallRule (fun calls => requests calls = []) where
  nil := rfl
  append h h' := by rw [requests_append, h, h', List.nil_append]
  tun _ _ := rfl
  send _ _ := rfl
  close _ := rfl
  fault := rfl
  data _ _ := rfl

theorem Adds.requests_eq (h : Adds (fun calls => requests calls = []) s s') : requests s'.io = requests s.io := by
  obtain ⟨calls, hio, hcalls⟩ := h.calls
  rw [hio, requests_append, hcalls, List.append_nil]

/-- The requests made, and whether one was sent, are as before. -/
def SameRequests (s s' : TcpSession) : Prop :=
  requests s'.io = requests s.io ∧ (s'.connectSent = .notSent ↔ s.connectSent = .notSent)

theorem Adds.sameRequests (h : Adds (fun calls => requests calls = []) s s') : SameRequests s s' :=
  ⟨h.requests_eq, by rw [h.connectSent]⟩

theorem requests_drained {rs : List RecvResult} : requests (drained rs) = [] := by
  induction rs with
  | nil => rfl
  | cons r rest ih =>
      unfold drained
      split
      · rfl
      · rfl
      · exact ih

theorem checkListen_sameRequests (e : SocketEnv) : SameRequests s (checkListen s e) := by
  have hrst (t : TcpSession) : SameRequests t (writeRst t e.writeOk) := (noRequest.writeRst e.writeOk).sameRequests
  unfold checkListen writeSynAck
  simp only [writeOrClose_eq]
  split
  · split
    · exact hrst s
    · rename_i bytes _
      have hreply : SameRequests s { s with io := s.io ++ [.reply bytes] } := ⟨by simp [Io.request], Iff.rfl⟩
      split
      · rename_i hc
        split
        · exact ⟨by simp [Io.request, requests_drained], by simp [hc]⟩
        · exact ⟨(hrst _).1.trans hreply.1, (hrst _).2.trans hreply.2⟩
      · exact hreply
  · split <;> exact ⟨by simp [Io.request], Iff.rfl⟩

theorem connect443_again (h : s.connectSent ≠ .notSent) : SameRequests s (connect443 s p e) := by
  unfold connect443
  simp only [h, ↓reduceIte]
  exact ⟨rfl, Iff.rfl⟩

theorem connect443_failed (h : s.connectSent = .notSent) (hs : ¬0 ≤ onSocket s.socket e.connect) :
    SameRequests s (connect443 s p e) := by
  have hlt : onSocket s.socket e.connect < 0 := by omega
  unfold connect443
  simp only [h, hlt, ↓reduceIte, writeRst_eq]
  exact ⟨by simp [Io.request, hs], by simp [h]⟩

theorem connect443_sends (h : s.connectSent = .notSent) (hs : 0 ≤ onSocket s.socket e.connect) :
    requests (connect443 s p e).io = requests s.io ++ [connectRequest (serverName s p e)] ∧
      (connect443 s p e).connectSent ≠ .notSent := by
  have hlt : ¬onSocket s.socket e.connect < 0 := by omega
  unfold connect443
  simp only [h, hlt, ↓reduceIte]
  exact ⟨by simp [Io.request, hs], by simp⟩

/-- Only a packet that can send CONNECT, of a session that has not sent it, sends it. -/
theorem tcpStep_sameRequests (op : TcpOp) (hd : s.dest = 443) (h : s.connectSent = .notSent → op.connects s = none) :
    SameRequests s (tcpStep s op) := by
  cases op with
  | packet p e =>
      by_cases hb : p.belongs s = true
      · rw [tcpStep_packet hb]
        by_cases hu : p.urg = true
        · rw [handleTcp, if_pos hu]
          exact ⟨rfl, Iff.rfl⟩
        · have hu : p.urg = false := by simpa using hu
          have hadds := (noRequest.handleTcp (s := s) (p := p) e hu).sameRequests
          rw [if_pos ((belongs_dest hb).symm.trans hd)] at hadds
          have hconnect : SameRequests s (connect443 s p e) := by
            by_cases hn : s.connectSent = .notSent
            · refine connect443_failed hn fun hs => ?_
              have hnone := h hn
              rw [TcpOp.connects, if_pos ⟨hb, hu, hs⟩] at hnone
              cases hnone
            · exact connect443_again hn
          exact ⟨hadds.1.trans hconnect.1, hadds.2.trans hconnect.2⟩
      · rw [tcpStep_other hb]
        exact ⟨rfl, Iff.rfl⟩
  | socket e =>
      by_cases hl : 0 ≤ s.socket ∧ s.state = .listen ∧ e.ev.err = false
      · obtain ⟨ho, hl, he⟩ := hl
        have hstep : tcpStep s (.socket e) = checkTcpSocket s e := if_pos ho
        rw [hstep, checkTcpSocket_listen hl he]
        exact checkListen_sameRequests e
      · refine (noRequest.tcpStep ?_ (by rintro _ _ ⟨⟩)).sameRequests
        rintro _ ⟨⟩ ho hs
        by_contra he
        exact hl ⟨ho, hs, by simpa using he⟩
  | monitor e => exact (noRequest.tcpStep (by rintro _ ⟨⟩) (by rintro _ _ ⟨⟩)).sameRequests
  | check e => exact (noRequest.tcpStep (by rintro _ ⟨⟩) (by rintro _ _ ⟨⟩)).sameRequests
  | stop writeOk => exact (noRequest.tcpStep (by rintro _ ⟨⟩) (by rintro _ _ ⟨⟩)).sameRequests

theorem connects_some (h : op.connects s = some (p, e)) : op = .packet p e ∧ p.Connects s e := by
  cases op with
  | packet p' e' =>
      rw [TcpOp.connects] at h
      split at h
      · rename_i hc
        cases h
        exact ⟨rfl, hc⟩
      · cases h
  | _ => cases h

theorem tcpStep_connects (hd : s.dest = 443) (hn : s.connectSent = .notSent) (h : op.connects s = some (p, e)) :
    requests (tcpStep s op).io = requests s.io ++ [connectRequest (serverName s p e)] ∧
      (tcpStep s op).connectSent ≠ .notSent := by
  obtain ⟨rfl, hb, hu, hs⟩ := connects_some h
  have hadds := (noRequest.handleTcp (s := s) (p := p) e hu).sameRequests
  rw [if_pos ((belongs_dest hb).symm.trans hd)] at hadds
  obtain ⟨hr, hc⟩ := connect443_sends (p := p) hn hs
  rw [tcpStep_packet hb]
  exact ⟨hadds.1.trans hr, fun h => hc (hadds.2.1 h)⟩

/-! ## Runs -/

theorem tcpStep_dest (s : TcpSession) (op : TcpOp) : (tcpStep s op).dest = s.dest ∧ (tcpStep s op).daddr = s.daddr := by
  have h := tcpStep_fixed s op
  simp only [TcpSession.fixed, Prod.mk.injEq] at h
  exact ⟨h.2.2.2.2.2.2.2.2.2, h.2.2.2.2.2.2.2.2.1⟩

theorem requests_after (hd : s.dest = 443) (hn : s.connectSent ≠ .notSent) :
    requests (ops.foldl tcpStep s).io = requests s.io := by
  induction ops generalizing s with
  | nil => rfl
  | cons op ops ih =>
      obtain ⟨hr, hc⟩ := tcpStep_sameRequests op hd fun h => absurd h hn
      rw [List.foldl_cons, ih ((tcpStep_dest s op).1.trans hd) (fun h => hn (hc.1 h)), hr]

/-- The only request of a run is that of its first packet that can send one. -/
theorem requests_run (hd : s.dest = 443) (hn : s.connectSent = .notSent) :
    requests (ops.foldl tcpStep s).io =
      requests s.io ++ ((firstConnect s ops).map fun c => connectRequest (serverName s c.1 c.2)).toList := by
  induction ops generalizing s with
  | nil => simp [firstConnect]
  | cons op ops ih =>
      obtain ⟨hdest, hdaddr⟩ := tcpStep_dest s op
      rw [List.foldl_cons, firstConnect]
      cases hop : op.connects s with
      | none =>
          obtain ⟨hr, hc⟩ := tcpStep_sameRequests op hd fun _ => hop
          have hname (p : TcpPkt) (e : HandleEnv) : serverName (tcpStep s op) p e = serverName s p e := by
            simp only [serverName, hdaddr]
          rw [ih (hdest.trans hd) (hc.2 hn), hr, Option.none_or]
          simp only [hname]
      | some c =>
          obtain ⟨hr, hc⟩ := tcpStep_connects hd hn hop
          rw [requests_after (hdest.trans hd) hc, hr]
          rfl

/-- The request of a session, from its SYN on. -/
theorem requests_of_new (h₀ : handleTcpNew p₀ e₀ = some s₀) (hp : p₀.dest = 443) (ops : List TcpOp) :
    requests (ops.foldl tcpStep s₀).io =
      ((firstConnect s₀ ops).map fun c => connectRequest (serverName s₀ c.1 c.2)).toList := by
  obtain ⟨-, -, -, mss, ws, rfl⟩ := handleTcpNew_some h₀
  rw [requests_run hp (by simp [synSession, hp])]
  rfl

/-- A client hello gives its name, whatever the session. -/
theorem serverName_hello {r : Record} (hn : r.hello.Names (some host)) (hp : p.data = r.bytes) :
    serverName s p e = host := by
  have hne : host ≠ [] := List.length_pos_iff.1 hn.1.length_pos
  simp only [serverName, hp, Tls.parseTlsHeader_names hn, Option.getD_some, ne_eq, hne, not_false_eq_true, ↓reduceIte]

/-- The name of the request is that of a client hello exactly where the packet brings it. -/
theorem serverName_iff {r : Record} (hn : r.hello.Names (some host)) :
    serverName s p e = host ↔ BringsHello s p e r.bytes host := by
  have hne : host ≠ [] := List.length_pos_iff.1 hn.1.length_pos
  have hname : serverName s p e = if p.tlsName e ≠ [] then p.tlsName e else inetNtoa s.daddr := rfl
  constructor
  · intro h
    rw [hname] at h
    split at h
    · exact .sameName h
    · rename_i hnone
      exact .address (by simpa using hnone) h
  · rintro (h | h | ⟨hnone, h⟩)
    · exact serverName_hello hn h
    · rw [hname, h, if_pos hne]
    · rw [hname, hnone, if_neg (by simp), h]

/-- For every session to port 443 and every run of it, in whatever order the packets come: at most one CONNECT request
is sent, and it names the host of the client hello with which the client's stream begins, exactly when the first packet
after the SYN that can send the request brings this client hello (or, by chance, the same name). -/
theorem connect_names_server_iff (h₀ : handleTcpNew p₀ e₀ = some s₀) (hp : p₀.dest = 443) (ops : List TcpOp) :
    NamesServer p₀ s₀ ops ↔
      ∀ (r : Record) (host : Bytes), firstData p₀ s₀ ops = some r.bytes → r.hello.Names (some host) →
        ∃ p e, firstConnect s₀ ops = some (p, e) ∧ BringsHello s₀ p e r.bytes host := by
  have hrequests := requests_of_new h₀ hp ops
  constructor
  · rintro ⟨-, hnamed⟩ r host hfirst hhost
    have hone := hnamed r host hfirst hhost
    rw [hrequests] at hone
    cases hc : firstConnect s₀ ops with
    | none => simp [hc] at hone
    | some c =>
        simp only [hc, Option.map_some, Option.toList_some, List.cons.injEq, and_true] at hone
        exact ⟨c.1, c.2, rfl, (serverName_iff hhost).1 (connectRequest_inj hone)⟩
  · intro h
    refine ⟨?_, fun r host hfirst hhost => ?_⟩
    · rw [hrequests]
      cases firstConnect s₀ ops <;> simp
    · obtain ⟨p, e, hc, hbrings⟩ := h r host hfirst hhost
      rw [hrequests, hc, Option.map_some, (serverName_iff hhost).2 hbrings]
      rfl

/-- The socket is connected, and the client acknowledges with its client hello; what follows it comes later. -/
def helloFirst : List TcpOp :=
  [.socket { ev := ⟨false, false, true⟩ }, .packet (samplePkt 443 1001 1 recordSample.bytes) { connect := 28 },
    .packet (samplePkt 443 (1001 + BitVec.ofNat 32 recordSample.bytes.length) 1 [1, 2, 3]) {}]

theorem connect_names_server_hello : NamesServer (sampleSyn 443) (sampleSession 443) helloFirst := by
  refine (connect_names_server_iff (sampleSession_new 443) rfl helloFirst).2 fun r host hfirst hhost => ?_
  have hdata : firstData (sampleSyn 443) (sampleSession 443) helloFirst = some recordSample.bytes := by decide +kernel
  refine ⟨samplePkt 443 1001 1 recordSample.bytes, { connect := 28 }, rfl, .hello ?_⟩
  exact Option.some_inj.1 (hdata.symm.trans hfirst)

/-- The acknowledgement comes before the client hello, and the request names the address. -/
def ackFirst : List TcpOp :=
  [.socket { ev := ⟨false, false, true⟩ }, .packet (samplePkt 443 1001 1 []) { connect := 41 },
    .packet (samplePkt 443 1001 1 recordSample.bytes) {}]

/-- The segment behind the client hello overtakes it. -/
def overtaken : List TcpOp :=
  [.socket { ev := ⟨false, false, true⟩ },
    .packet (samplePkt 443 (1001 + BitVec.ofNat 32 recordSample.bytes.length) 1 [1, 2, 3]) { connect := 41 },
    .packet (samplePkt 443 1001 1 recordSample.bytes) {}]

theorem not_namesServer {ops : List TcpOp}
    (hdata : firstData (sampleSyn 443) (sampleSession 443) ops = some recordSample.bytes)
    (hrequest : requests (ops.foldl tcpStep (sampleSession 443)).io = [connectRequest (ascii "93.184.216.34")]) :
    ¬NamesServer (sampleSyn 443) (sampleSession 443) ops := by
  intro h
  have hnamed := h.2 recordSample _ hdata recordSample_names
  rw [hrequest] at hnamed
  revert hnamed
  decide +kernel

theorem connect_names_address :
    handleTcpNew (sampleSyn 443) { socket := 5, buf := ⟨1, 0⟩ } = some (sampleSession 443) ∧
      recordSample.hello.Names (some (ascii "a.b")) ∧
      (firstData (sampleSyn 443) (sampleSession 443) ackFirst = some recordSample.bytes ∧
        requests (ackFirst.foldl tcpStep (sampleSession 443)).io = [connectRequest (ascii "93.184.216.34")] ∧
        ¬NamesServer (sampleSyn 443) (sampleSession 443) ackFirst) ∧
      firstData (sampleSyn 443) (sampleSession 443) overtaken = some recordSample.bytes ∧
        requests (overtaken.foldl tcpStep (sampleSession 443)).io = [connectRequest (ascii "93.184.216.34")] ∧
        ¬NamesServer (sampleSyn 443) (sampleSession 443) overtaken := by
  have hdata : firstData (sampleSyn 443) (sampleSession 443) ackFirst = some recordSample.bytes := by decide +kernel
  have hrequest : requests (ackFirst.foldl tcpStep (sampleSession 443)).io =
      [connectRequest (ascii "93.184.216.34")] := by decide +kernel
  have hdata' : firstData (sampleSyn 443) (sampleSession 443) overtaken = some recordSample.bytes := by decide +kernel
  have hrequest' : requests (overtaken.foldl tcpStep (sampleSession 443)).io =
      [connectRequest (ascii "93.184.216.34")] := by decide +kernel
  exact ⟨sampleSession_new 443, recordSample_names, ⟨hdata, hrequest, not_namesServer hdata hrequest⟩,
    hdata', hrequest', not_namesServer hdata' hrequest'⟩

end TunProxy.Native
