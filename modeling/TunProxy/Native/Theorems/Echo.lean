import TunProxy.Native.Lemmas.Session
import TunProxy.Native.Theorems.Checksum

/-!
# Echo requests and replies

An ICMP session belongs to a pair of addresses and keeps the identifier of the request that opened it. Replies get this
identifier back, so they answer the right request exactly when no two identifiers share a session.
-/

namespace TunProxy.Native

open Lib Lib.Bytes Lib.OnesComplement

variable {w : World} {op : NgOp} {ops : List NgOp} {s s' : IcmpSession} {p p' : IcmpPkt} {e : DatagramEnv}
  {message ident data : Bytes} {start : Nat}

/-! ## Requests and replies -/

/-- The identifier of a request. -/
def IcmpPkt.id (p : IcmpPkt) : Bytes := (p.message.drop 4).take 2

/-- The request as `handle_icmp` sends it, for IPv4. -/
def IcmpPkt.request (p : IcmpPkt) : Bytes := setIcmpId p.message (p.id.map (~~~ ·)) 0

/-- The packet has an ICMP header and no more than the buffer of a reply can hold; addresses of IPv4 have 4 bytes. -/
structure IcmpPkt.Sized (p : IcmpPkt) : Prop where
  header : 8 ≤ p.message.length
  buffer : p.message.length ≤ ICMP4_MAXMSG
  addresses : p.version = 4 → p.saddr.length = 4 ∧ p.daddr.length = 4

/-- The ICMP packets are as long as their headers, at least. -/
def NgOp.Sized : NgOp → Prop
  | .icmp p _ => p.Sized
  | _ => True

/-- The session has sent the request of IPv4. -/
structure IcmpSession.Sent (s : IcmpSession) (p : IcmpPkt) : Prop where
  version : s.version = p.version
  saddr : s.saddr = p.saddr
  daddr : s.daddr = p.daddr
  ipv4 : p.version = 4
  sized : p.Sized
  request : ∃ ret, .sendto p.request ret ∈ s.io

/-- `recv` returns the reply to the request: with its number and data, and with any identifier and checksum. -/
def DatagramEnv.Replies (e : DatagramEnv) (p : IcmpPkt) : Prop :=
  e.ev.err = false ∧ e.ev.inp = true ∧ ∃ check id, check.length = 2 ∧ id.length = 2 ∧
    e.recv = .got ([0, 0] ++ check ++ id ++ p.message.drop 6)

/-- The messages that `check_icmp_socket` writes. -/
def repliesWritten (s : IcmpSession) (e : DatagramEnv) : List Bytes :=
  ((checkIcmpSocket s e).io.drop s.io.length).flatMap fun
    | .datagram data _ => [data]
    | _ => []

/-- The packet for the client is a valid reply to its request, of IPv4. -/
structure AnswersClient (p : IcmpPkt) (pkt : Bytes) : Prop where
  source : slice 12 4 pkt = p.daddr
  dest : slice 16 4 pkt = p.saddr
  type : slice 20 2 pkt = [0, 0]
  id : slice 24 2 pkt = p.id
  rest : pkt.drop 26 = p.message.drop 6
  checksum : sum16 (pkt.drop 20) = 0xFFFF

/-- Whatever request a session has sent and whatever reply to it comes now, what is written answers the request. -/
def World.EchoKept (w : World) : Prop :=
  ∀ s, .icmp s ∈ w.sessions → ∀ p e, s.Sent p → e.Replies p → ∀ data ∈ repliesWritten s e,
    AnswersClient p (icmpBuffer s data)

/-- The requests that share a session have one identifier. -/
def World.OneId (w : World) : Prop :=
  ∀ s, .icmp s ∈ w.sessions → ∀ p p', s.Sent p → s.Sent p' → p.id = p'.id

/-! ## Messages with another identifier -/

/-- The bytes before the identifier. -/
def icmpHead (message ident : Bytes) (start : Nat) : Bytes :=
  message.take 2 ++ checkBytes (calcChecksum start (message.take 2 ++ [0, 0] ++ ident ++ message.drop 6))

theorem setIcmpId_eq : setIcmpId message ident start = icmpHead message ident start ++ (ident ++ message.drop 6) := by
  simp only [setIcmpId, icmpHead, checkBytes, u16Bytes, List.append_assoc]

theorem length_icmpHead (hm : 2 ≤ message.length) : (icmpHead message ident start).length = 4 := by
  rw [icmpHead, List.length_append, List.length_take, length_checkBytes]
  omega

theorem setIcmpId_drop (hm : 2 ≤ message.length) :
    (setIcmpId message ident start).drop 4 = ident ++ message.drop 6 := by
  rw [setIcmpId_eq, List.drop_left' (length_icmpHead hm)]

/-- The message verifies. -/
theorem setIcmpId_verifies (hm : 6 ≤ message.length) (hlen : message.length ≤ 65535) (hid : ident.length = 2) :
    sum16 (setIcmpId message ident 0) = 0xFFFF := by
  have htake : (message.take 2).length % 2 = 0 := by
    rw [List.length_take]
    omega
  have hblank : (message.take 2 ++ [0, 0] ++ ident ++ message.drop 6).length = message.length := by
    simp only [List.length_append, List.length_take, List.length_drop, hid, List.length_cons, List.length_nil]
    omega
  have hle := wordSumLE_le (l := message.take 2 ++ [0, 0] ++ ident ++ message.drop 6)
  have hsum : calcChecksum 0 (message.take 2 ++ [0, 0] ++ ident ++ message.drop 6) =
      canon (0 + wordSumLE (message.take 2 ++ [0, 0] ++ ident ++ message.drop 6)) := calcChecksum_eq (by omega)
  rw [Nat.zero_add] at hsum
  have hcheck (csum : Nat) : (checkBytes csum).length % 2 = 0 := by rw [length_checkBytes]
  have hzeros : wordSumLE (message.take 2 ++ [0, 0] ++ ident ++ message.drop 6) =
      wordSumLE (message.take 2) + wordSumLE (ident ++ message.drop 6) := by
    rw [List.append_assoc, List.append_assoc, wordSumLE_append htake, wordSumLE_append rfl]
    simp [wordSumLE]
  apply verifies_complement_le (s := wordSumLE (message.take 2) + wordSumLE (ident ++ message.drop 6))
  rw [setIcmpId_eq, icmpHead, List.append_assoc, wordSumLE_append htake, wordSumLE_append (hcheck _),
    wordSumLE_checkBytes, hsum, hzeros]
  omega

theorem length_id (h : 8 ≤ p.message.length) : p.id.length = 2 := by
  rw [IcmpPkt.id, List.length_take, List.length_drop]
  omega

/-- The identifier can be read off the request that was sent. -/
theorem id_of_request (h : 8 ≤ p.message.length) : p.id = ((p.request.drop 4).take 2).map (~~~ ·) := by
  have hid : (p.id.map (~~~ ·)).length = 2 := by rw [List.length_map, length_id h]
  rw [IcmpPkt.request, setIcmpId_drop (by omega), List.take_left' hid, List.map_map]
  have hneg : ((~~~ ·) ∘ (~~~ ·) : UInt8 → UInt8) = fun x => x := by
    funext x
    simp
  rw [hneg, List.map_id']

/-! ## Replies -/

/-- The reply to the request is written with the identifier of the session. -/
theorem repliesWritten_eq (h : s.Sent p) (hr : e.Replies p) : ∃ bytes, repliesWritten s e = [setIcmpId bytes s.id 0] ∧
    bytes.length = p.message.length ∧ bytes.take 2 = [0, 0] ∧ bytes.drop 6 = p.message.drop 6 := by
  obtain ⟨herr, hinp, check, ident, hc, hi, hrecv⟩ := hr
  have hv : s.version = 4 := h.version.trans h.ipv4
  have hfix : ([0, 0] ++ check ++ ident).length = 6 := by
    simp only [List.length_append, hc, hi, List.length_cons, List.length_nil]
  have hlen : ([0, 0] ++ check ++ ident ++ p.message.drop 6).length = p.message.length := by
    have := h.sized.header
    rw [List.length_append, hfix, List.length_drop]
    omega
  refine ⟨[0, 0] ++ check ++ ident ++ p.message.drop 6, ?_, hlen, by simp, List.drop_left' hfix⟩
  have hread : e.recv.upTo ICMP4_MAXMSG = .got ([0, 0] ++ check ++ ident ++ p.message.drop 6) := by
    rw [hrecv, RecvResult.upTo, List.take_of_length_le (hlen.trans_le h.sized.buffer)]
  generalize [0, 0] ++ check ++ ident ++ p.message.drop 6 = bytes at hread hlen
  have hne : bytes ≠ [] := by
    rintro rfl
    have := h.sized.header
    simp only [List.length_nil] at hlen
    omega
  unfold repliesWritten checkIcmpSocket
  rw [herr, if_neg Bool.false_ne_true, if_pos hinp]
  simp only [hv, ↓reduceIte, hread]
  split <;> simp [icmpReply]

/-- The fields of a packet of IPv4 that `write_icmp` builds. -/
theorem icmpBuffer_fields (data : Bytes) (hv : s.version = 4) (hs : s.saddr.length = 4) (hd : s.daddr.length = 4) :
    slice 12 4 (icmpBuffer s data) = s.daddr ∧ slice 16 4 (icmpBuffer s data) = s.saddr ∧
      (icmpBuffer s data).drop 20 = data := by
  have hdst : member 4 s.saddr = s.saddr := List.take_of_length_le hs.le
  have hsrc : member 4 s.daddr = s.daddr := List.take_of_length_le hd.le
  obtain ⟨head, hk, -, heq⟩ := iphdr_eq (20 + data.length) IPPROTO_ICMP s.daddr s.saddr
    (length_checkBytes (chain 0 (ipBlocks 4 IPPROTO_ICMP s.daddr s.saddr data.length)))
  obtain ⟨hfrom, hto, -, hdrop, -⟩ := fields_of_head data 9 hk (by omega) hd hs
  rw [icmpBuffer, hv, if_pos rfl, hdst, hsrc, ipHeader, if_pos rfl, heq]
  exact ⟨hfrom, hto, hdrop⟩

theorem drop_behind {pkt : Bytes} (h : pkt.drop 20 = data) (k : Nat) : pkt.drop (20 + k) = data.drop k := by
  rw [← h, List.drop_drop]

/-- The identifier in the packet is that of the session. -/
theorem slice_id (hdrop : (icmpBuffer s (setIcmpId message s.id 0)).drop 20 = setIcmpId message s.id 0)
    (hm : 2 ≤ message.length) (hid : s.id.length = 2) :
    slice 24 2 (icmpBuffer s (setIcmpId message s.id 0)) = s.id := by
  have h24 : (icmpBuffer s (setIcmpId message s.id 0)).drop 24 = s.id ++ message.drop 6 :=
    (drop_behind hdrop 4).trans (setIcmpId_drop hm)
  rw [slice, h24, List.take_left' hid]

/-- A session with the identifier of the request answers it. -/
theorem answersClient_of_id (h : s.Sent p) (hid : s.id = p.id) (hlen : message.length = p.message.length)
    (htype : message.take 2 = [0, 0]) (hrest : message.drop 6 = p.message.drop 6) :
    AnswersClient p (icmpBuffer s (setIcmpId message s.id 0)) := by
  obtain ⟨hsa, hda⟩ := h.sized.addresses h.ipv4
  have h8 : 8 ≤ message.length := hlen ▸ h.sized.header
  have hmax : message.length ≤ 65535 := (hlen ▸ h.sized.buffer).trans (by decide)
  have h2 : s.id.length = 2 := hid ▸ length_id h.sized.header
  obtain ⟨hfrom, hto, hdrop⟩ := icmpBuffer_fields (setIcmpId message s.id 0) (h.version.trans h.ipv4)
    (h.saddr ▸ hsa) (h.daddr ▸ hda)
  refine ⟨hfrom.trans h.daddr, hto.trans h.saddr, ?_, (slice_id hdrop (by omega) h2).trans hid, ?_, ?_⟩
  · have htake : (message.take 2).length = 2 := by
      rw [List.length_take]
      omega
    rw [slice, hdrop, setIcmpId_eq, icmpHead, List.append_assoc, List.take_left' htake, htype]
  · have h26 : (setIcmpId message s.id 0).drop 6 = message.drop 6 := by
      have hskip : (s.id ++ message.drop 6).drop 2 = message.drop 6 := List.drop_left' h2
      rw [← hskip, ← setIcmpId_drop (by omega), List.drop_drop]
    exact (drop_behind hdrop 6).trans (h26.trans hrest)
  · rw [hdrop]
    exact setIcmpId_verifies (by omega) hmax h2

/-! ## What a session keeps -/

theorem Changes.icmp_log (h : Changes op (.icmp s) (.icmp s')) : s'.id = s.id ∧ s.io ⊆ s'.io := by
  cases h with
  | refl => exact ⟨rfl, List.Subset.refl _⟩
  | icmpPacket hop hb =>
      unfold handleIcmp
      dsimp only
      split <;> exact ⟨rfl, List.subset_append_left _ _⟩
  | icmpSocket s e =>
      unfold checkIcmpSocket
      split
      · exact ⟨rfl, List.Subset.refl _⟩
      · split
        · dsimp only
          split
          · split <;> exact ⟨rfl, List.Subset.refl _⟩
          · exact ⟨rfl, List.Subset.refl _⟩
          · split <;> exact ⟨rfl, List.subset_append_of_subset_left _ (List.subset_append_left _ _)⟩
        · exact ⟨rfl, List.Subset.refl _⟩
  | icmpCheck s e =>
      unfold checkIcmpSession
      split
      · exact ⟨rfl, List.subset_append_left _ _⟩
      · exact ⟨rfl, List.Subset.refl _⟩
  | icmpStop s => exact ⟨rfl, List.Subset.refl _⟩

theorem sent_of_handle {e : IcmpEnv} (hv : s.version = p.version) (hsa : s.saddr = p.saddr) (hda : s.daddr = p.daddr)
    (h4 : p.version = 4) (hp : p.Sized) : (handleIcmp s p e).Sent p := by
  obtain ⟨hversion, -⟩ := handleIcmp_kept s p e
  simp only [IcmpSession.fixed, Prod.mk.injEq] at hversion
  refine ⟨hversion.1.trans hv, hversion.2.1.trans hsa, hversion.2.2.trans hda, h4, hp,
    onSocket s.socket e.sendto.ret, ?_⟩
  unfold handleIcmp
  simp only [h4, Nat.reduceEqDiff, ↓reduceIte]
  split <;> exact List.mem_append_right _ (List.mem_singleton.2 rfl)

/-- The session of IPv4 has the identifier of a request it has sent: the one that opened it. -/
def NgSession.Opened : NgSession → Prop
  | .icmp s => s.version = 4 → ∃ p, s.Sent p ∧ s.id = p.id
  | _ => True

theorem Opens.opened {t : NgSession} (hop : op.Sized) (h : Opens op t) : t.Opened := by
  cases h with
  | @icmp p e s he h =>
      unfold handleIcmpNew at h
      split at h
      · cases h
      · cases h
        intro hv
        rw [show (handleIcmp _ p e).version = p.version from congrArg (·.1) (handleIcmp_kept _ p e).1] at hv
        refine ⟨p, sent_of_handle rfl rfl rfl hv hop, ?_⟩
        unfold handleIcmp
        dsimp only
        split <;> rfl
  | udp h => trivial
  | tcp h => trivial
  | block => trivial

theorem Changes.opened {t t' : NgSession} (h : Changes op t t') (ht : t.Opened) : t'.Opened := by
  cases t' with
  | icmp s' =>
      cases t with
      | icmp s =>
          obtain ⟨hfixed, -⟩ := h.icmp
          obtain ⟨hid, hio⟩ := h.icmp_log
          simp only [IcmpSession.fixed, Prod.mk.injEq] at hfixed
          obtain ⟨hv, hsa, hda⟩ := hfixed
          intro hv'
          obtain ⟨p, hsent, hp⟩ := ht (hv ▸ hv')
          obtain ⟨ret, hmem⟩ := hsent.request
          exact ⟨p, ⟨hv.trans hsent.version, hsa.trans hsent.saddr, hda.trans hsent.daddr, hsent.ipv4, hsent.sized, ret,
            hio hmem⟩, hid.trans hp⟩
      | udp s => cases h
      | tcp s => cases h
  | udp s' => trivial
  | tcp s' => trivial

theorem opened_of_run (h : Run ngStep (fun _ op => op.Sized) World.init ops w) : ∀ t ∈ w.sessions, t.Opened :=
  forall_of_run (fun _ _ hop ho => ho.opened hop) (fun _ _ _ _ hc ht => hc.opened ht) h

/-- In every reachable list of sessions: every reply that can come for a request of a session is written as an answer to
this request exactly when the requests of each session have one identifier. -/
theorem echo_kept_iff (h : Run ngStep (fun _ op => op.Sized) World.init ops w) : w.EchoKept ↔ w.OneId := by
  have hopened := opened_of_run h
  constructor
  · intro hkept s hs p p' hp hp'
    have hid (q : IcmpPkt) (hq : s.Sent q) : s.id = q.id := by
      obtain ⟨p₀, hsent, hp₀⟩ := hopened _ hs (hq.version.trans hq.ipv4)
      have hreply : DatagramEnv.Replies
          { ev := ⟨false, true, false⟩, recv := .got ([0, 0] ++ [0, 0] ++ [0, 0] ++ q.message.drop 6) } q :=
        ⟨rfl, rfl, [0, 0], [0, 0], rfl, rfl, rfl⟩
      obtain ⟨bytes, hwritten, hlen, -, -⟩ := repliesWritten_eq hq hreply
      have hanswer := (hkept s hs q _ hq hreply _ (hwritten ▸ List.mem_singleton.2 rfl)).id
      obtain ⟨hsa, hda⟩ := hq.sized.addresses hq.ipv4
      obtain ⟨-, -, hdrop⟩ := icmpBuffer_fields (setIcmpId bytes s.id 0) (hq.version.trans hq.ipv4)
        (hq.saddr ▸ hsa) (hq.daddr ▸ hda)
      have h8 := hq.sized.header
      rwa [slice_id hdrop (by omega) (hp₀ ▸ length_id hsent.sized.header)] at hanswer
    exact (hid p hp).symm.trans (hid p' hp')
  · intro hone s hs p e hp hr data hdata
    obtain ⟨p₀, hsent, hp₀⟩ := hopened _ hs (hp.version.trans hp.ipv4)
    obtain ⟨bytes, hwritten, hlen, htype, hrest⟩ := repliesWritten_eq hp hr
    rw [hwritten, List.mem_singleton] at hdata
    subst hdata
    exact answersClient_of_id hp (hp₀.trans (hone s hs p₀ p hsent hp)) hlen htype hrest

/-- A session that has sent one message only. -/
theorem id_eq_of_single (hio : ∀ data ret, .sendto data ret ∈ s.io → data = message) (h : s.Sent p) (h' : s.Sent p') :
    p.id = p'.id := by
  obtain ⟨ret, hmem⟩ := h.request
  obtain ⟨ret', hmem'⟩ := h'.request
  rw [id_of_request h.sized.header, id_of_request h'.sized.header, hio _ _ hmem, hio _ _ hmem']

/-- An echo request with this identifier to this host. -/
def samplePing (ident host : UInt8) : IcmpPkt :=
  { version := 4, saddr := [10, 1, 10, 1], daddr := [8, 8, 8, host], plen := [0, 0], nxt := 0
    message := [8, 0, 0, 0, 0, ident, 0, 1] }

theorem samplePing_sized (ident host : UInt8) : (samplePing ident host).Sized :=
  ⟨Nat.le_refl 8, show 8 ≤ ICMP4_MAXMSG by decide, fun _ => ⟨rfl, rfl⟩⟩

def samplePings (pings : List IcmpPkt) : List NgOp :=
  pings.map fun p => .icmp p { socket := 5, sendto := { ret := 8, errno := .other } }

theorem samplePings_run (ident ident' host host' : UInt8) :
    Run ngStep (fun _ op => op.Sized) World.init (samplePings [samplePing ident host, samplePing ident' host'])
      ((samplePings [samplePing ident host, samplePing ident' host']).foldl ngStep World.init) :=
  Run.ofAllOk ⟨samplePing_sized ident host, samplePing_sized ident' host', trivial⟩

/-- The session that the requests leave: the first of them opened it. -/
def samplePinged (host ident : UInt8) (pings : List IcmpPkt) : IcmpSession :=
  { time := 0, version := 4, saddr := [10, 1, 10, 1], daddr := [8, 8, 8, host], id := [0, ident], stop := false
    socket := 5, io := .open 5 :: pings.map fun p => .sendto p.request 8 }

/-- Two hosts are pinged with two identifiers. -/
theorem echo_kept_hosts : ((samplePings [samplePing 1 8, samplePing 2 9]).foldl ngStep World.init).EchoKept := by
  have hsessions : ((samplePings [samplePing 1 8, samplePing 2 9]).foldl ngStep World.init).sessions =
      [.icmp (samplePinged 9 2 [samplePing 2 9]), .icmp (samplePinged 8 1 [samplePing 1 8])] := by decide +kernel
  have hsingle (host ident : UInt8) (q : IcmpPkt) (data : Bytes) (ret : Int)
      (hmem : .sendto data ret ∈ (samplePinged host ident [q]).io) : data = q.request := by
    simp only [samplePinged, List.map_cons, List.map_nil, List.mem_cons, reduceCtorEq, List.not_mem_nil, or_false,
      false_or, Io.sendto.injEq] at hmem
    exact hmem.1
  refine (echo_kept_iff (samplePings_run 1 2 8 9)).2 fun s hs p p' hp hp' => ?_
  rw [hsessions, List.mem_pair, NgSession.icmp.injEq, NgSession.icmp.injEq] at hs
  rcases hs with rfl | rfl
  · exact id_eq_of_single (hsingle 9 2 (samplePing 2 9)) hp hp'
  · exact id_eq_of_single (hsingle 8 1 (samplePing 1 8)) hp hp'

/-- One host is pinged with two identifiers: the reply to the second request carries the first identifier. -/
theorem echo_not_kept :
    let w := (samplePings [samplePing 1 8, samplePing 2 8]).foldl ngStep World.init
    let s := samplePinged 8 1 [samplePing 1 8, samplePing 2 8]
    let e : DatagramEnv := { ev := ⟨false, true, false⟩, recv := .got [0, 0, 0, 0, 0, 2, 0, 1] }
    .icmp s ∈ w.sessions ∧ s.Sent (samplePing 2 8) ∧ e.Replies (samplePing 2 8) ∧
      (repliesWritten s e).map (slice 4 2) = [[0, 1]] ∧ (samplePing 2 8).id = [0, 2] ∧ ¬w.EchoKept := by
  intro w s e
  have hs : .icmp s ∈ w.sessions := by decide +kernel
  have hsent : s.Sent (samplePing 2 8) :=
    ⟨rfl, rfl, rfl, rfl, samplePing_sized 2 8, 8, List.mem_cons_of_mem _ (List.mem_cons_of_mem _ List.mem_cons_self)⟩
  have hreply : e.Replies (samplePing 2 8) := ⟨rfl, rfl, [0, 0], [0, 2], rfl, rfl, rfl⟩
  refine ⟨hs, hsent, hreply, by decide +kernel, rfl, fun h => ?_⟩
  obtain ⟨data, hdata⟩ : ∃ data, repliesWritten s e = [data] := ⟨_, rfl⟩
  have hid := (h s hs _ e hsent hreply data (hdata ▸ List.mem_singleton.2 rfl)).id
  have hother : ∀ data ∈ repliesWritten s e, slice 24 2 (icmpBuffer s data) ≠ (samplePing 2 8).id := by decide +kernel
  exact hother data (hdata ▸ List.mem_singleton.2 rfl) hid

end TunProxy.Native
