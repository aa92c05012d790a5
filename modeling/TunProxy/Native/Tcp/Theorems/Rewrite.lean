import TunProxy.Native.Tcp.Lemmas.Forward
import TunProxy.Native.Tcp.Lemmas.Log

/-!
# HTTP rewriting and partial sends

On port 80 the forward loop gives the rewritten rest of a segment to `send`, counts what was taken against the original,
and rewrites the rest again for the next call. The bytes that arrive are the rewritten segment exactly where each call
takes only bytes that the rest, rewritten on its own, has in common with what is left of the rewritten segment: so where
one call takes all of it, and for every division into calls only where there is nothing to rewrite, in the segment or in
a rest of it.
-/

namespace TunProxy.Native

variable {s : TcpSession} {e : SocketEnv} {es : List SocketEnv} {q : Segment} {rest : List Segment} {data taken : Bytes}
  {heap mem : Nat → UInt8} {io io' : List Io} {k m n : Nat}

/-! ## The bytes of a segment -/

/-- `patch_http_url` on the segment from its byte `m` on. -/
def Segment.patchFrom (q : Segment) (m : Nat) (heap : Nat → UInt8) : Patch :=
  patchHttpUrl (memAt (q.data.drop m) heap) (q.len - m)

/-- What the server should get: the rewritten segment, or the segment where `patch_http_url` returns 0. -/
def Segment.patched (q : Segment) (heap : Nat → UInt8) : Bytes :=
  match q.patchFrom 0 heap with
  | .some data => data
  | _ => q.data.take q.len

/-- What the socket took of the first of the new calls. -/
def firstAccepted (io io' : List Io) : Bytes := accepted ((io'.drop io.length).take 1)

/-- The events `es`, and no fewer, take the first segment out of the queue: the bytes of it that the socket took. -/
def takenOf : TcpSession → List SocketEnv → Option Bytes
  | _, [] => none
  | s, e :: es =>
      let s' := (forwardData s e).1
      let taken := firstAccepted s.io s'.io
      if s'.forward.length < s.forward.length then if es = [] then some taken else none
      else if (forwardData s e).2 = none then none
      else (takenOf s' es).map (taken ++ ·)

/-- The event finds room for the segment, and `send` takes no more than it is given and does not fail. -/
structure SendsOk (s : TcpSession) (q : Segment) (e : SocketEnv) : Prop where
  room : BitVec.ofNat 32 q.len < BitVec.ofNat 32 (getReceiveBuffer s e.fwdBuf)
  ret : ∀ data, 0 ≤ (e.send 0 data).ret ∧ (e.send 0 data).ret ≤ data.length

/-- What is given to `send` when `m` bytes of the segment are counted as sent: the rest, rewritten on its own. -/
def Segment.offered (q : Segment) (m : Nat) (heap : Nat → UInt8) : Bytes :=
  match q.patchFrom m heap with
  | .some data => data
  | _ => (q.data.drop m).take (q.len - m)

/-- What `send` takes of it at the event. -/
def Segment.takes (q : Segment) (m : Nat) (e : SocketEnv) : Bytes :=
  (q.offered m (e.heap 0)).take (e.send 0 (q.offered m (e.heap 0))).ret.toNat

/-- From the byte `m` on, `send` takes of each rest, rewritten on its own, only what is next of `target`, and the last
one takes all that is left. -/
def Segment.Agrees (q : Segment) (target : Bytes) : (m : Nat) → List SocketEnv → Prop
  | _, [] => False
  | m, e :: es =>
      if es = [] then q.takes m e = target.drop m
      else q.takes m e <+: target.drop m ∧ q.Agrees target (m + (q.takes m e).length) es

instance Segment.Agrees.decidable (q : Segment) (target : Bytes) :
    (m : Nat) → (es : List SocketEnv) → Decidable (q.Agrees target m es)
  | _, [] => .isFalse id
  | m, e :: es =>
      have := decidable q target (m + (q.takes m e).length) es
      inferInstanceAs (Decidable (if es = [] then _ else _))

/-- `patch_http_url` changes no rest of the segment, the whole included. -/
def Segment.Plain (q : Segment) : Prop := ∀ m < q.len, ∀ heap data, q.patchFrom m heap ≠ .some data

/-! ## What `patch_http_url` returns -/

theorem patchHttpUrl_zero : patchHttpUrl mem 0 = .none := rfl

theorem readHost_length (mem : Nat → UInt8) (room pos : Nat) : (readHost mem room pos).length ≤ room := by
  induction room generalizing pos with
  | zero => simp [readHost]
  | succ room ih =>
      unfold readHost
      split
      · simpa using ih (pos + 1)
      · simp

/-- A rewritten text is longer than the original. -/
theorem patchHttpUrl_length {dataLen : Nat} (h : patchHttpUrl mem dataLen = .some data) :
    dataLen < data.length ∧ data.length ≤ dataLen + 518 := by
  unfold patchHttpUrl at h
  split at h
  · cases h
  · rename_i host _
    simp only [] at h
    split at h
    · cases h
    · rename_i pos1 _
      split at h
      · cases h
      · split at h
        · cases h
        · rename_i hle
          have hhost := readHost_length mem 511 (host + 6)
          have hhttp : (ascii "http://").length = 7 := rfl
          simp only [Patch.some.injEq] at h
          rw [← h]
          simp only [List.length_append, List.length_take, List.length_drop, List.length_map, List.length_range, hhttp]
          omega

theorem Segment.patchFrom_length (h : q.patchFrom m heap = .some data) :
    q.len - m < data.length ∧ data.length ≤ q.len - m + 518 := patchHttpUrl_length h

theorem offer_port80 (q : Segment) (heap : Nat → UInt8) (hd : s.dest = 80) : offer s.dest q heap =
    match q.patchFrom q.sent heap with
    | .none => some q.rest
    | .some data => some data
    | .fault => none := by
  rw [offer, if_pos hd]
  rfl

/-! ## One event -/

/-- `send` took `k` bytes: at most the rest of the segment is counted. -/
theorem clampSent_natCast {len : Nat} (h : k < 2 ^ 63) : clampSent (k : Int) len = (min k len : Nat) := by
  unfold clampSent toSize
  split <;> omega

theorem SendsOk.left_lt (h : SendsOk s q e) : q.left < BitVec.ofNat 32 (getReceiveBuffer s e.fwdBuf) := by
  have hroom := BitVec.lt_def.1 h.room
  have hlen := q.len_lt
  have hsent := q.sent_le
  refine BitVec.lt_def.2 ?_
  rw [Segment.left, BitVec.toNat_sub]
  simp only [BitVec.toNat_ofNat] at hroom ⊢
  omega

theorem firstAccepted_cons (c : Io) (calls : List Io) (h : io' = io ++ c :: calls) :
    firstAccepted io io' = c.accepted := by
  rw [firstAccepted, h, List.drop_left]
  simp

/-- The session after a send that took `k` bytes, not all that was left. -/
def afterPart (s : TcpSession) (q : Segment) (rest : List Segment) (data : Bytes) (k : Nat) (hle : k ≤ q.len - q.sent) :
    TcpSession :=
  { afterSend s q rest data k k hle with forward := q.advance k hle :: rest }

section Event

variable (hf : s.forward = q :: rest) (ho : 0 ≤ s.socket) (hpos : q.pos = s.remoteSeq) (hok : SendsOk s q e)

include hf hpos hok in
/-- Where the rewriting kills the process. -/
theorem forwardData_fault (hoffer : offer s.dest q (e.heap 0) = none) :
    ¬(forwardData s e).1.forward.length < s.forward.length ∧ (forwardData s e).2 = none := by
  rw [forwardData, hf, forwardLoop_fault ⟨hpos, hok.left_lt⟩ hoffer]
  simp

variable (hoffer : offer s.dest q (e.heap 0) = some data) (hret : (e.send 0 data).ret = k)

include hf ho hpos hok hoffer hret in
/-- The socket takes what is left of the segment, or more. -/
theorem forwardData_whole (hk : q.len - q.sent ≤ k) :
    (forwardData s e).1.forward.length < s.forward.length ∧
      firstAccepted s.io (forwardData s e).1.io = data.take k := by
  have hlt := (e.send 0 data).ret_lt
  have hret' : onSocket s.socket (e.send 0 data).ret = k := by rw [onSocket_of_nonneg ho, hret]
  have hn : clampSent (onSocket s.socket (e.send 0 data).ret) (q.len - q.sent) = (q.len - q.sent : Nat) := by
    rw [hret', clampSent_natCast (by omega), Nat.min_eq_right hk]
  have hall : q.len = q.sent + (q.len - q.sent) := by
    have := q.sent_le
    omega
  rw [forwardData, hf, forwardLoop_send ⟨hpos, hok.left_lt⟩ hoffer hn (Nat.le_refl _), if_pos hall, hret']
  refine ⟨Nat.lt_succ_of_le (forwardLoop_length e rest _ _ _ _), ?_⟩
  obtain ⟨calls, hcalls⟩ := forwardLoop_io e rest (0 + 1)
    (BitVec.ofNat 32 (getReceiveBuffer s e.fwdBuf) - BitVec.ofInt 32 (q.len - q.sent : Nat)) true
    (afterSend s q rest data k (q.len - q.sent) (Nat.le_refl _))
  rw [firstAccepted_cons (.send data k) calls (by rw [hcalls]; simp [afterSend])]
  simp [Io.accepted]

include hf ho hpos hok hoffer hret in
/-- The socket takes less than what is left. -/
theorem forwardData_part (hk : k < q.len - q.sent) :
    forwardData s e = (afterPart s q rest data k hk.le, some true) := by
  have hlt := (e.send 0 data).ret_lt
  have hret' : onSocket s.socket (e.send 0 data).ret = k := by rw [onSocket_of_nonneg ho, hret]
  have hn : clampSent (onSocket s.socket (e.send 0 data).ret) (q.len - q.sent) = (k : Nat) := by
    rw [hret', clampSent_natCast (by omega), Nat.min_eq_left hk.le]
  rw [forwardData, hf, forwardLoop_send ⟨hpos, hok.left_lt⟩ hoffer hn hk.le, if_neg (by omega), hret']
  rfl

include hf ho hpos hok hoffer hret in
theorem takenOf_whole (es : List SocketEnv) (hk : q.len - q.sent ≤ k) :
    takenOf s (e :: es) = if es = [] then some (data.take k) else none := by
  obtain ⟨hlen, hfirst⟩ := forwardData_whole hf ho hpos hok hoffer hret hk
  rw [takenOf]
  simp only [hlen, ↓reduceIte, hfirst]

include hf ho hpos hok hoffer hret in
theorem takenOf_part (es : List SocketEnv) (hk : k < q.len - q.sent) :
    takenOf s (e :: es) = (takenOf (afterPart s q rest data k hk.le) es).map (data.take k ++ ·) := by
  have hpart := forwardData_part hf ho hpos hok hoffer hret hk
  have hfirst : firstAccepted s.io (s.io ++ [.send data k]) = data.take k := by
    rw [firstAccepted_cons (.send data k) [] rfl]
    simp [Io.accepted]
  rw [takenOf]
  have hlen : ¬(afterPart s q rest data k hk.le).forward.length < s.forward.length := by simp [afterPart, hf]
  have hio : (afterPart s q rest data k hk.le).io = s.io ++ [.send data k] := rfl
  simp only [hpart, hlen, ↓reduceIte, reduceCtorEq, hio, hfirst]

end Event

/-! ## One segment -/

theorem Segment.advance_rest {hle : n ≤ q.len - q.sent} : (q.advance n hle).rest = q.rest.drop n := by
  simp only [Segment.rest, Segment.advance, List.drop_take, List.drop_drop]
  congr 1
  omega

theorem Segment.offered_length (q : Segment) (m : Nat) (heap : Nat → UInt8) :
    q.len - m ≤ (q.offered m heap).length := by
  have hle := q.len_le
  unfold Segment.offered
  split
  · rename_i data hp
    exact (q.patchFrom_length hp).1.le
  · rw [List.length_take, List.length_drop]
    omega

/-- Where the process does not die, the rest is offered as `Segment.offered` says. -/
theorem offer_offered (hd : s.dest = 80) (h : q.patchFrom q.sent heap ≠ .fault) :
    offer s.dest q heap = some (q.offered q.sent heap) := by
  rw [offer_port80 q heap hd, Segment.offered]
  cases hp : q.patchFrom q.sent heap with
  | fault => exact absurd hp h
  | none => rfl
  | some data => rfl

theorem append_eq_drop_iff {first rest target : Bytes} :
    first ++ rest = target.drop m ↔ first <+: target.drop m ∧ rest = target.drop (m + first.length) := by
  constructor
  · intro h
    refine ⟨h ▸ List.prefix_append .., ?_⟩
    rw [← List.drop_drop, ← h, List.drop_left]
  · rintro ⟨hpre, rfl⟩
    rw [← List.drop_drop]
    exact List.prefix_append_drop hpre |>.symm

/-- The bytes taken are what is left of `target` exactly where each `send` takes what is next of it. The induction is on
the events, and `q'` is the segment as far as it was sent. -/
theorem takenOf_agrees {q' : Segment} (hd : s.dest = 80) (ho : 0 ≤ s.socket) (hf : s.forward = q' :: rest)
    (hpos : q'.pos = s.remoteSeq) (hdata : q'.data = q.data) (hlen : q'.len = q.len)
    (hok : ∀ e ∈ es, SendsOk s q' e) (ht : takenOf s es = some taken) (target : Bytes) :
    taken = target.drop q'.sent ↔ q.Agrees target q'.sent es := by
  induction es generalizing s q' taken with
  | nil => cases ht
  | cons e es ih =>
      have hok₁ := hok e (by simp)
      have hpatch (m : Nat) : q'.patchFrom m (e.heap 0) = q.patchFrom m (e.heap 0) := by
        rw [Segment.patchFrom, Segment.patchFrom, hdata, hlen]
      have hoffered : q'.offered q'.sent (e.heap 0) = q.offered q'.sent (e.heap 0) := by
        rw [Segment.offered, Segment.offered, hpatch, hdata, hlen]
      by_cases hfault : q'.patchFrom q'.sent (e.heap 0) = .fault
      · have hoffer := offer_port80 q' (e.heap 0) hd
        rw [hfault] at hoffer
        obtain ⟨hshort, hnone⟩ := forwardData_fault hf hpos hok₁ hoffer
        rw [takenOf] at ht
        simp only [hshort, ↓reduceIte, hnone] at ht
        cases ht
      · have hoffer := offer_offered hd hfault
        obtain ⟨k, hret⟩ := Int.eq_ofNat_of_zero_le (hok₁.ret (q'.offered q'.sent (e.heap 0))).1
        have htakes : q.takes q'.sent e = (q'.offered q'.sent (e.heap 0)).take k := by
          rw [Segment.takes, ← hoffered, hret, Int.toNat_natCast]
        by_cases hk : q'.len - q'.sent ≤ k
        · -- the segment leaves the queue, so this is the last event
          rw [takenOf_whole hf ho hpos hok₁ hoffer hret es hk] at ht
          split at ht
          · rename_i hes
            rw [Segment.Agrees, if_pos hes, htakes, Option.some.inj ht]
          · cases ht
        · have hk : k < q'.len - q'.sent := by omega
          have hlength : ((q'.offered q'.sent (e.heap 0)).take k).length = k := by
            rw [List.length_take]
            have := q'.offered_length q'.sent (e.heap 0)
            omega
          rw [takenOf_part hf ho hpos hok₁ hoffer hret es hk, Option.map_eq_some_iff] at ht
          obtain ⟨taken', ht', rfl⟩ := ht
          have hne : es ≠ [] := by
            rintro rfl
            cases ht'
          have htail := @ih (afterPart s q' rest (q'.offered q'.sent (e.heap 0)) k hk.le) taken' (q'.advance k hk.le)
            hd ho rfl rfl hdata hlen (fun e' he' => ⟨(hok e' (by simp [he'])).room, (hok e' (by simp [he'])).ret⟩) ht'
          rw [append_eq_drop_iff, Segment.Agrees, if_neg hne, htakes, hlength]
          exact and_congr_right fun _ => htail

/-! ## A segment with nothing to rewrite -/

theorem Segment.Plain.patchFrom (h : q.Plain) : q.patchFrom m heap ≠ .some data := by
  by_cases hm : m < q.len
  · exact h m hm heap data
  · rw [Segment.patchFrom, show q.len - m = 0 by omega, patchHttpUrl_zero]
    simp

theorem takenOf_plain (hd : s.dest = 80) (ho : 0 ≤ s.socket) (hf : s.forward = q :: rest) (hpos : q.pos = s.remoteSeq)
    (hplain : q.Plain) (hok : ∀ e ∈ es, SendsOk s q e) (ht : takenOf s es = some taken) : taken = q.rest := by
  induction es generalizing s q taken with
  | nil => cases ht
  | cons e es ih =>
      have hok₁ := hok e (by simp)
      obtain ⟨k, hret⟩ := Int.eq_ofNat_of_zero_le (hok₁.ret q.rest).1
      have hoffer := offer_port80 q (e.heap 0) hd
      cases hp : q.patchFrom q.sent (e.heap 0) with
      | some data => exact absurd hp hplain.patchFrom
      | fault =>
          rw [hp] at hoffer
          obtain ⟨hlen, hfault⟩ := forwardData_fault hf hpos hok₁ hoffer
          rw [takenOf] at ht
          simp only [hlen, ↓reduceIte, hfault] at ht
          cases ht
      | none =>
          rw [hp] at hoffer
          -- `send` cannot take more than the rest
          have hle : k ≤ q.rest.length := by
            have := (hok₁.ret q.rest).2
            omega
          by_cases hk : q.len - q.sent ≤ k
          · rw [takenOf_whole hf ho hpos hok₁ hoffer hret es hk] at ht
            split at ht
            · rw [← Option.some.inj ht, List.take_of_length_le (by rw [q.rest_length]; exact hk)]
            · cases ht
          · have hk : k < q.len - q.sent := by omega
            rw [takenOf_part hf ho hpos hok₁ hoffer hret es hk, Option.map_eq_some_iff] at ht
            obtain ⟨taken', ht', rfl⟩ := ht
            have htail := ih (s := afterPart s q rest q.rest k hk.le) (q := q.advance k hk.le) hd ho rfl rfl hplain
              (fun e' he' => ⟨(hok e' (by simp [he'])).room, (hok e' (by simp [he'])).ret⟩) ht'
            rw [htail, Segment.advance_rest, List.take_append_drop]

theorem Segment.Plain.patched (h : q.Plain) (hs : q.sent = 0) : q.patched heap = q.rest := by
  unfold Segment.patched
  split
  · rename_i data hp
    exact absurd hp h.patchFrom
  · rw [Segment.rest, hs, List.drop_zero, Nat.sub_zero]

/-! ## A segment with something to rewrite -/

/-- An event in which `send` takes `k` bytes of what it is given at most. -/
def sendAtMost (heap : Nat → UInt8) (k : Nat) (h : k < 2 ^ 20) : SocketEnv :=
  { ev := ⟨false, false, true⟩
    fwdBuf := ⟨262144, 0⟩
    send := fun _ data => { ret := (min data.length k : Nat), errno := .other, ret_ge := by omega, ret_lt := by omega }
    heap := fun _ => heap }

theorem sendAtMost_ok {h : k < 2 ^ 20} (ho : 0 ≤ s.socket) : SendsOk s q (sendAtMost heap k h) := by
  refine ⟨?_, fun data => ?_⟩
  · have hbuf : getReceiveBuffer s (sendAtMost heap k h).fwdBuf = 131072 := by
      rw [getReceiveBuffer, if_neg (by omega)]
      simp [sendAtMost]
    have hlen := q.len_lt
    rw [hbuf]
    refine BitVec.lt_def.2 ?_
    simp only [BitVec.toNat_ofNat]
    omega
  · simp only [sendAtMost]
    omega

theorem sendAtMost_ret {h : k < 2 ^ 20} : ((sendAtMost heap k h).send 0 data).ret = (min data.length k : Nat) := rfl

/-- Where the segment is rewritten, an event in which as many bytes are taken as it was long loses the rest. -/
theorem takenOf_rewritten (hd : s.dest = 80) (ho : 0 ≤ s.socket) (hf : s.forward = q :: rest) (hs : q.sent = 0)
    (hpos : q.pos = s.remoteSeq) (hp : q.patchFrom 0 heap = .some data) :
    ∃ e, SendsOk s q e ∧ e.heap 0 = heap ∧ ∃ taken, takenOf s [e] = some taken ∧ taken.length < data.length := by
  have hlen := q.patchFrom_length hp
  have hlt := q.len_lt
  have hoffer := offer_port80 q heap hd
  rw [hs, hp] at hoffer
  refine ⟨sendAtMost heap q.len (by omega), sendAtMost_ok ho, rfl, data.take q.len, ?_, ?_⟩
  · rw [takenOf_whole (e := sendAtMost heap q.len (by omega)) hf ho hpos (sendAtMost_ok ho) hoffer sendAtMost_ret
      [] (by omega), if_pos rfl, Nat.min_eq_right (by omega)]
  · rw [List.length_take]
    omega

/-- Where only a later rest is rewritten, a send that stops before it makes the server get more than the segment. -/
theorem takenOf_rewritten_later {heap₀ : Nat → UInt8} (hd : s.dest = 80) (ho : 0 ≤ s.socket)
    (hf : s.forward = q :: rest)
    (hs : q.sent = 0) (hpos : q.pos = s.remoteSeq) (h₀ : q.patchFrom 0 heap₀ = .none) (hm : m < q.len)
    (hp : q.patchFrom m heap = .some data) :
    ∃ e₁ e₂, SendsOk s q e₁ ∧ SendsOk s q e₂ ∧ e₁.heap 0 = heap₀ ∧
      ∃ taken, takenOf s [e₁, e₂] = some taken ∧ q.len < taken.length := by
  have hlen := q.patchFrom_length hp
  have hlt := q.len_lt
  have hrest := q.rest_length
  have hoffer₁ := offer_port80 q heap₀ hd
  rw [hs, h₀] at hoffer₁
  have hk : min q.rest.length m < q.len - q.sent := by omega
  have hmin : min q.rest.length m = m := by omega
  -- the session after the first event, which took `m` bytes
  have h₁ := takenOf_part (e := sendAtMost heap₀ m (by omega)) hf ho hpos (sendAtMost_ok ho) hoffer₁ sendAtMost_ret
    [sendAtMost heap (2 ^ 20 - 1) (by omega)] hk
  generalize hs₁ : afterPart s q rest q.rest _ hk.le = s₁ at h₁
  have hd₁ : s₁.dest = 80 := by rw [← hs₁]; exact hd
  have ho₁ : 0 ≤ s₁.socket := by rw [← hs₁]; exact ho
  have hf₁ : s₁.forward = q.advance _ hk.le :: rest := by rw [← hs₁]; rfl
  have hpos₁ : (q.advance _ hk.le).pos = s₁.remoteSeq := by rw [← hs₁]; rfl
  have hp₁ : (q.advance _ hk.le).patchFrom (q.advance _ hk.le).sent heap = .some data := by
    simp only [Segment.advance, hs, Nat.zero_add, hmin]
    exact hp
  have hoffer₂ := offer_port80 (q.advance _ hk.le) heap hd₁
  rw [hp₁] at hoffer₂
  have h₂ := takenOf_whole (e := sendAtMost heap (2 ^ 20 - 1) (by omega)) hf₁ ho₁ hpos₁ (sendAtMost_ok ho₁)
    hoffer₂ sendAtMost_ret [] (by simp only [Segment.advance]; omega)
  rw [if_pos rfl] at h₂
  refine ⟨_, _, sendAtMost_ok ho, sendAtMost_ok ho, rfl, _, h₁.trans (by rw [h₂]; rfl), ?_⟩
  simp only [List.length_append, List.length_take]
  omega

/-! ## Exactly these -/

/-- A session to port 80 with the bytes `data` in the queue. -/
def sampleQueued (data : Bytes) (h : data.length < 2 ^ 16) : TcpSession :=
  List.foldl tcpStep (sampleSession 80)
    [.socket { ev := ⟨false, false, true⟩ }, .packet (samplePkt 80 1001 1 []) {},
      .packet (samplePkt 80 1001 1 data h) {}]

def sampleRequest : Bytes := ascii "GET /\r\nHost: a\r\n\r\n"

/-- The segments that survive every division into calls: whatever `send` takes at each event, the socket gets the
rewritten segment, exactly where there is nothing to rewrite in the segment and in any rest of it (or where the process
dies at the first send, whatever lies behind the segment). -/
theorem patched_iff_plain (hd : s.dest = 80) (ho : 0 ≤ s.socket) (hf : s.forward = q :: rest) (hs : q.sent = 0)
    (hpos : q.pos = s.remoteSeq) :
    (∀ e es taken, (∀ e' ∈ e :: es, SendsOk s q e') → takenOf s (e :: es) = some taken → taken = q.patched (e.heap 0)) ↔
      ((∃ heap, q.patchFrom 0 heap ≠ .fault) → q.Plain) := by
  constructor
  · rintro h ⟨heap₀, h₀⟩ m hm heap data hp
    -- the segment itself is not rewritten
    have hwhole : ∀ heap data, q.patchFrom 0 heap ≠ .some data := by
      intro heap data hp
      obtain ⟨e, hok, hheap, taken, ht, hlt⟩ := takenOf_rewritten hd ho hf hs hpos hp
      have heq := h e [] taken (by simpa using hok) ht
      rw [hheap, Segment.patched, hp] at heq
      rw [heq] at hlt
      exact absurd hlt (lt_irrefl _)
    have hnone : q.patchFrom 0 heap₀ = .none := by
      cases hq : q.patchFrom 0 heap₀ with
      | none => rfl
      | some data => exact absurd hq (hwhole heap₀ data)
      | fault => exact absurd hq h₀
    obtain ⟨e₁, e₂, hok₁, hok₂, hheap, taken, ht, hlt⟩ := takenOf_rewritten_later hd ho hf hs hpos hnone hm hp
    have heq := h e₁ [e₂] taken (by simp [hok₁, hok₂]) ht
    rw [hheap, Segment.patched, hnone] at heq
    rw [heq, List.length_take] at hlt
    omega
  · intro hplain e es taken hok ht
    by_cases h₀ : ∃ heap, q.patchFrom 0 heap ≠ .fault
    · rw [(hplain h₀).patched hs]
      exact takenOf_plain hd ho hf hpos (hplain h₀) hok ht
    · -- the first event kills the process
      push Not at h₀
      have hoffer := offer_port80 q (e.heap 0) hd
      rw [hs, h₀] at hoffer
      obtain ⟨hlen, hfault⟩ := forwardData_fault hf hpos (hok e (by simp)) hoffer
      rw [takenOf] at ht
      simp only [hlen, ↓reduceIte, hfault] at ht
      cases ht

end TunProxy.Native
