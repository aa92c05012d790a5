import TunProxy.Relay.Lemmas.Frames
import TunProxy.Relay.Theorems.Integrity

/-!
# The answer to CONNECT

`afterReceived` decides on the first twelve bytes of the shared buffer at the first read, and throws the rest of that
read away. The outcome is right where the first read is the head of the answer.
-/

namespace TunProxy.Relay

open Lib
open Native (Bytes ascii)

variable {w w' w₁ : Pair} {t u : Side} {e : CallbackEnv} {op : Op} {ops ops₁ ops₂ : List Op}
    {selected : List (Side × Ops)}
  {array bytes first head tunnelled : Bytes}

/-- What a step reads from `t`. -/
def readOf (w : Pair) (t : Side) : Op → Bytes
  | .callback e =>
      match w.selected, e.read with
      | (u, .read) :: _, .got bytes =>
          if u = t ∧ (w.tunnel u).key.isValid = true then bytes.take w.buffer.capacity else []
      | _, _ => []
  | _ => []

/-- What a run reads from `t`. -/
def reads (t : Side) : (w : Pair) → List Op → Bytes
  | _, [] => []
  | w, op :: ops => readOf w t op ++ reads t (step w op) ops

/-- The status line says that the connection is made. -/
def StatusOk (head : Bytes) : Prop := head.take 12 = ascii "HTTP/1.0 200" ∨ head.take 12 = ascii "HTTP/1.1 200"

/-- What should come of an answer that begins with `head`, up to the empty line, and goes on with `tunnelled`, from the
callback `e` on that reads its first bytes, whatever happens later and however the stream is split: a positive answer is
waited for, and established once its head was read; no other one is; and exactly the bytes behind the head are
delivered. -/
structure Outcome (w : Pair) (e : CallbackEnv) (head tunnelled : Bytes) : Prop where
  waits : StatusOk head → (reads .remoteTunnel w [.callback e]).length < head.length → (step w (.callback e)).Live
  refused (ops : List Op) : reads .remoteTunnel w (.callback e :: ops) <+: head ++ tunnelled → ¬StatusOk head →
    (((Op.callback e :: ops).foldl step w).tunnel .remoteTunnel).isTunnelEstablished = false
  established (ops : List Op) : reads .remoteTunnel w (.callback e :: ops) <+: head ++ tunnelled → StatusOk head →
    head.length ≤ (reads .remoteTunnel w (.callback e :: ops)).length →
    (((Op.callback e :: ops).foldl step w).tunnel .remoteTunnel).isTunnelEstablished = true
  delivered (ops : List Op) : reads .remoteTunnel w (.callback e :: ops) <+: head ++ tunnelled →
    (((Op.callback e :: ops).foldl step w).tunnel .remoteTunnel).isTunnelEstablished = true →
    (((Op.callback e :: ops).foldl step w).tunnel .remoteTunnel).received =
      (reads .remoteTunnel w (.callback e :: ops)).drop head.length

/-- The first read of the answer, into a buffer with the bytes `array`, is the head where that is positive; otherwise
the first twelve bytes of the buffer are not taken for a positive answer. -/
structure Decides (head first array : Bytes) : Prop where
  positive : StatusOk head → first = head
  negative : ¬StatusOk head → isResponse ((first ++ array.drop first.length).take 12) = false

/-! ## Disposed pairs -/

theorem accepted_live {kind : Kind} : (accepted kind array).Live := by
  intro t
  cases t <;> rfl

theorem readOf_dead (h : w.Dead) : readOf w t op = [] := by
  cases op with
  | select ready => rfl
  | others bytes => rfl
  | callback e =>
      simp only [readOf]
      split
      · rw [if_neg (by simp [h _])]
      · rfl

/-- A disposed pair does nothing more. -/
theorem step_dead (h : w.Dead) (op : Op) : (step w op).Dead ∧
    ∀ u, ((step w op).tunnel u).kind = (w.tunnel u).kind ∧ ((step w op).tunnel u).received = (w.tunnel u).received := by
  cases op with
  | select ready =>
      simp only [step]
      split
      · refine ⟨fun u => select_invalid (h u), fun u => ?_⟩
        obtain ⟨key, hu⟩ := select_fields w ready u
        rw [hu]
        exact ⟨rfl, rfl⟩
      · exact ⟨h, fun _ => ⟨rfl, rfl⟩⟩
  | others bytes => exact ⟨h, fun _ => ⟨rfl, rfl⟩⟩
  | callback e =>
      simp only [step, Pair.dispatch]
      split
      · exact ⟨h, fun _ => ⟨rfl, rfl⟩⟩
      · simp only [h _, Bool.false_eq_true, ↓reduceIte]
        exact ⟨h, fun _ => ⟨trivial, trivial⟩⟩

theorem run_dead (h : w.Dead) (t : Side) (ops : List Op) : reads t w ops = [] ∧
    ∀ u, ((ops.foldl step w).tunnel u).kind = (w.tunnel u).kind ∧
      ((ops.foldl step w).tunnel u).received = (w.tunnel u).received := by
  induction ops generalizing w with
  | nil => exact ⟨rfl, fun _ => ⟨rfl, rfl⟩⟩
  | cons op ops ih =>
      obtain ⟨hdead, hsame⟩ := step_dead h op
      obtain ⟨hreads, hrest⟩ := ih hdead
      refine ⟨by rw [reads, readOf_dead h, hreads, List.nil_append], fun u => ?_⟩
      exact ⟨(hrest u).1.trans (hsame u).1, (hrest u).2.trans (hsame u).2⟩

theorem live_or_dead_of_run {kind : Kind} (h : Run step (fun _ _ => True) (accepted kind array) ops w) :
    w.Live ∨ w.Dead := by
  refine h.invariant' (I := fun w => w.Live ∨ w.Dead) (.inl accepted_live) fun w op hw _ => ?_
  rcases hw with hlive | hdead
  · cases op with
    | select ready =>
        simp only [step]
        split
        · refine .inl fun t => ?_
          obtain ⟨key, ht⟩ := select_fields w ready t
          rw [ht]
          exact hlive t
        · exact .inl hlive
    | others bytes => exact .inl hlive
    | callback e => exact dispatch_live_or_dead hlive
  · exact .inr (step_dead hdead op).1

/-! ## Established pairs -/

/-- What the two tunnels are and have read. -/
def Pair.seen (w : Pair) (t : Side) : Kind × Bytes := ((w.tunnel t).kind, (w.tunnel t).received)

theorem seen_of_facts (h : w'.facts = w.facts) : w'.seen = w.seen := by
  funext u
  have hu := congrFun h u
  simp only [Pair.facts, Prod.mk.injEq] at hu
  simp only [Pair.seen, hu.1, hu.2.1]

theorem seen_dispose : (w.dispose t).seen = w.seen := by
  funext u
  simp only [Pair.seen, dispose_facts u]

theorem attempt_seen {x : Method Unit} : (attempt x (·.dispose t) w).seen = (final x w).seen := by
  rcases attempt_final x (·.dispose t) w with h | h
  · rw [h]
  · rw [h, seen_dispose]

theorem put_clear (b : ByteBuffer) (bytes : Bytes) : ∃ b', b.clear.put (bytes.take b.clear.remaining) = some b' ∧
    b'.flip.array = bytes.take b.capacity ++ b.array.drop (bytes.take b.capacity).length ∧ b'.flip.position = 0 := by
  unfold ByteBuffer.put
  rw [dif_pos (List.length_take_le ..)]
  refine ⟨_, rfl, ?_, rfl⟩
  simp [ByteBuffer.flip, ByteBuffer.clear, ByteBuffer.capacity, ByteBuffer.remaining]

/-- Whatever comes of it, an established tunnel counts what it reads. -/
theorem onReadable_seen (he : (w.tunnel t).isTunnelEstablished = true) (hread : e.read = .got bytes) :
    (onReadable t e w).seen = fun u =>
      ((w.tunnel u).kind, if t = u
        then (w.tunnel u).received ++ bytes.take w.buffer.capacity else (w.tunnel u).received) := by
  obtain ⟨b, hput, -, -⟩ := put_clear w.buffer bytes
  have hw : (final (readable t e) w).seen = (w.read t (bytes.take w.buffer.capacity) b).seen := by
    unfold readable
    rw [hread]
    simp only []
    have hbytes : w.buffer.clear.remaining = w.buffer.capacity := rfl
    rw [hbytes] at hput
    rw [final_get]
    simp only [hbytes, hput]
    rw [final_modify]
    change (final _ (w.read t (bytes.take w.buffer.capacity) b)).seen = _
    split
    · refine seen_of_facts (forward_facts ?_)
      rw [Pair.read_same, Tunnel.receive_established he]
      exact he
    · rfl
  rw [onReadable, attempt_seen, hw]
  funext u
  rcases Side.eq_or_brother t u with rfl | rfl
  · simp [Pair.seen, Tunnel.receive_established he]
  · simp [Pair.seen]

theorem onReadable_none (hread : ∀ bytes, e.read ≠ .got bytes) : (onReadable t e w).seen = w.seen := by
  rw [onReadable, attempt_seen]
  unfold readable
  cases hr : e.read with
  | fail => rfl
  | eof => exact seen_dispose
  | got bytes => exact absurd hr (hread bytes)

theorem connectable_seen : (final (connectable t e) w).seen = w.seen := by
  unfold connectable
  cases e.finishConnect with
  | none => rfl
  | some finished =>
      cases finished with
      | true => exact seen_of_facts (onConnected_keeps w)
      | false => exact seen_dispose

theorem dispatch_seen (he : ∀ t, (w.tunnel t).isTunnelEstablished = true) (u : Side) :
    (w.dispatch e).seen u = ((w.tunnel u).kind, (w.tunnel u).received ++ readOf w u (.callback e)) := by
  unfold Pair.dispatch
  cases hs : w.selected with
  | nil => simp [Pair.seen, readOf, hs]
  | cons x selected =>
      obtain ⟨t, ready⟩ := x
      simp only []
      split
      · rename_i hv
        cases ready with
        | read =>
            cases hread : e.read with
            | got bytes =>
                rw [onReadable_seen (w := { w with selected }) (he t) hread]
                simp only [readOf, hs, hread]
                by_cases htu : t = u
                · simp [htu, htu ▸ hv]
                · simp [htu]
            | fail =>
                rw [onReadable_none (by simp [hread])]
                simp [Pair.seen, readOf, hs, hread]
            | eof =>
                rw [onReadable_none (by simp [hread])]
                simp [Pair.seen, readOf, hs, hread]
        | write =>
            have hw : (onWritable t e { w with selected }).seen = w.seen := by
              rw [onWritable, attempt_seen]
              exact seen_of_facts (writable_keeps { w with selected })
            simp only [hw]
            simp [Pair.seen, readOf, hs]
        | connect =>
            have hw : (onConnectable t e { w with selected }).seen = w.seen := by
              rw [onConnectable, attempt_seen]
              exact connectable_seen (w := { w with selected })
            simp only [hw]
            simp [Pair.seen, readOf, hs]
      · rename_i hv
        simp only [Pair.seen, readOf, hs]
        split
        · rename_i hcons _
          cases hcons
          rw [if_neg (fun h => hv h.2)]
          simp
        · simp

theorem step_seen (he : ∀ t, (w.tunnel t).isTunnelEstablished = true) (op : Op) (u : Side) :
    (step w op).seen u = ((w.tunnel u).kind, (w.tunnel u).received ++ readOf w u op) := by
  cases op with
  | select ready =>
      simp only [step]
      split
      · obtain ⟨key, hu⟩ := select_fields w ready u
        simp [Pair.seen, hu, readOf]
      · simp [Pair.seen, readOf]
  | others bytes => simp [step, Pair.seen, readOf]
  | callback e => exact dispatch_seen he u

/-- Once established, a pair stays so, and counts all that is read. -/
theorem run_seen (he : ∀ t, (w.tunnel t).isTunnelEstablished = true) (ops : List Op) :
    (∀ t, ((ops.foldl step w).tunnel t).isTunnelEstablished = true) ∧
      ∀ t, ((ops.foldl step w).tunnel t).received = (w.tunnel t).received ++ reads t w ops := by
  induction ops generalizing w with
  | nil => exact ⟨he, fun t => by simp [reads]⟩
  | cons op ops ih =>
      have hseen := step_seen he op
      have he' : ∀ t, ((step w op).tunnel t).isTunnelEstablished = true := by
        intro t
        have hkind : ((step w op).tunnel t).kind = (w.tunnel t).kind := congrArg Prod.fst (hseen t)
        rw [Tunnel.isTunnelEstablished, hkind]
        exact he t
      obtain ⟨hrest, hreceived⟩ := ih he'
      refine ⟨hrest, fun t => ?_⟩
      have hstep : ((step w op).tunnel t).received = (w.tunnel t).received ++ readOf w t op :=
        congrArg Prod.snd (hseen t)
      rw [List.foldl_cons, hreceived, hstep, reads, List.append_assoc]

/-! ## The decision -/

theorem register_eq {ops : Ops} (h : (w.tunnel t).key ≠ .cancelled) :
    register t ops w = .ok () (w.update t fun u => { u with key := .valid ops }) := by
  rw [register, bind_of_ok (show (get : Method Pair) w = .ok w w from rfl), if_neg h]
  rfl

theorem onTunnelEstablished_eq (ht : (w.tunnel t).key ≠ .cancelled) (hb : (w.tunnel t.brother).key ≠ .cancelled) :
    onTunnelEstablished t w = .ok ()
      ((w.update t fun u => { u with key := .valid .read }).update t.brother
        fun u => { u with key := .valid .read }) := by
  have hb' : ((w.update t fun u => { u with key := .valid .read }).tunnel t.brother).key ≠ .cancelled := by
    simpa using hb
  rw [onTunnelEstablished, beginReceive, bind_of_ok (register_eq ht)]
  exact register_eq hb'

/-- The pair after a positive answer. -/
def Pair.opened (w : Pair) (t : Side) : Pair :=
  (w.update t fun u => { u with kind := .httpConnect true, key := .valid .read }).update t.brother
    fun u => { u with key := .valid .read }

theorem afterReceived_eq_http {b : ByteBuffer} (hkind : (w.tunnel t).kind = .httpConnect false) :
    afterReceived t b w = (if isResponse ((b.array.drop b.position).take 12) then
      match b.setLimit b.position with
      | none => throw ()
      | some b => do
          modify (·.update t fun u => { u with kind := .httpConnect true })
          onTunnelEstablished t
          pure b
      else throw () : Method ByteBuffer) w := by
  have hget : (get : Method Pair) w = .ok w w := rfl
  exact (bind_of_ok hget).trans (hkind ▸ rfl)

theorem forward_positive {b : ByteBuffer} (hkind : (w.tunnel t).kind = .httpConnect false)
    (ht : (w.tunnel t).key ≠ .cancelled) (hb : (w.tunnel t.brother).key ≠ .cancelled)
    (hr : isResponse ((b.array.drop b.position).take 12) = true) : forward t b e w = .ok () (w.opened t) := by
  obtain ⟨b', hlimit⟩ : ∃ b', b.setLimit b.position = some b' := by
    exact ⟨_, dif_pos (Nat.le_trans b.position_le b.limit_le)⟩
  have hafter : afterReceived t b w = .ok b' (w.opened t) := by
    rw [afterReceived_eq_http hkind, if_pos hr, hlimit]
    simp only []
    rw [bind_of_ok (show (modify _ : Method PUnit) w = .ok () _ from rfl),
      bind_of_ok (onTunnelEstablished_eq (by simpa using ht) (by simpa using hb)), Pair.update_update]
    rfl
  have hnil : ¬b'.hasRemaining = true := by
    intro hrem
    have hrest := ByteBuffer.setLimit_rest (Nat.zero_le _) hlimit
    exact ByteBuffer.hasRemaining_iff.1 hrem (by simpa using hrest)
  rw [forward, bind_of_ok hafter, bind_of_ok (show (get : Method Pair) (w.opened t) = .ok _ _ from rfl),
    if_neg (fun h => hnil h.2)]
  rfl

theorem forward_negative {b : ByteBuffer} (hkind : (w.tunnel t).kind = .httpConnect false)
    (hr : isResponse ((b.array.drop b.position).take 12) = false) : forward t b e w = .error () w := by
  have hafter : afterReceived t b w = .error () w := by
    rw [afterReceived_eq_http hkind, if_neg (by simp [hr])]
    rfl
  rw [forward, bind_of_error hafter]

/-- The first bytes of the answer are read: the tunnel is established, or the pair is disposed. -/
theorem first_read (h : w.Waiting .read) (hl : w.Live) (hkind : (w.tunnel .remoteTunnel).kind = .httpConnect false)
    (hread : e.read = .got bytes) (hfirst : bytes.take w.buffer.capacity = first) (hne : first ≠ []) :
    if isResponse ((first ++ w.buffer.array.drop first.length).take 12) then
      ∃ buffer : ByteBuffer, 0 < buffer.capacity ∧
        onReadable .remoteTunnel e w = ({ w with buffer } : Pair).opened .remoteTunnel
    else
      (onReadable .remoteTunnel e w).Dead ∧ ¬(onReadable .remoteTunnel e w).Live ∧
        ((onReadable .remoteTunnel e w).tunnel .remoteTunnel).kind = .httpConnect false := by
  obtain ⟨b, hput, harray, hpos⟩ := put_clear w.buffer bytes
  have hbytes : w.buffer.clear.remaining = w.buffer.capacity := rfl
  rw [hbytes] at hput
  rw [hfirst] at hput harray
  have hresponse :
    (b.flip.array.drop b.flip.position).take 12 = (first ++ w.buffer.array.drop first.length).take 12 := by
    rw [harray, hpos, List.drop_zero]
  have hlen : first.length > 0 := List.length_pos_iff.2 hne
  have hreadable : readable .remoteTunnel e w = forward .remoteTunnel b.flip e { w with buffer := b } := by
    rw [readable, hread]
    simp only []
    rw [bind_of_ok (show (get : Method Pair) w = .ok w w from rfl)]
    simp only [hbytes, hfirst, hput]
    rw [bind_of_ok (show (modify _ : Method PUnit) w = .ok () _ from rfl), if_pos hlen]
    change forward .remoteTunnel b.flip e (w.read .remoteTunnel first b) = _
    rw [Pair.read_http hkind]
  split
  · rename_i hr
    rw [← hresponse] at hr
    have hcapacity : 0 < b.capacity := by
      have harray' : b.array = first ++ w.buffer.array.drop first.length := harray
      rw [ByteBuffer.capacity, harray', List.length_append]
      omega
    refine ⟨b, hcapacity, ?_⟩
    have hf := forward_positive (w := { w with buffer := b }) (e := e) hkind (by simp [h.key])
      (by simp [Side.brother, h.absent]) hr
    rw [onReadable, attempt, hreadable, hf]
  · rename_i hr
    rw [← hresponse] at hr
    have hf := forward_negative (w := { w with buffer := b }) (e := e) hkind (by simpa using hr)
    rw [onReadable, attempt, hreadable, hf]
    refine ⟨dispose_dead hl, Pair.dispose_not_live, ?_⟩
    rw [(dispose_facts _).1]
    exact hkind

/-- A positive status line is taken for a positive answer. -/
theorem isResponse_of_ok {rest : Bytes} (h : StatusOk head) : isResponse ((head ++ rest).take 12) = true := by
  have htake : (head.take 12).length = 12 := by rcases h with h | h <;> rw [h] <;> decide
  have hlen : 12 ≤ head.length := by
    rw [List.length_take] at htake
    omega
  rw [List.take_append_of_le_length hlen]
  rcases h with h | h <;> rw [h] <;> decide

theorem opened_established (buffer : ByteBuffer) (h : w.Waiting .read) (t : Side) :
    ((({ w with buffer } : Pair).opened .remoteTunnel).tunnel t).isTunnelEstablished = true := by
  cases t <;> simp [Pair.opened, Pair.update, Side.brother, Tunnel.isTunnelEstablished, h.raw]

theorem opened_received :
    ((w.opened .remoteTunnel).tunnel .remoteTunnel).received = (w.tunnel .remoteTunnel).received := by
  simp [Pair.opened, Pair.update, Side.brother]

/-- An established pair can read the next byte of the stream. -/
theorem reads_next {buffer : ByteBuffer} (hselected : w.selected = []) (hcapacity : 0 < buffer.capacity)
    (byte : UInt8) :
    reads .remoteTunnel (({ w with buffer } : Pair).opened .remoteTunnel)
      [.select [.remoteTunnel], .callback { read := .got [byte] }] = [byte] := by
  have htake : [byte].take buffer.capacity = [byte] := by
    refine List.take_of_length_le ?_
    rw [List.length_singleton]
    omega
  simp [reads, readOf, step, Pair.opened, Pair.update, Pair.select, Side.brother, hselected, Key.isValid, htake]

/-- The pair is established by the first read: the outcome is right where it was the head of a positive answer. -/
theorem outcome_opened {buffer : ByteBuffer} (hw : w₁.Waiting .read)
    (hreceived : (w₁.tunnel .remoteTunnel).received = []) (hselected : w₁.selected = [])
    (hcapacity : 0 < buffer.capacity) (hstep : step w (.callback e) = ({ w₁ with buffer } : Pair).opened .remoteTunnel)
    (hfirst : readOf w .remoteTunnel (.callback e) = first) (hstream : first <+: head ++ tunnelled) :
    Outcome w e head tunnelled ↔ StatusOk head ∧ first = head := by
  have hread (ops : List Op) : reads .remoteTunnel w (.callback e :: ops) =
      first ++ reads .remoteTunnel (({ w₁ with buffer } : Pair).opened .remoteTunnel) ops := by
    rw [reads, hfirst, hstep]
  have hrun (ops : List Op) := run_seen (opened_established buffer hw) ops
  have hfold (ops : List Op) : (Op.callback e :: ops).foldl step w =
      ops.foldl step (({ w₁ with buffer } : Pair).opened .remoteTunnel) := by rw [List.foldl_cons, hstep]
  have hdelivered (ops : List Op) : (((Op.callback e :: ops).foldl step w).tunnel .remoteTunnel).received =
      reads .remoteTunnel (({ w₁ with buffer } : Pair).opened .remoteTunnel) ops := by
    rw [hfold, (hrun ops).2, opened_received, hreceived, List.nil_append]
  have hest (ops : List Op) :
      (((Op.callback e :: ops).foldl step w).tunnel .remoteTunnel).isTunnelEstablished = true := by
    rw [hfold]
    exact (hrun ops).1 _
  constructor
  · intro h
    have hread₀ : reads .remoteTunnel w [.callback e] = first := by
      rw [hread, reads, List.append_nil]
    have hok : StatusOk head := by
      by_contra hno
      have hfalse := h.refused [] (by rwa [hread₀]) hno
      rw [hest] at hfalse
      cases hfalse
    refine ⟨hok, ?_⟩
    -- what the first read brought beyond the head is not delivered
    have hle : first.length ≤ head.length := by
      have hbehind := h.delivered [] (by rwa [hread₀]) (hest [])
      rw [hdelivered, hread₀, reads] at hbehind
      exact List.drop_eq_nil_iff.1 hbehind.symm
    have hpre : first <+: head := List.prefix_of_prefix_length_le hstream (List.prefix_append ..) hle
    refine hpre.eq_of_length (Nat.le_antisymm hle (Nat.not_lt.1 fun hlt => ?_))
    -- what it left of the head is
    obtain ⟨rest, rfl⟩ := hpre
    cases rest with
    | nil => simp at hlt
    | cons byte rest =>
        have hnext := hread [.select [.remoteTunnel], .callback { read := .got [byte] }]
        rw [reads_next hselected hcapacity byte] at hnext
        have hbehind := h.delivered [.select [.remoteTunnel], .callback { read := .got [byte] }]
          (by rw [hnext]; exact ⟨rest ++ tunnelled, by simp⟩) (hest _)
        rw [hdelivered, reads_next hselected hcapacity byte, hnext, List.drop_eq_nil_of_le (by simp)] at hbehind
        cases hbehind
  · rintro ⟨hok, rfl⟩
    refine ⟨fun _ hlt => ?_, fun ops _ hno => absurd hok hno, fun ops _ _ _ => hest ops, fun ops _ _ => ?_⟩
    · rw [hread, List.length_append] at hlt
      exact absurd hlt (by omega)
    · rw [hdelivered, hread, List.drop_left]

/-- The pair is disposed by the first read: the outcome is right where the answer is not a positive one. -/
theorem outcome_disposed (hdead : (step w (.callback e)).Dead) (hlive : ¬(step w (.callback e)).Live)
    (hkind : ((step w (.callback e)).tunnel .remoteTunnel).kind = .httpConnect false)
    (hfirst : readOf w .remoteTunnel (.callback e) = first) (hstream : first <+: head ++ tunnelled) :
    Outcome w e head tunnelled ↔ ¬StatusOk head := by
  have hnot (ops : List Op) :
      (((Op.callback e :: ops).foldl step w).tunnel .remoteTunnel).isTunnelEstablished = false := by
    rw [List.foldl_cons, Tunnel.isTunnelEstablished, ((run_dead hdead .remoteTunnel ops).2 _).1, hkind]
  have hread₀ : reads .remoteTunnel w [.callback e] = first := by
    rw [reads, hfirst, reads, List.append_nil]
  constructor
  · intro h hok
    by_cases hlt : first.length < head.length
    · exact hlive (h.waits hok (by rwa [hread₀]))
    · have htrue := h.established [] (by rwa [hread₀]) hok (by rw [hread₀]; omega)
      rw [hnot] at htrue
      cases htrue
  · intro hno
    refine ⟨fun hok => absurd hok hno, fun ops _ _ => hnot ops, fun ops _ hok => absurd hok hno, fun ops _ hest => ?_⟩
    rw [hnot] at hest
    cases hest

def sampleHead : Bytes := ascii "HTTP/1.1 200 OK\r\n\r\n"

/-- The pair when the request was sent and the answer begins to come. -/
def sampleAsked : Pair :=
  [Op.select [.remoteTunnel], .callback { writes := [some 1000] }, .select [.remoteTunnel]].foldl step
    (accepted (.httpConnect false) (List.replicate 200 0))

def sampleAnswer (bytes : Bytes) : CallbackEnv := { read := .got bytes, writes := [some 1000] }

theorem sampleAsked_run : Run step (fun _ _ => True) (accepted (.httpConnect false) (List.replicate 200 0))
    [.select [.remoteTunnel], .callback { writes := [some 1000] }, .select [.remoteTunnel]] sampleAsked :=
  Run.ofList step (accepted (.httpConnect false) (List.replicate 200 0)) _

end TunProxy.Relay
