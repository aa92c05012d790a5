import TunProxy.Relay.Lemmas.Returns

/-!
# How the callbacks return

What a callback has done where it did not dispose the pair.
-/

namespace TunProxy.Relay

open Lib
open Native (Bytes)

variable {w w' : Pair} {t u : Side} {b : ByteBuffer} {e : CallbackEnv} {f : Tunnel → Tunnel}
    {returns : List (Option Nat)}

/-- None of the two tunnels is disposed. -/
def Pair.Live (w : Pair) : Prop := ∀ t, (w.tunnel t).disposed = false

theorem Pair.dispose_not_live : ¬(w.dispose t).Live := by
  intro h
  have h := h t
  unfold Pair.dispose at h
  split at h
  · simp_all
  · rename_i hd
    simp [Tunnel.disposeInternal, hd] at h

/-- Where the pair is not disposed, the method has returned. -/
theorem attempt_live {x : Method Unit} (h : (attempt x (·.dispose t) w).Live) :
    x w = .ok () (attempt x (·.dispose t) w) := by
  unfold attempt at h ⊢
  split
  · rename_i hx
    rw [hx]
  · rename_i hx
    rw [hx] at h
    exact absurd h Pair.dispose_not_live

theorem beginReceive_ok {x : Unit} (h : beginReceive t w = .ok x w') :
    (w.tunnel t).key ≠ .cancelled ∧ w' = w.update t fun u => { u with key := .valid .read } := register_ok h

theorem onTunnelEstablished_ok {x : Unit} (h : onTunnelEstablished t w = .ok x w') :
    w' = (w.update t fun u => { u with key := .valid .read }).update t.brother
      fun u => { u with key := .valid .read } := by
  obtain ⟨_, w₁, h₁, h₂⟩ := bind_ok.1 h
  obtain ⟨-, rfl⟩ := beginReceive_ok h₁
  exact (beginReceive_ok h₂).2

/-! ## `onConnectable` -/

/-- The pair after the connection was made: the tunnel is established, or the request is sent, whole or in part. -/
inductive Connected (w : Pair) (t : Side) (request : Bytes) : Pair → Prop
  | raw (hkind : (w.tunnel t).kind = .raw) :
      Connected w t request
        ((w.update t fun u => { u with key := .valid .read }).update t.brother fun u => { u with key := .valid .read })
  | sent {established} (hkind : (w.tunnel t).kind = .httpConnect established) (buffer : ByteBuffer) :
      Connected w t request
        { w.update t fun u => { u with request, written := u.written ++ request, key := .valid .read } with buffer }
  | part {established} (hkind : (w.tunnel t).kind = .httpConnect established) (buffer r : ByteBuffer) (n : Nat)
      (hr : r.rest = request.drop n) :
      Connected w t request
        { w.update t fun u =>
            { u with request, written := u.written ++ request.take n, remain := some r, key := .valid .write }
          with buffer }

theorem onConnected_ok (h : onConnected t e w = .ok () w') : Connected w t (connectRequest e.connect) w' := by
  obtain ⟨w₁, w₂, hget, h⟩ := bind_ok.1 h
  obtain ⟨rfl, rfl⟩ := get_ok.1 hget
  cases hkind : (w.tunnel t).kind with
  | raw =>
      rw [hkind] at h
      rw [onTunnelEstablished_ok h]
      exact .raw hkind
  | httpConnect established =>
      rw [hkind] at h
      simp only [] at h
      generalize hput : w.buffer.clear.put _ = put at h
      cases put with
      | none => exact absurd h throw_ok
      | some buffer =>
          obtain ⟨_, w₃, hmod, h⟩ := bind_ok.1 h
          rw [← modify_ok.1 hmod] at h
          obtain ⟨x, w₄, hwrite, h⟩ := bind_ok.1 h
          have hrest := ByteBuffer.flip_put hput
          cases write_ok hwrite with
          | all =>
              obtain ⟨-, rfl⟩ := beginReceive_ok h
              rw [hrest]
              have hsent : Connected w t (connectRequest e.connect) _ := .sent hkind buffer
              simpa [Pair.wrote, Pair.update_update, Function.comp_def, Pair.update] using hsent
          | copied n hn b' r hr hkey =>
              obtain ⟨-, rfl⟩ := pure_ok.1 h
              rw [hrest] at hr
              rw [hrest]
              have hpart : Connected w t (connectRequest e.connect) _ := .part hkind buffer r n hr
              simpa [Pair.wrote, Pair.update_update, Function.comp_def, Pair.update] using hpart

theorem connectable_ok (h : connectable t e w = .ok () w') (hl : w'.Live) :
    Connected w t (connectRequest e.connect) w' := by
  unfold connectable at h
  cases hfinish : e.finishConnect with
  | none =>
      rw [hfinish] at h
      exact absurd h throw_ok
  | some finished =>
      rw [hfinish] at h
      cases finished with
      | false =>
          rw [← modify_ok.1 h] at hl
          exact absurd hl Pair.dispose_not_live
      | true => exact onConnected_ok h

/-! ## `onReadable` -/

/-- The pair after `t` forwarded the rest of `b` to its brother: all was written, or a part, and `t` is not read any
more. -/
inductive Forwarded (w : Pair) (t : Side) (b : ByteBuffer) : (all : Bool) → Pair → Prop
  | all : Forwarded w t b true (w.wrote t.brother b.rest)
  | part (n) (hn : n < b.remaining) (r : ByteBuffer) (hr : r.rest = b.rest.drop n)
      (hkey : (w.tunnel t.brother).key ≠ .cancelled) :
      Forwarded w t b false
        (((w.wrote t.brother (b.rest.take n)).update t.brother fun u =>
          { u with remain := some r, key := .valid .write }).update t fun u => { u with key := u.key.cancel })

theorem afterReceived_established {b' : ByteBuffer} (he : (w.tunnel t).isTunnelEstablished = true)
    (h : afterReceived t b w = .ok b' w') : b = b' ∧ w = w' := by
  obtain ⟨w₁, w₂, hget, h⟩ := bind_ok.1 h
  obtain ⟨rfl, rfl⟩ := get_ok.1 hget
  cases hkind : (w.tunnel t).kind with
  | raw =>
      rw [hkind] at h
      exact pure_ok.1 h
  | httpConnect established =>
      have htrue : established = true := by simpa [Tunnel.isTunnelEstablished, hkind] using he
      subst htrue
      rw [hkind] at h
      exact pure_ok.1 h

theorem afterReceived_handshake {b' : ByteBuffer} (hkind : (w.tunnel t).kind = .httpConnect false)
    (h : afterReceived t b w = .ok b' w') :
    isResponse ((b.array.drop b.position).take 12) = true ∧ b'.rest = [] ∧
      w' = (w.update t fun u => { u with kind := .httpConnect true, key := .valid .read }).update t.brother
        fun u => { u with key := .valid .read } := by
  obtain ⟨w₁, w₂, hget, h⟩ := bind_ok.1 h
  obtain ⟨rfl, rfl⟩ := get_ok.1 hget
  rw [hkind] at h
  simp only [] at h
  split at h
  · rename_i hresponse
    generalize hlimit : b.setLimit b.position = limit at h
    cases limit with
    | none => exact absurd h throw_ok
    | some b₁ =>
        obtain ⟨_, w₃, hmod, h⟩ := bind_ok.1 h
        obtain ⟨_, w₄, hest, h⟩ := bind_ok.1 h
        obtain ⟨rfl, rfl⟩ := pure_ok.1 h
        rw [← modify_ok.1 hmod] at hest
        refine ⟨hresponse, ?_, ?_⟩
        · simpa using ByteBuffer.setLimit_rest (Nat.zero_le _) hlimit
        · rw [onTunnelEstablished_ok hest, Pair.update_update]
          rfl
  · exact absurd h throw_ok

theorem forward_ok (he : (w.tunnel t).isTunnelEstablished = true) (hne : b.rest ≠ [])
    (h : forward t b e w = .ok () w') :
    Forwarded w t b (takesAll (w.tunnel t.brother) e b.rest) w' := by
  obtain ⟨b₁, w₁, hafter, h⟩ := bind_ok.1 h
  obtain ⟨rfl, rfl⟩ := afterReceived_established he hafter
  obtain ⟨w₂, w₃, hget, h⟩ := bind_ok.1 h
  obtain ⟨rfl, rfl⟩ := get_ok.1 hget
  rw [if_pos ⟨he, ByteBuffer.hasRemaining_iff.2 hne⟩] at h
  obtain ⟨b₂, w₄, hbefore, h⟩ := bind_ok.1 h
  obtain ⟨x, w₅, hwrite, h⟩ := bind_ok.1 h
  have hsent : x.2 = takesAll (w.tunnel t.brother) e b.rest := by
    rw [write_sent hwrite, beforeSend_remaining hbefore, takesAll, ByteBuffer.rest_length]
  rw [← hsent]
  cases (beforeSend_ok hbefore).write (write_ok hwrite) with
  | all =>
      obtain ⟨-, rfl⟩ := pure_ok.1 h
      exact .all
  | copied n hn b' r hr hkey =>
      rw [← modify_ok.1 h]
      exact .part n hn r hr hkey

/-- The proxy's answer establishes the tunnel, and nothing of it is forwarded. -/
theorem forward_handshake (hkind : (w.tunnel t).kind = .httpConnect false) (h : forward t b e w = .ok () w') :
    isResponse ((b.array.drop b.position).take 12) = true ∧
      w' = (w.update t fun u => { u with kind := .httpConnect true, key := .valid .read }).update t.brother
        fun u => { u with key := .valid .read } := by
  obtain ⟨b₁, w₁, hafter, h⟩ := bind_ok.1 h
  obtain ⟨hresponse, hb, rfl⟩ := afterReceived_handshake hkind hafter
  refine ⟨hresponse, ?_⟩
  obtain ⟨w₂, w₃, hget, h⟩ := bind_ok.1 h
  obtain ⟨rfl, rfl⟩ := get_ok.1 hget
  rw [if_neg] at h
  · exact (pure_ok.1 h).2.symm
  · rintro ⟨-, hrem⟩
    exact ByteBuffer.hasRemaining_iff.1 hrem hb

/-- What `readable` does where the pair stays: `bytes` were put into the buffer and given to `forward`. -/
theorem readable_ok (h : readable t e w = .ok () w') (hl : w'.Live) :
    ∃ bytes buffer, e.read = .got bytes ∧
      w.buffer.clear.put (bytes.take w.buffer.capacity) = some buffer ∧
      if bytes.take w.buffer.capacity = [] then
        w' = { w.update t (·.receive (bytes.take w.buffer.capacity)) with buffer }
      else
        forward t buffer.flip e { w.update t (·.receive (bytes.take w.buffer.capacity)) with buffer } = .ok () w' := by
  unfold readable at h
  cases hread : e.read with
  | fail =>
      rw [hread] at h
      exact absurd h throw_ok
  | eof =>
      rw [hread] at h
      rw [← modify_ok.1 h] at hl
      exact absurd hl Pair.dispose_not_live
  | got bytes =>
      rw [hread] at h
      obtain ⟨w₁, w₂, hget, h⟩ := bind_ok.1 h
      obtain ⟨rfl, rfl⟩ := get_ok.1 hget
      have hrem : w.buffer.clear.remaining = w.buffer.capacity := rfl
      simp only [hrem] at h
      generalize hput : w.buffer.clear.put _ = put at h
      cases put with
      | none => exact absurd h throw_ok
      | some buffer =>
          refine ⟨bytes, buffer, rfl, hput, ?_⟩
          obtain ⟨_, w₃, hmod, h⟩ := bind_ok.1 h
          rw [← modify_ok.1 hmod] at h
          split at h
          · rename_i hpos
            rw [if_neg (List.length_pos_iff.1 hpos)]
            exact h
          · rename_i hpos
            rw [if_pos (List.length_eq_zero_iff.1 (by omega))]
            exact (pure_ok.1 h).2.symm

/-! ## `onWritable` -/

/-- The pair after `t` wrote its remainder `b`: a part of it, or all, and then the brother is read again. -/
inductive Resumed (w : Pair) (t : Side) (b : ByteBuffer) : Pair → Prop
  | part (n) (hn : n < b.remaining) :
      Resumed w t b ((w.wrote t (b.rest.take n)).update t fun u => { u with remain := some (b.advance n) })
  | all (hkey : (w.tunnel t.brother).key ≠ .cancelled) (he : (w.tunnel t).isTunnelEstablished = true) :
      Resumed w t b
        (((w.wrote t b.rest).update t fun u =>
          { u with remain := some (b.advance b.remaining), key := u.key.cancel }).update t.brother
            fun u => { u with key := .valid .read })

theorem writable_ok (hv : (w.tunnel t).key.isValid = true) (h : writable t e w = .ok () w') :
    ∃ b, (w.tunnel t).remain = some b ∧ Resumed w t b w' := by
  obtain ⟨w₁, w₂, hget, h⟩ := bind_ok.1 h
  obtain ⟨rfl, rfl⟩ := get_ok.1 hget
  cases hremain : (w.tunnel t).remain with
  | none =>
      rw [hremain] at h
      exact absurd h throw_ok
  | some b =>
      refine ⟨b, rfl, ?_⟩
      rw [hremain] at h
      obtain ⟨b₁, w₃, hbefore, h⟩ := bind_ok.1 h
      obtain ⟨x, w₄, hwrite, h⟩ := bind_ok.1 h
      obtain ⟨_, w₅, hmod, h⟩ := bind_ok.1 h
      rw [← modify_ok.1 hmod] at h
      cases (beforeSend_ok hbefore).write (write_ok hwrite) with
      | part n hn =>
          obtain ⟨-, rfl⟩ := pure_ok.1 h
          exact .part n hn
      | all =>
          obtain ⟨_, w₆, hcancel, h⟩ := bind_ok.1 h
          rw [← modify_ok.1 hcancel] at h
          obtain ⟨w₇, w₈, hget, h⟩ := bind_ok.1 h
          obtain ⟨rfl, rfl⟩ := get_ok.1 hget
          rw [Pair.update_update] at h
          split at h
          · rename_i he
            obtain ⟨hkey, rfl⟩ := beginReceive_ok h
            refine .all ?_ ?_
            · simpa [Pair.wrote] using hkey
            · simpa [Pair.wrote, Tunnel.isTunnelEstablished] using he
          · -- the key that was cancelled cannot be registered
            have hkey := (beginReceive_ok h).1
            cases hk : (w.tunnel t).key <;> simp [Pair.wrote, hk, Key.isValid, Key.cancel] at hkey hv

/-! ## The next selected key -/

/-- The pair after `t` was read. -/
def Pair.read (w : Pair) (t : Side) (bytes : Bytes) (buffer : ByteBuffer) : Pair :=
  { w.update t (·.receive bytes) with buffer }

@[simp] theorem Pair.read_same {bytes : Bytes} {buffer : ByteBuffer} :
    (w.read t bytes buffer).tunnel t = (w.tunnel t).receive bytes := by
  simp [Pair.read]

@[simp] theorem Pair.read_brother {bytes : Bytes} {buffer : ByteBuffer} :
    (w.read t bytes buffer).tunnel t.brother = w.tunnel t.brother := by
  simp [Pair.read]

theorem Tunnel.receive_established {v : Tunnel} {bytes : Bytes} (h : v.isTunnelEstablished = true) :
    v.receive bytes = { v with received := v.received ++ bytes } := by
  rw [Tunnel.receive, if_pos h]

/-- A tunnel that is not established yet does not count what it reads. -/
theorem Pair.read_http {bytes : Bytes} {buffer : ByteBuffer} (h : (w.tunnel t).kind = .httpConnect false) :
    w.read t bytes buffer = { w with buffer } := by
  rw [Pair.read, Pair.update_id]
  simp [Tunnel.receive, Tunnel.isTunnelEstablished, h]

/-- What a callback can do where the pair stays: `w` is the pair without the selected key of `t`, which is handled. -/
inductive Dispatched (w : Pair) (t : Side) (e : CallbackEnv) : (ready : Ops) → Pair → Prop
  | skipped {ready : Ops} (hv : (w.tunnel t).key.isValid = false) : Dispatched w t e ready w
  | connected {w' : Pair} (hv : (w.tunnel t).key.isValid = true) (h : Connected w t (connectRequest e.connect) w') :
      Dispatched w t e .connect w'
  | nothing (hv : (w.tunnel t).key.isValid = true) (bytes : Bytes) (hread : e.read = .got bytes)
      (hnil : bytes.take w.buffer.capacity = []) (buffer : ByteBuffer) : Dispatched w t e .read (w.read t [] buffer)
  | forwarded {w' : Pair} (hv : (w.tunnel t).key.isValid = true) (he : (w.tunnel t).isTunnelEstablished = true)
      (bytes : Bytes) (hread : e.read = .got bytes) (buffer b : ByteBuffer) (hb : b.rest = bytes.take w.buffer.capacity)
      (hne : b.rest ≠ []) (h : Forwarded (w.read t b.rest buffer) t b (takesAll (w.tunnel t.brother) e b.rest) w') :
      Dispatched w t e .read w'
  | answered {w' : Pair} (hv : (w.tunnel t).key.isValid = true) (hkind : (w.tunnel t).kind = .httpConnect false)
      (buffer : ByteBuffer) (hb : buffer.flip.rest ≠ []) (h : forward t buffer.flip e { w with buffer } = .ok () w') :
      Dispatched w t e .read w'
  | resumed {w' : Pair} (hv : (w.tunnel t).key.isValid = true) (b : ByteBuffer) (hb : (w.tunnel t).remain = some b)
      (h : Resumed w t b w') : Dispatched w t e .write w'

theorem onReadable_live (hv : (w.tunnel t).key.isValid = true) (hl : (onReadable t e w).Live) :
    Dispatched w t e .read (onReadable t e w) := by
  obtain ⟨all, buffer, hread, hput, h⟩ := readable_ok (attempt_live hl) hl
  change Dispatched w t e .read (attempt (readable t e) (·.dispose t) w)
  generalize attempt (readable t e) (·.dispose t) w = w' at h
  generalize hbytes : all.take w.buffer.capacity = bytes at h hput
  have hrest := ByteBuffer.flip_put hput
  by_cases hnil : bytes = []
  · rw [if_pos hnil, hnil] at h
    rw [h]
    exact .nothing hv all hread (hbytes.trans hnil) buffer
  · rw [if_neg hnil] at h
    have hne : buffer.flip.rest ≠ [] := by
      rw [hrest]
      exact hnil
    change forward t buffer.flip e (w.read t bytes buffer) = .ok () w' at h
    by_cases he : (w.tunnel t).isTunnelEstablished = true
    · refine .forwarded hv he all hread buffer _ (hrest.trans hbytes.symm) hne ?_
      rw [hrest]
      have hf := forward_ok (w := w.read t bytes buffer) ?_ hne h
      · rwa [Pair.read_brother, hrest] at hf
      · rw [Pair.read_same, Tunnel.receive_established he]
        exact he
    · have hkind : (w.tunnel t).kind = .httpConnect false := by
        unfold Tunnel.isTunnelEstablished at he
        split at he
        · cases he rfl
        · simp_all
      rw [Pair.read_http hkind] at h
      exact .answered hv hkind buffer hne h

theorem dispatch_live {ready : Ops} {selected : List (Side × Ops)} (hs : w.selected = (t, ready) :: selected)
    (hl : (w.dispatch e).Live) : Dispatched { w with selected } t e ready (w.dispatch e) := by
  unfold Pair.dispatch at hl ⊢
  rw [hs] at hl ⊢
  simp only [] at hl ⊢
  by_cases hv : (w.tunnel t).key.isValid = true
  · rw [if_pos hv] at hl ⊢
    cases ready with
    | connect => exact .connected hv (connectable_ok (attempt_live hl) hl)
    | read => exact onReadable_live hv hl
    | write =>
        obtain ⟨b, hb, h⟩ := writable_ok (w := { w with selected }) hv (attempt_live hl)
        exact .resumed hv b hb h
  · rw [if_neg hv]
    exact .skipped (by simpa using hv)

/-- A callback never makes a disposed tunnel one that is not. -/
theorem Dispatched.disposed {ready : Ops} (h : Dispatched w t e ready w') (u : Side) :
    (w'.tunnel u).disposed = (w.tunnel u).disposed := by
  have hreceive : ∀ (v : Tunnel) (bytes : Bytes), (v.receive bytes).disposed = v.disposed := by
    intro v bytes
    unfold Tunnel.receive
    split <;> rfl
  rcases Side.eq_or_brother t u with rfl | rfl
  · cases h with
    | skipped hv => rfl
    | connected hv h => cases h <;> simp [Pair.update]
    | nothing hv bytes hread hnil buffer => simp [hreceive]
    | forwarded hv he bytes hread buffer b hb hne h =>
        generalize takesAll _ e b.rest = all at h
        cases h <;> simp [Pair.wrote, hreceive]
    | answered hv hkind buffer hb h =>
        obtain ⟨-, rfl⟩ := forward_handshake (w := { w with buffer }) hkind h
        simp
    | resumed hv b hb h => cases h <;> simp [Pair.wrote]
  · cases h with
    | skipped hv => rfl
    | connected hv h => cases h <;> simp [Pair.update]
    | nothing hv bytes hread hnil buffer => simp
    | forwarded hv he bytes hread buffer b hb hne h =>
        generalize takesAll _ e b.rest = all at h
        cases h <;> simp [Pair.wrote]
    | answered hv hkind buffer hb h =>
        obtain ⟨-, rfl⟩ := forward_handshake (w := { w with buffer }) hkind h
        simp
    | resumed hv b hb h => cases h <;> simp [Pair.wrote]

end TunProxy.Relay
