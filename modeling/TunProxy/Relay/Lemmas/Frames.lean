import TunProxy.Relay.Lemmas.Callbacks

/-!
# What the methods leave alone

Class, received bytes and disposal of the two tunnels, where a method throws as well.
-/

namespace TunProxy.Relay

open Lib
open Native (Bytes)

variable {w : Pair} {t u : Side} {b : ByteBuffer} {e : CallbackEnv} {f : Tunnel → Tunnel} {returns : List (Option Nat)}
  {copy : Bool}

/-- What only the reading of an answer, the reading of data and `dispose` change. -/
def Pair.facts (w : Pair) (t : Side) : Kind × Bytes × Bool :=
  ((w.tunnel t).kind, (w.tunnel t).received, (w.tunnel t).disposed)

theorem facts_update (h : ∀ u, ((f u).kind, (f u).received, (f u).disposed) = (u.kind, u.received, u.disposed)) :
    (w.update t f).facts = w.facts := by
  funext u
  rcases Side.eq_or_brother t u with rfl | rfl
  · simp [Pair.facts, h]
  · simp [Pair.facts]

theorem register_keeps {ops : Ops} : Keeps Pair.facts (register t ops) :=
  .bind .get fun _ => .ite (fun _ => .throw) fun _ => .modify fun _ => facts_update fun _ => rfl

theorem cancel_keeps : Keeps Pair.facts (cancel t) := .modify fun _ => facts_update fun _ => rfl

theorem onTunnelEstablished_keeps : Keeps Pair.facts (onTunnelEstablished t) :=
  .bind register_keeps fun _ => register_keeps

theorem writeLoop_keeps : Keeps Pair.facts (writeLoop t returns b) := by
  induction returns generalizing b with
  | nil => exact .pure
  | cons n returns ih =>
      unfold writeLoop
      refine .ite (fun _ => ?_) fun _ => .pure
      cases n with
      | none => exact .throw
      | some n => exact .ite (fun _ => .pure) fun _ => .bind (.modify fun _ => facts_update fun _ => rfl) fun _ => ih

theorem write_keeps : Keeps Pair.facts (write t b copy returns) := by
  refine .bind writeLoop_keeps fun b => .ite
    (fun _ => .ite (fun _ => .bind .get fun w => ?_) fun _ => .pure) fun _ => .pure
  cases copyRemain (w.tunnel t).remain b with
  | none => exact .throw
  | some r =>
      exact .bind (.modify fun _ => facts_update fun _ => rfl) fun _ => .bind register_keeps fun _ => .pure

theorem trySendPartOfHeader_keeps : Keeps Pair.facts (trySendPartOfHeader t b returns) := by
  refine .ite (fun _ => ?_) fun _ => .pure
  cases b.setLimit (b.position + 10) with
  | none => exact .throw
  | some part =>
      refine .bind write_keeps fun x => ?_
      obtain ⟨part, -⟩ := x
      simp only []
      cases part.setLimit b.limit with
      | none => exact .throw
      | some b => exact .pure

theorem beforeSend_keeps : Keeps Pair.facts (beforeSend t b e) := by
  refine .bind .get fun w => ?_
  cases (w.tunnel t).kind with
  | raw => exact .pure
  | httpConnect established => exact .ite (fun _ => trySendPartOfHeader_keeps) fun _ => .pure

theorem onConnected_keeps : Keeps Pair.facts (onConnected t e) := by
  refine .bind .get fun w => ?_
  cases (w.tunnel t).kind with
  | raw => exact onTunnelEstablished_keeps
  | httpConnect established =>
      simp only []
      cases w.buffer.clear.put (connectRequest e.connect) with
      | none => exact .throw
      | some buffer =>
          refine .bind (.modify fun w => ?_) fun _ => .bind write_keeps fun x => ?_
          · exact facts_update (w := w) (t := t)
              (f := fun u => { u with request := connectRequest e.connect }) fun _ => rfl
          · exact .ite (fun _ => register_keeps) fun _ => .pure

theorem afterReceived_eq (he : (w.tunnel t).isTunnelEstablished = true) : afterReceived t b w = .ok b w := by
  have hget : (get : Method Pair) w = .ok w w := rfl
  refine (bind_of_ok hget).trans ?_
  cases hkind : (w.tunnel t).kind with
  | raw => rfl
  | httpConnect established =>
      cases established with
      | true => rfl
      | false => simp [Tunnel.isTunnelEstablished, hkind] at he

theorem forward_facts (he : (w.tunnel t).isTunnelEstablished = true) : (final (forward t b e) w).facts = w.facts := by
  unfold forward
  rw [final_bind (afterReceived_eq he)]
  refine Keeps.bind .get (fun w' => .ite (fun _ => ?_) fun _ => .pure) w
  refine .bind beforeSend_keeps fun b => .bind write_keeps fun x => ?_
  exact .ite (fun _ => .pure) fun _ => cancel_keeps

theorem writable_keeps : Keeps Pair.facts (writable t e) := by
  refine .bind .get fun w => ?_
  cases (w.tunnel t).remain with
  | none => exact .throw
  | some b =>
      refine .bind beforeSend_keeps fun b => .bind write_keeps fun x => .bind
        (.modify fun _ => facts_update fun _ => rfl) ?_
      refine fun _ => .ite (fun _ => .bind cancel_keeps fun _ => .bind .get fun w => ?_) fun _ => .pure
      exact .ite (fun _ => register_keeps) fun _ => register_keeps

/-! ## Disposal -/

/-- The pair is disposed: no key is valid any more. -/
def Pair.Dead (w : Pair) : Prop := ∀ t, (w.tunnel t).key.isValid = false

theorem Key.cancel_invalid {key : Key} : key.cancel.isValid = false := by cases key <;> rfl

theorem dispose_dead (hl : w.Live) : (w.dispose t).Dead := by
  intro u
  rcases Side.eq_or_brother t u with rfl | rfl
  · simp [Pair.dispose, Tunnel.disposeInternal, hl _, Key.cancel_invalid]
  · simp [Pair.dispose, Tunnel.disposeInternal, hl _, Key.cancel_invalid]

/-- `dispose` changes neither the class nor what was read. -/
theorem dispose_facts (u : Side) :
    ((w.dispose t).tunnel u).kind = (w.tunnel u).kind ∧ ((w.dispose t).tunnel u).received = (w.tunnel u).received := by
  have hd : ∀ v : Tunnel, v.disposeInternal.kind = v.kind ∧ v.disposeInternal.received = v.received := by
    intro v
    unfold Tunnel.disposeInternal
    split <;> exact ⟨rfl, rfl⟩
  unfold Pair.dispose
  split
  · exact ⟨rfl, rfl⟩
  · rcases Side.eq_or_brother t u with rfl | rfl
    · simp [hd]
    · simp [hd]

/-- The flags `m_Disposed`. -/
def Pair.flags (w : Pair) (t : Side) : Bool := (w.tunnel t).disposed

theorem flags_of_facts {α : Type} {x : Method α} (h : Keeps Pair.facts x) : Keeps Pair.flags x := by
  intro w
  funext t
  exact congrArg (fun facts => facts.2.2) (congrFun (h w) t)

theorem flags_update (h : ∀ u, (f u).disposed = u.disposed) : (w.update t f).flags = w.flags := by
  funext u
  rcases Side.eq_or_brother t u with rfl | rfl
  · simp [Pair.flags, h]
  · simp [Pair.flags]

theorem Tunnel.receive_disposed {v : Tunnel} {bytes : Bytes} : (v.receive bytes).disposed = v.disposed := by
  unfold Tunnel.receive
  split <;> rfl

theorem afterReceived_flags : Keeps Pair.flags (afterReceived t b) := by
  refine .bind .get fun w => ?_
  cases (w.tunnel t).kind with
  | raw => exact .pure
  | httpConnect established =>
      cases established with
      | true => exact .pure
      | false =>
          refine .ite (fun _ => ?_) fun _ => .throw
          cases b.setLimit b.position with
          | none => exact .throw
          | some b =>
              refine .bind (.modify fun _ => flags_update fun _ => rfl) fun _ => .bind ?_ fun _ => .pure
              exact flags_of_facts onTunnelEstablished_keeps

theorem forward_flags : Keeps Pair.flags (forward t b e) := by
  refine .bind afterReceived_flags fun b => .bind .get fun w => .ite (fun _ => ?_) fun _ => .pure
  refine .bind (flags_of_facts beforeSend_keeps) fun b => .bind (flags_of_facts write_keeps) fun x => ?_
  exact .ite (fun _ => .pure) fun _ => flags_of_facts cancel_keeps

/-- A callback disposes the pair only where it says so, or in the handler. -/
theorem attempt_live_or_dead {x : Method Unit} (hl : w.Live)
    (h : (final x w).flags = w.flags ∨ x w = .ok () (w.dispose t)) :
    (attempt x (·.dispose t) w).Live ∨ (attempt x (·.dispose t) w).Dead := by
  rcases h with hflags | hok
  · have hfinal : (final x w).Live := fun u => (congrFun hflags u).trans (hl u)
    rcases attempt_final x (·.dispose t) w with heq | heq
    · rw [heq]
      exact .inl hfinal
    · rw [heq]
      exact .inr (dispose_dead hfinal)
  · rw [attempt, hok]
    exact .inr (dispose_dead hl)

theorem connectable_ends (w : Pair) :
    (final (connectable t e) w).flags = w.flags ∨ connectable t e w = .ok () (w.dispose t) := by
  unfold connectable
  cases e.finishConnect with
  | none => exact .inl rfl
  | some finished =>
      cases finished with
      | true => exact .inl (flags_of_facts onConnected_keeps w)
      | false => exact .inr rfl

theorem readable_ends (w : Pair) :
    (final (readable t e) w).flags = w.flags ∨ readable t e w = .ok () (w.dispose t) := by
  unfold readable
  cases e.read with
  | fail => exact .inl rfl
  | eof => exact .inr rfl
  | got bytes =>
      refine .inl (Keeps.bind .get (fun w' => ?_) w)
      simp only []
      cases w'.buffer.clear.put (bytes.take w'.buffer.clear.remaining) with
      | none => exact .throw
      | some buffer =>
          refine .bind (.modify fun w => ?_) fun _ => .ite (fun _ => forward_flags) fun _ => .pure
          exact flags_update (w := w) (t := t) (f := (·.receive _)) fun _ => Tunnel.receive_disposed

theorem dispatch_live_or_dead (hl : w.Live) : (w.dispatch e).Live ∨ (w.dispatch e).Dead := by
  unfold Pair.dispatch
  split
  · exact .inl hl
  · rename_i t ready selected _
    simp only []
    split
    · cases ready with
      | read => exact attempt_live_or_dead (w := { w with selected }) hl (readable_ends _)
      | write => exact attempt_live_or_dead (w := { w with selected }) hl (.inl (flags_of_facts writable_keeps _))
      | connect => exact attempt_live_or_dead (w := { w with selected }) hl (connectable_ends _)
    · exact .inl hl

end TunProxy.Relay
