import TunProxy.Relay.Lives
import TunProxy.Relay.Objects

/-!
# What the methods do to the lives of the tunnels

Only the constructors, `setBrotherTunnel` and `dispose` change them.
-/

namespace TunProxy.Relay.Objects

open Lib
open Native (Bytes)

variable {α : Type} {t : Ref} {s : Heap} {f : Tunnel → Tunnel} {config : ProxyConfig} {e : Acceptance} {l : Lives}

def Tunnel.life (u : Tunnel) : Life where
  connected := u.innerChannel.isSome
  brother := u.brother
  disposed := u.disposed
  disposals := u.disposals

def Heap.lives (s : Heap) : Lives where
  objects := s.tunnels.map Tunnel.life
  count := s.sessionCount
  paired := s.paired

/-! ## The loop of `write` -/

/-! ## The methods that keep them -/

theorem map_modify {α β : Type} {g : α → β} {f : α → α} {h : β → β} {xs : List α} {i : Nat}
    (hf : ∀ x, g (f x) = h (g x)) :
    (xs.modify i f).map g = (xs.map g).modify i h := by
  induction xs generalizing i with
  | nil => simp
  | cons x xs ih =>
      cases i with
      | zero => simp [hf]
      | succ i => simp [ih]

section Blind

variable {τ : Type} {o : Heap → τ}

/-- What `o` says of the heap does not depend on the buffer and the answers, nor on what is not a life of the tunnel
`t`. -/
structure Blind (o : Heap → τ) (t : Ref) : Prop where
  update : ∀ f : Tunnel → Tunnel, (∀ u, (f u).life = u.life) → Keeps o (update t f)
  buffer : ∀ s b, o { s with buffer := b } = o s
  answers : ∀ s as, o { s with answers := as } = o s

theorem keeps_deref (x : Option α) : Keeps o (deref x) := by
  cases x with
  | none => exact .throw
  | some x => exact .pure

theorem keeps_this : Keeps o (this t) := by
  refine .bind .get fun s => ?_
  cases s.tunnels[t]? with
  | none => exact .throw
  | some u => exact .pure

theorem keeps_innerChannel : Keeps o (innerChannel t) := .bind keeps_this fun _ => keeps_deref _

variable (h : Blind o t)

include h

theorem Blind.call : Keeps o call := by
  refine .bind .get fun s => ?_
  cases s.answers with
  | nil => exact .throw
  | cons answer answers =>
      exact .bind (.modify fun s => h.answers s _) fun _ => .ite (fun _ => .throw) fun _ => .pure

theorem Blind.updateChannel (f : Channel → Channel) : Keeps o (updateChannel t f) :=
  h.update _ fun u => by simp [Tunnel.life]

theorem Blind.register (ops : Ops) : Keeps o (register t ops) := by
  refine .bind keeps_innerChannel fun channel => .bind h.call fun _ => ?_
  exact .ite (fun _ => .throw) fun _ => h.updateChannel _

theorem Blind.connect (destAddress : InetSocketAddress) : Keeps o (connect t destAddress) := by
  refine .bind keeps_innerChannel fun _ => .bind h.call fun answer => .ite (fun _ => ?_) fun _ => .throw
  refine .bind (h.update _ fun _ => rfl) fun _ => .bind (h.register _) fun _ => ?_
  exact .bind keeps_innerChannel fun _ => .bind h.call fun _ => .pure

theorem Blind.beginReceive : Keeps o (beginReceive t) := by
  refine .bind keeps_innerChannel fun channel => .ite (fun _ => ?_) fun _ => h.register _
  exact .bind h.call fun _ => .bind (h.updateChannel _) fun _ => h.register _

theorem Blind.writeLoop (n : Nat) (buffer : ByteBuffer) : Keeps o (writeLoop t n buffer) := by
  induction n generalizing buffer with
  | zero => exact .pure
  | succ n ih =>
      refine .ite (fun _ => ?_) fun _ => .pure
      refine .bind keeps_innerChannel fun _ => .bind h.call fun answer => .ite (fun _ => .pure) fun _ => ?_
      exact .bind (h.updateChannel _) fun _ => ih _

theorem Blind.write (buffer : ByteBuffer) (copyRemainData : Bool) : Keeps o (write t buffer copyRemainData) := by
  refine .bind (h.writeLoop _ _) fun buffer => .ite (fun _ => ?_) fun _ => .pure
  refine .ite (fun _ => ?_) fun _ => .pure
  refine .bind keeps_this fun u => .bind (keeps_deref _) fun remain => ?_
  exact .bind (h.update _ fun _ => rfl) fun _ => .bind (h.register _) fun _ => .pure

theorem Blind.beforeSend (buffer : ByteBuffer) : Keeps o (beforeSend t buffer config) := by
  refine .bind keeps_this fun u => ?_
  cases u.kind with
  | raw => exact .pure
  | httpConnect established =>
      refine .ite (fun _ => .ite (fun _ => ?_) fun _ => .pure) fun _ => .pure
      exact .bind (keeps_deref _) fun part => .bind (h.write _ _) fun _ => keeps_deref _

end Blind

theorem lives_blind (t : Ref) : Blind Heap.lives t where
  update f hf := by
    refine .modify fun s => ?_
    have hmap : (s.tunnels.modify t f).map Tunnel.life = s.tunnels.map Tunnel.life := by
      rw [map_modify (h := id) hf]
      simp
    simp only [Heap.lives, hmap]
  buffer _ _ := rfl
  answers _ _ := rfl

theorem keeps_onTunnelEstablished : Keeps Heap.lives (onTunnelEstablished t) := by
  refine .bind (lives_blind t).beginReceive fun _ => .bind keeps_this fun u => ?_
  exact .bind (keeps_deref _) fun brother => (lives_blind brother).beginReceive

theorem keeps_onConnected : Keeps Heap.lives (onConnected t config) := by
  refine .bind keeps_this fun u => ?_
  cases u.kind with
  | raw => exact keeps_onTunnelEstablished
  | httpConnect established =>
      refine .bind (keeps_deref _) fun dest => .bind .get fun s => .bind (keeps_deref _) fun buffer => ?_
      refine .bind (.modify fun _ => rfl) fun _ => .bind ((lives_blind t).write _ _) fun sent => ?_
      exact .ite (fun _ => (lives_blind t).beginReceive) fun _ => .pure

theorem keeps_afterReceived (buffer : ByteBuffer) : Keeps Heap.lives (afterReceived t buffer) := by
  refine .bind keeps_this fun u => ?_
  split
  · exact .pure
  · exact .pure
  · refine .ite (fun _ => ?_) fun _ => .throw
    refine .bind (keeps_deref _) fun buffer => .bind ((lives_blind t).update _ fun _ => rfl) fun _ => ?_
    exact .bind keeps_onTunnelEstablished fun _ => .pure

theorem keeps_forward (buffer : ByteBuffer) : Keeps Heap.lives (forward t buffer config) := by
  refine .bind (keeps_afterReceived _) fun buffer => .bind keeps_this fun u => .ite (fun _ => ?_) fun _ => .pure
  refine .bind keeps_this fun u => .bind (keeps_deref _) fun brother => ?_
  refine .bind ((lives_blind brother).beforeSend _) fun buffer => .bind ((lives_blind brother).write _ _) fun sent => ?_
  exact .ite (fun _ => (lives_blind t).updateChannel _) fun _ => .pure

theorem keeps_writable : Keeps Heap.lives (writable t config) := by
  have hb := lives_blind t
  refine .bind keeps_this fun u => .bind (keeps_deref _) fun buffer => .bind (hb.beforeSend _) fun buffer => ?_
  refine .bind (hb.write _ _) fun sent => .bind (hb.update _ fun _ => rfl) fun _ => .ite (fun _ => ?_) fun _ => .pure
  refine .bind (hb.updateChannel _) fun _ => .bind keeps_this fun u => .ite (fun _ => ?_) fun _ => hb.beginReceive
  exact .bind keeps_this fun u => .bind (keeps_deref _) fun brother => (lives_blind brother).beginReceive

theorem keeps_call : Keeps Heap.lives call := (lives_blind 0).call

theorem keeps_getDestAddress : Keeps Heap.lives (getDestAddress e) := by
  refine .bind (keeps_deref _) fun _ => .bind keeps_call fun _ => ?_
  cases e.session with
  | none => exact .pure
  | some session => exact .ite (fun _ => .pure) fun _ => .pure

/-! ## The methods that change them -/

theorem lives_lookup (s : Heap) (t : Ref) : s.lives.objects[t]? = s.tunnels[t]?.map Tunnel.life := List.getElem?_map

theorem lives_clear (s : Heap) (t : Ref) :
    Heap.lives { s with tunnels := s.tunnels.modify t Tunnel.clear, sessionCount := s.sessionCount - 1 } =
      s.lives.clear t := by
  have hmap : (s.tunnels.modify t Tunnel.clear).map Tunnel.life = (s.tunnels.map Tunnel.life).modify t Life.clear :=
    map_modify fun _ => rfl
  simp only [Heap.lives, Lives.clear, hmap]

theorem lives_drop (s : Heap) (t : Ref) : (disposeInternal false t s).lives = s.lives.drop t := by
  rw [disposeInternal, disposeBody, Lives.drop, lives_lookup]
  cases s.tunnels[t]? with
  | none => rfl
  | some u =>
      show Heap.lives (if u.disposed then s else _) = if u.disposed then s.lives else s.lives.clear t
      split
      · rfl
      · cases u.brother with
        | none => exact lives_clear s t
        | some brother => exact lives_clear s t

theorem lives_dispose (s : Heap) (t : Ref) : (dispose t s).lives = s.lives.dispose t := by
  rw [dispose, disposeInternal, disposeBody, Lives.dispose, lives_lookup]
  cases s.tunnels[t]? with
  | none => rfl
  | some u =>
      have hbrother : u.life.brother = u.brother := rfl
      simp only [Option.map_some, hbrother]
      cases u.brother with
      | none =>
          show Heap.lives (if u.disposed then s else _) = if u.disposed then s.lives else s.lives.clear t
          split
          · rfl
          · exact lives_clear s t
      | some brother =>
          show Heap.lives (if u.disposed then s else _) = if u.disposed then s.lives else (s.lives.drop brother).clear t
          split
          · rfl
          · rw [← lives_drop]
            exact lives_clear _ t

/-- The lives are what they were, or those after `dispose`. -/
def Within (t : Ref) (l : Lives) (s : Heap) : Prop := s.lives = l ∨ s.lives = l.dispose t

theorem within_of_keeps {x : Method Unit} (h : Keeps Heap.lives x) :
    Triple (fun s => s.lives = l) x (fun _ => Within t l) fun s => s.lives = l :=
  (h.triple l).imp (fun _ h => h) (fun _ _ => .inl) fun _ h => h

theorem within_dispose :
    Triple (fun s => s.lives = l) (modify (dispose t) : Method Unit) (fun _ => Within t l) (fun s => s.lives = l) :=
  .modify fun s h => .inr (by rw [lives_dispose, h])

theorem connectable_within :
    Triple (fun s => s.lives = l) (connectable t config) (fun _ => Within t l) (fun s => s.lives = l) := by
  refine .bind (keeps_innerChannel.triple l) fun _ => .bind (keeps_call.triple l) fun answer => ?_
  split
  · exact within_of_keeps keeps_onConnected
  · exact within_dispose

theorem readable_within :
    Triple (fun s => s.lives = l) (readable t config) (fun _ => Within t l) (fun s => s.lives = l) := by
  refine .bind (.modify (Q := fun _ s => s.lives = l) fun s h => h) fun _ => ?_
  refine .bind (keeps_innerChannel.triple l) fun _ => .bind (keeps_call.triple l) fun answer => ?_
  cases answer.bytes with
  | none => exact within_dispose
  | some bytes =>
      refine within_of_keeps (.bind .get fun s => .bind .get fun s' => .bind (keeps_deref _) fun buffer => ?_)
      exact .bind (.modify fun _ => rfl) fun _ => .ite (fun _ => keeps_forward _) fun _ => .pure

/-- A callback, in its `try` block. -/
theorem callback_within {x : Method Unit}
    (h : Triple (fun s => s.lives = l) x (fun _ => Within t l) fun s => s.lives = l) (hs : s.lives = l) :
    Within t l (attempt x (dispose t) s) :=
  h.attempt (fun s h => .inr (by rw [lives_dispose, h])) hs

/-! ## Accepting -/

theorem construct_lives (kind : Kind) (channel : Option Channel) :
    Triple (fun s => s.lives = l) (construct kind channel)
      (fun t s => t = l.objects.length ∧ s.lives = l.construct channel.isSome) (fun s => s.lives = l) := by
  rintro s rfl
  refine ⟨(List.length_map _).symm, ?_⟩
  simp only [Heap.lives, Lives.construct, List.map_append, List.map_cons, List.map_nil]
  rfl

theorem wrap_lives :
    Triple (fun s => s.lives = l) (wrap e)
      (fun t s => t = l.objects.length ∧ s.lives = l.construct e.channel.isSome) (fun s => s.lives = l) :=
  .bind (keeps_call.triple l) fun _ => construct_lives _ _

theorem createTunnelByConfig_lives (destAddress : InetSocketAddress) :
    Triple (fun s => s.lives = l) (createTunnelByConfig e destAddress)
      (fun t s => t = l.objects.length ∧ s.lives = l.construct true) (fun s => s.lives = l) := by
  have hopen (kind : Kind) : Triple (fun s => s.lives = l) (openTunnel kind)
      (fun t s => t = l.objects.length ∧ s.lives = l.construct true) (fun s => s.lives = l) :=
    .bind (keeps_call.triple l) fun _ => .bind (keeps_call.triple l) fun _ => construct_lives _ _
  unfold createTunnelByConfig
  split
  · split
    · exact hopen _
    · exact .throw fun s h => h
  · exact hopen _

theorem setBrotherTunnel_lives (a b : Ref) (E : Heap → Prop) :
    Triple (fun s => s.lives = l) (setBrotherTunnel a b) (fun _ s => s.lives = l.setBrother a b) E := by
  rintro s rfl
  have hmap : (s.tunnels.modify a fun u => { u with brother := some b }).map Tunnel.life =
      (s.tunnels.map Tunnel.life).modify a fun u => { u with brother := some b } := map_modify fun _ => rfl
  show Heap.lives _ = _
  simp only [Heap.lives, Lives.setBrother, hmap]

/-- From where `localTunnel` is set: it is disposed, or the tunnel to connect was constructed and is its brother. -/
theorem accepted_lives {connected : Bool} :
    Triple (fun s => s.lives = l.construct connected) (accepted e l.objects.length)
      (fun _ s => s.lives = (l.construct connected).dispose l.objects.length ∨ s.lives = l.constructPair connected)
      (fun s => s.lives = l.construct connected ∨ s.lives = l.constructPair connected) := by
  refine .bind ((keeps_getDestAddress.triple _).imp (fun _ h => h) (fun _ _ h => h) fun _ => .inl) fun destAddress => ?_
  cases destAddress with
  | none =>
      refine .bind ((keeps_call.triple _).imp (fun _ h => h) (fun _ _ h => h) fun _ => .inl) fun _ => ?_
      exact .modify fun s h => .inl (by rw [lives_dispose, h])
  | some destAddress =>
      refine .bind ((createTunnelByConfig_lives destAddress).imp (fun _ h => h) (fun _ _ h => h) fun _ => .inl)
        fun remoteTunnel => ?_
      rintro s ⟨rfl, hs⟩
      have hn : (l.construct connected).objects.length = l.objects.length + 1 := by simp [Lives.construct]
      rw [hn]
      refine Triple.bind (setBrotherTunnel_lives _ _ _) (fun _ => ?_) s hs
      refine .bind (setBrotherTunnel_lives _ _ _) fun _ => ?_
      exact (((lives_blind _).connect destAddress).triple (l.constructPair connected)).imp (fun _ h => h)
        (fun _ _ => .inr) fun _ => .inr

theorem onAccepted_lives (hs : s.lives = l) : l.Step (onAccepted e s).lives := by
  have hw := wrap_lives (e := e) s hs
  unfold onAccepted
  split
  · rename_i s' h
    rw [h] at hw
    rw [show s'.lives = l from hw]
    exact .stay
  · rename_i localTunnel s' h
    rw [h] at hw
    obtain ⟨rfl, hs'⟩ := hw
    refine (accepted_lives.imp (fun _ h => h) (fun _ s h => ?_) (fun _ h => h)).attempt (Q := fun s => l.Step s.lives)
      (fun s h => ?_) hs'
    · obtain h | h := h
      · rw [h]
        exact .reject _
      · rw [h]
        exact .pair _
    · rw [lives_dispose]
      obtain h | h := h
      · rw [h]
        exact .reject _
      · rw [h]
        exact .fail _

/-- One event is one step of the lives. -/
theorem step_lives (s : Heap) (i : Event × List Answer) : s.lives.Step (step s i).lives := by
  obtain ⟨event, answers⟩ := i
  have hcallback (t : Ref) (s' : Heap) (h : Within t s.lives s') : s.lives.Step s'.lives := by
    obtain h | h := h
    · rw [h]
      exact .stay
    · rw [h]
      exact .dispose t
  cases event with
  | accept e => exact onAccepted_lives rfl
  | connectable t config => exact hcallback t _ (callback_within connectable_within rfl)
  | readable t config => exact hcallback t _ (callback_within readable_within rfl)
  | writable t config => exact hcallback t _ (callback_within (within_of_keeps keeps_writable) rfl)

end TunProxy.Relay.Objects
