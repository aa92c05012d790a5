import TunProxy.Relay.Lemmas.Objects

/-!
# Where the tunnels of the server are to connect

Only the constructors and `connect` decide it.
-/

namespace TunProxy.Relay.Objects

open Lib
open Native (Bytes)

/-- The class of a tunnel, and the address that `connect` was called with. -/
abbrev Target := Kind × Option InetSocketAddress

def Heap.targets (s : Heap) : List Target := s.tunnels.map fun u => (u.kind, u.destAddress)

variable {t : Ref} {e : Acceptance} {l : List Target} {k : Kind} {dest : InetSocketAddress}

/-! ## The methods that keep them -/

theorem targets_modify {f : Tunnel → Tunnel} {g : Target → Target}
    (hf : ∀ u, ((f u).kind, (f u).destAddress) = g (u.kind, u.destAddress)) (s : Heap) :
    (s.tunnels.modify t f).map (fun u => (u.kind, u.destAddress)) = s.targets.modify t g := map_modify hf

theorem keepsTargets_update (f : Tunnel → Tunnel)
    (hf : ∀ u, ((f u).kind, (f u).destAddress) = (u.kind, u.destAddress)) : Keeps Heap.targets (update t f) := by
  refine .modify fun s => ?_
  rw [Heap.targets, targets_modify (g := id) hf]
  simp

theorem keepsTargets_call : Keeps Heap.targets call := by
  refine .bind .get fun s => ?_
  cases s.answers with
  | nil => exact .throw
  | cons answer answers => exact .bind (.modify fun s => rfl) fun _ => .ite (fun _ => .throw) fun _ => .pure

theorem keepsTargets_register (ops : Ops) : Keeps Heap.targets (register t ops) := by
  refine .bind keeps_innerChannel fun channel => .bind keepsTargets_call fun _ => .ite (fun _ => .throw) fun _ => ?_
  exact keepsTargets_update _ fun _ => rfl

theorem keepsTargets_setBrotherTunnel (a b : Ref) : Keeps Heap.targets (setBrotherTunnel a b) :=
  .bind (keepsTargets_update _ fun _ => rfl) fun _ => .modify fun _ => rfl

theorem targets_clear (s : Heap) (t : Ref) :
    Heap.targets { s with tunnels := s.tunnels.modify t Tunnel.clear, sessionCount := s.sessionCount - 1 } =
      s.targets :=
  keepsTargets_update Tunnel.clear (fun _ => rfl) s

theorem targets_disposeBody {f : Ref → Heap → Heap} (hf : ∀ t s, (f t s).targets = s.targets) (t : Ref) (s : Heap) :
    (disposeBody f t s).targets = s.targets := by
  unfold disposeBody
  cases s.tunnels[t]? with
  | none => rfl
  | some u =>
      show Heap.targets (if u.disposed then s else _) = s.targets
      split
      · rfl
      · cases u.brother with
        | none => exact targets_clear s t
        | some brother => exact (targets_clear (f brother s) t).trans (hf brother s)

theorem targets_dispose (t : Ref) (s : Heap) : (dispose t s).targets = s.targets :=
  targets_disposeBody (targets_disposeBody fun _ _ => rfl) t s

/-! ## The methods that decide them -/

theorem construct_targets (kind : Kind) (channel : Option Channel) :
    Triple (fun s => s.targets = l) (construct kind channel)
      (fun t s => t = l.length ∧ s.targets = l ++ [(kind, none)]) (fun s => s.targets = l) := by
  rintro s rfl
  refine ⟨(List.length_map _).symm, ?_⟩
  simp only [Heap.targets, List.map_append, List.map_cons, List.map_nil]

theorem openTunnel_targets (kind : Kind) :
    Triple (fun s => s.targets = l) (openTunnel kind)
      (fun t s => t = l.length ∧ s.targets = l ++ [(kind, none)]) (fun s => s.targets = l) :=
  .bind (keepsTargets_call.triple l) fun _ => .bind (keepsTargets_call.triple l) fun _ => construct_targets _ _

/-- The class of the tunnel for an address: one that is not resolved is for the proxy. -/
def InetSocketAddress.kind (dest : InetSocketAddress) : Kind := if dest.unresolved then .httpConnect false else .raw

theorem createTunnelByConfig_targets (dest : InetSocketAddress) :
    Triple (fun s => s.targets = l) (createTunnelByConfig e dest)
      (fun t s => t = l.length ∧ s.targets = l ++ [(dest.kind, none)]) (fun s => s.targets = l) := by
  unfold createTunnelByConfig InetSocketAddress.kind
  split
  · split
    · exact openTunnel_targets _
    · exact .throw fun s h => h
  · exact openTunnel_targets _

/-- The last tunnel may have been told its address. -/
def Told (l : List Target) (kind : Kind) (dest : InetSocketAddress) (s : Heap) : Prop :=
  ∃ told, (told = none ∨ told = some dest) ∧ s.targets = l ++ [(kind, told)]

theorem modify_last (l : List Target) (x : Target) (g : Target → Target) :
    (l ++ [x]).modify l.length g = l ++ [g x] := by
  induction l with
  | nil => rfl
  | cons y l ih => simp [ih]

theorem connect_targets :
    Triple (fun s => s.targets = l ++ [(k, none)]) (connect l.length dest) (fun _ => Told l k dest)
      (Told l k dest) := by
  have hnone (s : Heap) (h : s.targets = l ++ [(k, none)]) : Told l k dest s := ⟨none, .inl rfl, h⟩
  have hsome (s : Heap) (h : s.targets = l ++ [(k, some dest)]) : Told l k dest s := ⟨some dest, .inr rfl, h⟩
  refine .bind ((keeps_innerChannel.triple _).error hnone) fun _ => ?_
  refine .bind ((keepsTargets_call.triple _).error hnone) fun answer => ?_
  refine .ite (fun _ => ?_) fun _ => .throw hnone
  refine .bind (Q := fun _ s => s.targets = l ++ [(k, some dest)]) (.modify fun s h => ?_) fun _ => ?_
  · have hmap := targets_modify (t := l.length) (f := fun u => { u with destAddress := some dest })
      (g := fun x => (x.1, some dest)) (fun _ => rfl) s
    rw [h] at hmap
    exact hmap.trans (modify_last _ _ _)
  · have hrest : Keeps Heap.targets (do
        register l.length .connect
        let _ ← innerChannel l.length
        let _ ← call : Method Unit) :=
      .bind (keepsTargets_register _) fun _ => .bind keeps_innerChannel fun _ => .bind keepsTargets_call fun _ => .pure
    exact (hrest.triple _).imp (fun _ h => h) (fun _ => hsome) hsome

/-! ## Accepting -/

/-- What `getDestAddress` returns, when it does. -/
def Acceptance.destAddress (e : Acceptance) : Option InetSocketAddress :=
  e.session.map fun (remoteHost, remotePort) =>
    if e.needProxy then { hostName := remoteHost, port := remotePort, unresolved := true }
    else { hostName := e.inetAddress, port := remotePort, unresolved := false }

theorem getDestAddress_targets :
    Triple (fun s => s.targets = l) (getDestAddress e) (fun dest s => dest = e.destAddress ∧ s.targets = l)
      (fun s => s.targets = l) := by
  refine .bind ((keeps_deref _).triple l) fun _ => .bind (keepsTargets_call.triple l) fun _ => ?_
  unfold Acceptance.destAddress
  cases e.session with
  | none => exact .pure fun s h => ⟨rfl, h⟩
  | some session =>
      simp only [Option.map_some]
      exact .ite (fun hp => .pure fun s h => ⟨by rw [if_pos hp], h⟩) fun hp => .pure fun s h => ⟨by rw [if_neg hp], h⟩

/-- The tunnels that an acceptance constructs: the one to the client, and the one to the destination. -/
inductive Opens (e : Acceptance) : List Target → Prop
  | nothing : Opens e []
  | client : Opens e [(.raw, none)]
  | both {dest told} (hdest : e.destAddress = some dest) (htold : told = none ∨ told = some dest) :
      Opens e [(.raw, none), (dest.kind, told)]

theorem accepted_targets :
    Triple (fun s => s.targets = l ++ [(.raw, none)]) (accepted e l.length)
      (fun _ s => ∃ opened, Opens e opened ∧ s.targets = l ++ opened)
      (fun s => ∃ opened, Opens e opened ∧ s.targets = l ++ opened) := by
  have hclient (s : Heap) (h : s.targets = l ++ [(.raw, none)]) : ∃ opened, Opens e opened ∧ s.targets = l ++ opened :=
    ⟨_, .client, h⟩
  refine .bind (getDestAddress_targets.error hclient) fun destAddress => ?_
  cases destAddress with
  | none =>
      refine .bind ((keepsTargets_call.triple _).imp (fun _ h => h.2) (fun _ _ h => h) hclient) fun _ => ?_
      exact .modify fun s h => hclient _ ((targets_dispose _ s).trans h)
  | some dest =>
      have hboth (hdest : e.destAddress = some dest) (s : Heap) (h : Told (l ++ [(.raw, none)]) dest.kind dest s) :
          ∃ opened, Opens e opened ∧ s.targets = l ++ opened := by
        obtain ⟨told, htold, h⟩ := h
        exact ⟨_, .both hdest htold, by rw [h, List.append_assoc]; rfl⟩
      rintro s ⟨hdest, hs⟩
      refine Triple.bind ((createTunnelByConfig_targets dest).error hclient) (fun remoteTunnel => ?_) s hs
      rintro s ⟨rfl, hs⟩
      have hnone (s : Heap) (h : s.targets = l ++ [(.raw, none)] ++ [(dest.kind, none)]) :=
        hboth hdest.symm s ⟨none, .inl rfl, h⟩
      have hbrother (a b : Ref) := ((keepsTargets_setBrotherTunnel a b).triple _).error hnone
      refine Triple.bind (hbrother _ _) (fun _ => ?_) s hs
      refine .bind (hbrother _ _) fun _ => ?_
      exact connect_targets.imp (fun _ h => h) (fun _ => hboth hdest.symm) (hboth hdest.symm)

theorem onAccepted_targets (e : Acceptance) (s : Heap) :
    ∃ opened, Opens e opened ∧ (onAccepted e s).targets = s.targets ++ opened := by
  have hw : Triple (fun s' => s'.targets = s.targets) (wrap e)
      (fun t s' => t = s.targets.length ∧ s'.targets = s.targets ++ [(.raw, none)])
      (fun s' => s'.targets = s.targets) :=
    .bind (keepsTargets_call.triple _) fun _ => construct_targets _ _
  have hw := hw s rfl
  unfold onAccepted
  split
  · rename_i s' h
    rw [h] at hw
    exact ⟨[], .nothing, by rw [hw, List.append_nil]⟩
  · rename_i localTunnel s' h
    rw [h] at hw
    obtain ⟨rfl, hs'⟩ := hw
    exact accepted_targets.attempt (Q := fun s' : Heap => ∃ opened, Opens e opened ∧ s'.targets = s.targets ++ opened)
      (fun s' h => by rw [targets_dispose]; exact h) hs'

end TunProxy.Relay.Objects
