import TunProxy.Relay.Lemmas.Objects
import TunProxy.Lib.Run

/-!
# The life of a tunnel

The tunnels are counted, a pair lives and dies together, and who is disposed does no more.
-/

namespace TunProxy.Relay.Objects

open Lib
open Native (Bytes)

variable {t : Ref} {s : Heap} {u : Tunnel} {x : Life} {config : ProxyConfig} {l : Lives}

/-! ## What is said of the heap -/

def Heap.Disposed (s : Heap) (t : Ref) : Prop := ∃ u, s.tunnels[t]? = some u ∧ u.disposed = true

/-- Both live, and they refer to each other. -/
def Heap.Brothers (s : Heap) (a b : Ref) : Prop :=
  ∃ u v, s.tunnels[a]? = some u ∧ s.tunnels[b]? = some v ∧ u.disposed = false ∧ v.disposed = false ∧
    u.brother = some b ∧ v.brother = some a

theorem lookup_life (h : s.lives.objects[t]? = some x) : ∃ u, s.tunnels[t]? = some u ∧ u.life = x := by
  rw [lives_lookup] at h
  exact Option.map_eq_some_iff.1 h

theorem disposed_of_gone (h : s.lives.Gone t) : s.Disposed t := by
  obtain ⟨x, hx, hd⟩ := h
  obtain ⟨u, hu, rfl⟩ := lookup_life hx
  exact ⟨u, hu, hd⟩

theorem gone_of_disposed (h : s.Disposed t) : s.lives.Gone t := by
  obtain ⟨u, hu, hd⟩ := h
  exact ⟨u.life, by rw [lives_lookup, hu]; rfl, hd⟩

theorem brothers_of_mutual {a b : Ref} (h : s.lives.Mutual a b) : s.Brothers a b := by
  obtain ⟨-, ⟨x, hx, hxd, hxb⟩, y, hy, hyd, hya⟩ := h
  obtain ⟨u, hu, rfl⟩ := lookup_life hx
  obtain ⟨v, hv, rfl⟩ := lookup_life hy
  exact ⟨u, v, hu, hv, hxd, hyd, hxb, hya⟩

/-! ## Runs -/

theorem run_balanced (is : List (Event × List Answer)) : (is.foldl step started).lives.Balanced :=
  (Run.ofList step started is).invariant' (I := fun s => s.lives.Balanced) Lives.balanced_empty
    fun s i h _ => (step_lives s i).balanced h

theorem run_paired {p : Ref × Ref} (is : List (Event × List Answer)) (hp : p ∈ s.paired) :
    p ∈ (is.foldl step s).paired :=
  (Run.ofList step s is).invariant' (I := fun s => p ∈ s.paired) hp fun s i h _ => (step_lives s i).paired h

/-! ## Callbacks of a tunnel that is disposed -/

/-- All that a callback of `t` may not touch: the other tunnels, and the lives. -/
def others (t : Ref) (s : Heap) : (Ref → Option Tunnel) × Lives :=
  (fun t' => if t' = t then none else s.tunnels[t']?, s.lives)

theorem others_blind (t : Ref) : Blind (others t) t where
  update f hf := by
    intro s
    refine Prod.ext (funext fun t' => ?_) ((lives_blind t).update f hf s)
    show (if t' = t then none else (s.tunnels.modify t f)[t']?) = if t' = t then none else s.tunnels[t']?
    split
    · rfl
    · rename_i hne
      simp [Ne.symm hne]
  buffer _ _ := rfl
  answers _ _ := rfl

theorem this_eq (hu : s.tunnels[t]? = some u) : this t s = .ok u s := by
  rw [this, bind_of_ok (get_ok.2 ⟨rfl, rfl⟩), hu]
  rfl

theorem innerChannel_null (hu : s.tunnels[t]? = some u) (hc : u.innerChannel = none) :
    innerChannel t s = .error () s := by
  rw [innerChannel, bind_of_ok (this_eq hu), hc]
  rfl

theorem dispose_disposed (hd : s.Disposed t) : dispose t s = s := by
  obtain ⟨u, hu, hd⟩ := hd
  rw [dispose, disposeInternal, disposeBody, hu]
  exact if_pos hd

/-- Where the link is null, nothing is read from the brother. -/
theorem brother_null (hl : ∀ x, l.objects[t]? = some x → x.brother = none) (f : Ref → Method Unit)
    {v : (Ref → Option Tunnel) × Lives}
    (hv : v.2 = l) :
    Triple (fun s => others t s = v) (do f (← deref (← this t).brother)) (fun _ s => others t s = v)
    (fun s => others t s = v) := by
  rintro s rfl
  have hlives : s.lives = l := hv
  cases hu : s.tunnels[t]? with
  | none =>
      have hthis : this t s = .error () s := by
        rw [this, bind_of_ok (get_ok.2 ⟨rfl, rfl⟩), hu]
        rfl
      rw [bind_of_error hthis]
  | some u =>
      have hb : u.brother = none := hl u.life (by rw [← hlives, lives_lookup, hu]; rfl)
      rw [bind_of_ok (this_eq hu), hb]
      rfl

theorem writable_others (hl : ∀ x, l.objects[t]? = some x → x.brother = none) {v : (Ref → Option Tunnel) × Lives}
    (hv : v.2 = l) :
    Triple (fun s => others t s = v) (writable t config) (fun _ s => others t s = v) (fun s => others t s = v) := by
  have hb := others_blind t
  have hthis := (keeps_this (o := others t) (t := t)).triple v
  refine .bind hthis fun u => .bind ((keeps_deref _).triple v) fun buffer => .bind ((hb.beforeSend _).triple v)
    fun buffer => ?_
  have hset (b : ByteBuffer) : Keeps (others t) (update t fun u => { u with remain := some b }) :=
    hb.update _ fun _ => rfl
  refine .bind ((hb.write _ _).triple v) fun sent => .bind ((hset _).triple v) fun _ => ?_
  split
  · refine .bind ((hb.updateChannel _).triple v) fun _ => .bind hthis fun u => ?_
    split
    · exact brother_null hl _ hv
    · exact hb.beginReceive.triple v
  · exact .pure fun _ h => h

/-- The first thing that is done with the channel throws. -/
theorem callback_null {f : Answer → Method Unit} (hd : s.Disposed t)
    (hc : ∀ u, s.tunnels[t]? = some u → u.innerChannel = none) :
    attempt (do let _ ← innerChannel t; f (← call)) (dispose t) s = s := by
  obtain ⟨u, hu, -⟩ := id hd
  rw [attempt, bind_of_error (innerChannel_null hu (hc u hu))]
  exact dispose_disposed hd

theorem callback_others (hd : s.Disposed t) (hb : s.lives.Balanced) {i : Event × List Answer}
    (hi : i.1.callee = some t) :
    others t (step s i) = others t s := by
  obtain ⟨event, answers⟩ := i
  have hnull : ∀ x, s.lives.objects[t]? = some x → x.connected = false ∧ x.brother = none := by
    intro x hx
    obtain ⟨u, hu, hud⟩ := hd
    obtain ⟨w, hw, rfl⟩ := lookup_life hx
    rw [hu] at hw
    cases hw
    exact hb.cleared t u.life hx hud
  have hchannel : ∀ u, s.tunnels[t]? = some u → u.innerChannel = none := by
    intro u hu
    have := (hnull u.life (by rw [lives_lookup, hu]; rfl)).1
    simpa [Tunnel.life] using this
  cases event with
  | accept e => cases hi
  | connectable t config =>
      cases hi
      have h : step s (.connectable t config, answers) = { s with answers } :=
        callback_null (s := { s with answers }) hd hchannel
      rw [h]
      rfl
  | readable t config =>
      cases hi
      have h : step s (.readable t config, answers) = { s with answers, buffer := s.buffer.clear } :=
        callback_null (s := { s with answers, buffer := s.buffer.clear }) hd hchannel
      rw [h]
      rfl
  | writable t config =>
      cases hi
      have hw := @writable_others t config s.lives (fun x hx => (hnull x hx).2) (others t s) rfl
      refine hw.attempt (Q := fun s' => others t s' = others t s) (fun s' h => ?_) rfl
      have hlives : s'.lives = s.lives := congrArg Prod.snd h
      rw [dispose_disposed (disposed_of_gone (hlives ▸ gone_of_disposed hd)), h]

/-! ## The life of a tunnel -/

/-- After any events, with any answers of the environment: `SessionCount` is the number of the tunnels that live; each
was disposed once at most; a tunnel's brother is one it was paired with, and two that were paired live and are brothers
or are both disposed; and a callback of a tunnel that is disposed changes no other tunnel. -/
theorem tunnels_lifetime (is js : List (Event × List Answer)) :
    let s₀ := is.foldl step started
    let s := js.foldl step s₀
    s.sessionCount = s.tunnels.countP (fun u => !u.disposed) ∧
    (∀ u ∈ s.tunnels, u.disposals ≤ 1 ∧ (u.disposals = 1 ↔ u.disposed = true)) ∧
    (∀ a u b, s₀.tunnels[a]? = some u → u.brother = some b → (a, b) ∈ s₀.paired) ∧
    (∀ a b, (a, b) ∈ s₀.paired → s.Brothers a b ∨ s.Disposed a ∧ s.Disposed b) ∧
    ∀ t, s.Disposed t → ∀ i : Event × List Answer, i.1.callee = some t →
      (step s i).sessionCount = s.sessionCount ∧ ∀ t', t' ≠ t → (step s i).tunnels[t']? = s.tunnels[t']? := by
  intro s₀ s
  have hb₀ : s₀.lives.Balanced := run_balanced is
  have hb : s.lives.Balanced := by
    have := run_balanced (is ++ js)
    rwa [List.foldl_append] at this
  refine ⟨?_, ?_, ?_, ?_, ?_⟩
  · have := hb.count
    rw [Heap.lives, List.countP_map] at this
    exact this
  · intro u hu
    obtain ⟨t, ht⟩ := List.mem_iff_getElem?.1 hu
    have hd : u.disposals = u.disposed.toNat := hb.disposals t u.life (by rw [lives_lookup, ht]; rfl)
    rw [hd]
    cases u.disposed with
    | false => exact ⟨Nat.zero_le 1, by simp⟩
    | true => exact ⟨Nat.le_refl 1, by simp⟩
  · intro a u b hu hub
    exact hb₀.linked a u.life b (by rw [lives_lookup, hu]; rfl) hub
  · intro a b hab
    obtain h | ⟨ha, hb⟩ := hb.pairs a b (run_paired js hab)
    · exact .inl (brothers_of_mutual h)
    · exact .inr ⟨disposed_of_gone ha, disposed_of_gone hb⟩
  · intro t ht i hi
    have h := callback_others ht hb hi
    refine ⟨congrArg (fun o => o.2.count) h, fun t' hne => ?_⟩
    have := congrFun (congrArg Prod.fst h) t'
    simpa [others, hne] using this

end TunProxy.Relay.Objects
