import Mathlib.Data.List.Basic

/-!
# Programs that may throw

A method that may throw is an `EStateM ε σ α`: what it did to the state before it threw stays done. The lemmas take a
run that returned apart, and `attempt` is a `try` block around the whole of a method.
-/

namespace TunProxy.Lib

variable {ε σ α β : Type} {x : EStateM ε σ α} {f : α → EStateM ε σ β} {s s' : σ} {a b : α} {c : β} {g : σ → σ} {e : ε}

theorem bind_ok : (x >>= f) s = .ok c s' ↔ ∃ a t, x s = .ok a t ∧ f a t = .ok c s' := by
  change EStateM.bind x f s = .ok c s' ↔ _
  unfold EStateM.bind
  split
  · rename_i a t hx
    constructor
    · intro h
      exact ⟨a, t, hx, h⟩
    · rintro ⟨a', t', hx', h⟩
      rw [hx] at hx'
      cases hx'
      exact h
  · rename_i e t hx
    constructor
    · intro h
      cases h
    · rintro ⟨a', t', hx', -⟩
      rw [hx] at hx'
      cases hx'

theorem pure_ok : (pure a : EStateM ε σ α) s = .ok b s' ↔ a = b ∧ s = s' := by
  change EStateM.Result.ok a s = .ok b s' ↔ _
  simp

theorem throw_ok : ¬(throw e : EStateM ε σ α) s = .ok a s' := by
  intro h
  cases h

theorem get_ok {t : σ} : (get : EStateM ε σ σ) s = .ok t s' ↔ s = t ∧ s = s' := by
  change EStateM.Result.ok s s = .ok t s' ↔ _
  simp

theorem modify_ok {u : Unit} : (modify g : EStateM ε σ PUnit) s = .ok u s' ↔ g s = s' := by
  change EStateM.Result.ok PUnit.unit (g s) = .ok u s' ↔ _
  simp

/-! ## The `try` block -/

/-- `try { x } catch { handler }`. -/
def attempt (x : EStateM ε σ Unit) (handler : σ → σ) (s : σ) : σ :=
  match x s with
  | .ok _ s' => s'
  | .error _ s' => handler s'

/-! ## What no ending changes -/

/-- The state in which the method ends, where it throws as well. -/
def final (x : EStateM ε σ α) (s : σ) : σ :=
  match x s with
  | .ok _ s' => s'
  | .error _ s' => s'

theorem final_ok (h : x s = .ok a s') : final x s = s' := by rw [final, h]

theorem bind_of_ok (h : x s = .ok a s') : (x >>= f) s = f a s' := by
  change EStateM.bind x f s = _
  rw [EStateM.bind, h]

theorem bind_of_error (h : x s = .error e s') : (x >>= f) s = .error e s' := by
  change EStateM.bind x f s = _
  rw [EStateM.bind, h]

theorem adaptExcept_ok {ε' : Type} {f : ε → ε'} (h : x s = .ok a s') : x.adaptExcept f s = .ok a s' := by
  rw [EStateM.adaptExcept, h]

theorem adaptExcept_error {ε' : Type} {f : ε → ε'} (h : x s = .error e s') :
    x.adaptExcept f s = .error (f e) s' := by
  rw [EStateM.adaptExcept, h]

theorem final_bind (h : x s = .ok a s') : final (x >>= f) s = final (f a) s' := by rw [final, bind_of_ok h, final]

theorem final_get {f : σ → EStateM ε σ β} : final (get >>= f) s = final (f s) s := rfl

theorem final_modify {f : PUnit → EStateM ε σ β} : final (modify g >>= f) s = final (f ()) (g s) := rfl

theorem attempt_final (x : EStateM ε σ Unit) (g : σ → σ) (s : σ) :
    attempt x g s = final x s ∨ attempt x g s = g (final x s) := by
  cases h : x s with
  | ok u s' => exact .inl (by rw [attempt, final, h])
  | error e s' => exact .inr (by rw [attempt, final, h])

section Keeps

variable {τ : Type} {o : σ → τ}

/-- However the method ends, `o` is what it was. -/
def Keeps (o : σ → τ) (x : EStateM ε σ α) : Prop := ∀ s, o (final x s) = o s

theorem Keeps.pure : Keeps o (pure a : EStateM ε σ α) := fun _ => rfl

theorem Keeps.throw : Keeps o (throw e : EStateM ε σ α) := fun _ => rfl

theorem Keeps.get : Keeps o (get : EStateM ε σ σ) := fun _ => rfl

theorem Keeps.modify (h : ∀ s, o (g s) = o s) : Keeps o (modify g : EStateM ε σ PUnit) := h

theorem Keeps.bind (hx : Keeps o x) (hf : ∀ a, Keeps o (f a)) : Keeps o (x >>= f) := by
  intro s
  cases h : x s with
  | ok a s' =>
      rw [final_bind h, hf a s', ← hx s, final_ok h]
  | error e s' =>
      have hx := hx s
      rw [final, h] at hx
      rw [final, bind_of_error h]
      exact hx

theorem Keeps.ite {p : Prop} [Decidable p] {y : EStateM ε σ α} (hx : p → Keeps o x) (hy : ¬p → Keeps o y) :
    Keeps o (if p then x else y) := by
  split
  · rename_i h
    exact hx h
  · rename_i h
    exact hy h

end Keeps

/-! ## What both endings satisfy -/

section Triple

variable {P P' E E' : σ → Prop} {Q Q' : α → σ → Prop} {R : β → σ → Prop}

/-- From a state with `P` the method returns in one with `Q` or throws in one with `E`. -/
def Triple (P : σ → Prop) (x : EStateM ε σ α) (Q : α → σ → Prop) (E : σ → Prop) : Prop :=
  ∀ s, P s → match x s with
    | .ok a s' => Q a s'
    | .error _ s' => E s'

theorem Triple.pure (h : ∀ s, P s → Q a s) : Triple P (pure a : EStateM ε σ α) Q E := h

theorem Triple.throw (h : ∀ s, P s → E s) : Triple P (throw e : EStateM ε σ α) Q E := h

theorem Triple.modify {Q : PUnit → σ → Prop} (h : ∀ s, P s → Q () (g s)) :
    Triple P (modify g : EStateM ε σ PUnit) Q E := h

theorem Triple.get {Q : σ → σ → Prop} (h : ∀ s, P s → Q s s) : Triple P (get : EStateM ε σ σ) Q E := h

theorem Triple.ite {p : Prop} [Decidable p] {y : EStateM ε σ α} (hx : p → Triple P x Q E) (hy : ¬p → Triple P y Q E) :
    Triple P (if p then x else y) Q E := by
  split
  · rename_i h
    exact hx h
  · rename_i h
    exact hy h

theorem Triple.bind (hx : Triple P x Q E) (hf : ∀ a, Triple (Q a) (f a) R E) : Triple P (x >>= f) R E := by
  intro s hs
  have hx := hx s hs
  cases h : x s with
  | ok a t =>
      rw [h] at hx
      rw [bind_of_ok h]
      exact hf a t hx
  | error e t =>
      rw [h] at hx
      rw [bind_of_error h]
      exact hx

theorem Triple.imp (h : Triple P x Q E) (hp : ∀ s, P' s → P s) (hq : ∀ a s, Q a s → Q' a s) (he : ∀ s, E s → E' s) :
    Triple P' x Q' E' := by
  intro s hs
  have h := h s (hp s hs)
  cases hx : x s with
  | ok a t =>
      rw [hx] at h
      exact hq a t h
  | error e t =>
      rw [hx] at h
      exact he t h

theorem Triple.error (h : Triple P x Q E) (he : ∀ s, E s → E' s) : Triple P x Q E' :=
  h.imp (fun _ h => h) (fun _ _ h => h) he

theorem Keeps.triple {τ : Type} {o : σ → τ} (h : Keeps o x) (v : τ) :
    Triple (fun s => o s = v) x (fun _ s => o s = v) (fun s => o s = v) := by
  rintro s rfl
  have h := h s
  cases hx : x s with
  | ok a t =>
      rw [final, hx] at h
      exact h
  | error e t =>
      rw [final, hx] at h
      exact h

theorem Keeps.stays {τ : Type} {o : σ → τ} (h : Keeps o x) (I : τ → Prop) :
    Triple (fun s => I (o s)) x (fun _ s => I (o s)) (fun s => I (o s)) := by
  intro s hs
  exact (h.triple (o s)).imp (fun _ h => h) (fun _ _ h => h ▸ hs) (fun _ h => h ▸ hs) s rfl

theorem Triple.final {Q : σ → Prop} (h : Triple P x (fun _ => Q) Q) (hs : P s) : Q (Lib.final x s) := by
  have h := h s hs
  rw [Lib.final]
  cases hx : x s with
  | ok a t =>
      rw [hx] at h
      exact h
  | error e t =>
      rw [hx] at h
      exact h

/-- The `try` block returns with what both endings come to. -/
theorem Triple.attempt {x : EStateM ε σ Unit} {Q : σ → Prop} (h : Triple P x (fun _ => Q) E)
    (hg : ∀ s, E s → Q (g s)) (hs : P s) :
    Q (attempt x g s) := by
  have h := h s hs
  rw [Lib.attempt]
  cases hx : x s with
  | ok u t =>
      rw [hx] at h
      exact h
  | error e t =>
      rw [hx] at h
      exact hg t h

end Triple

end TunProxy.Lib
