import Mathlib.Data.Fintype.Pigeonhole
import Mathlib.Data.List.Basic

/-!
# Loops that read a memory

One round of a loop makes a new state of a state, or ends the loop with a result, and reads the memory at some
positions. What the loop does is what it does in so many rounds; it ends where some number of rounds is enough. Where
only finitely many values decide what comes next, more rounds than there are values are enough, or none are.
-/

namespace TunProxy.Lib.Loop

variable {σ ρ : Type*} {step : σ → σ ⊕ ρ} {reads : σ → List Nat} {s s' : σ} {r : ρ} {k m n : Nat}

/-- The result, where `k` rounds are enough. -/
def runFor (step : σ → σ ⊕ ρ) : Nat → σ → Option ρ
  | 0, _ => none
  | k + 1, s =>
      match step s with
      | .inl s' => runFor step k s'
      | .inr r => some r

/-- What is read in the first `k` rounds. -/
def readsFor (step : σ → σ ⊕ ρ) (reads : σ → List Nat) : Nat → σ → List Nat
  | 0, _ => []
  | k + 1, s =>
      reads s ++
        match step s with
        | .inl s' => readsFor step reads k s'
        | .inr _ => []

theorem runFor_next (h : step s = .inl s') : runFor step (k + 1) s = runFor step k s' := by rw [runFor, h]

theorem runFor_end (h : step s = .inr r) : runFor step (k + 1) s = some r := by rw [runFor, h]

theorem readsFor_next (h : step s = .inl s') :
    readsFor step reads (k + 1) s = reads s ++ readsFor step reads k s' := by rw [readsFor, h]

theorem readsFor_end (h : step s = .inr r) : readsFor step reads (k + 1) s = reads s := by
  rw [readsFor, h]
  exact List.append_nil _

/-- More rounds change nothing. -/
theorem runFor_mono (h : runFor step k s = some r) (hle : k ≤ m) : runFor step m s = some r := by
  induction k generalizing s m with
  | zero => cases h
  | succ k ih =>
      obtain ⟨m, rfl⟩ : ∃ j, m = j + 1 := ⟨m - 1, by omega⟩
      cases hs : step s with
      | inl s' =>
          rw [runFor_next hs] at h ⊢
          exact ih h (by omega)
      | inr r' =>
          rw [runFor_end hs] at h ⊢
          exact h

/-- What every round keeps is so at the end. -/
theorem runFor_keeps {I : σ → Prop} {P : ρ → Prop} (hnext : ∀ s s', I s → step s = .inl s' → I s')
    (hend : ∀ s r, I s → step s = .inr r → P r) (hI : I s) (h : runFor step k s = some r) : P r := by
  induction k generalizing s with
  | zero => cases h
  | succ k ih =>
      cases hs : step s with
      | inl s' =>
          rw [runFor_next hs] at h
          exact ih (hnext s s' hI hs) h
      | inr r' =>
          rw [runFor_end hs] at h
          cases h
          exact hend s r hI hs

theorem readsFor_keeps {I : σ → Prop} {P : Nat → Prop} (hnext : ∀ s s', I s → step s = .inl s' → I s')
    (hreads : ∀ s, I s → ∀ i ∈ reads s, P i) (hI : I s) (k : Nat) : ∀ i ∈ readsFor step reads k s, P i := by
  induction k generalizing s with
  | zero => simp [readsFor]
  | succ k ih =>
      cases hs : step s with
      | inl s' =>
          rw [readsFor_next hs]
          exact List.forall_mem_append.2 ⟨hreads s hI, ih (hnext s s' hI hs)⟩
      | inr r' =>
          rw [readsFor_end hs]
          exact hreads s hI

/-- The loop ends, and reads nothing but the first `n` positions. -/
inductive EndsInside (step : σ → σ ⊕ ρ) (reads : σ → List Nat) (n : Nat) : σ → Prop
  | last {s : σ} {r : ρ} : (∀ i ∈ reads s, i < n) → step s = .inr r → EndsInside step reads n s
  | next {s s' : σ} : (∀ i ∈ reads s, i < n) → step s = .inl s' → EndsInside step reads n s' →
      EndsInside step reads n s

theorem EndsInside.here (h : EndsInside step reads n s) : ∀ i ∈ reads s, i < n := by
  cases h with
  | last hr _ => exact hr
  | next hr _ _ => exact hr

theorem EndsInside.tail (h : EndsInside step reads n s) (hs : step s = .inl s') : EndsInside step reads n s' := by
  cases h with
  | last _ he =>
      rw [hs] at he
      cases he
  | next _ hn h =>
      rw [hs] at hn
      cases hn
      exact h

theorem EndsInside.ends (h : EndsInside step reads n s) : ∃ k r, runFor step k s = some r := by
  induction h with
  | last _ hs => exact ⟨1, _, runFor_end hs⟩
  | next _ hs _ ih =>
      obtain ⟨k, r, hk⟩ := ih
      exact ⟨k + 1, r, (runFor_next hs).trans hk⟩

theorem EndsInside.inside (h : EndsInside step reads n s) (k : Nat) : ∀ i ∈ readsFor step reads k s, i < n := by
  induction h generalizing k with
  | last hr hs =>
      cases k with
      | zero => simp [readsFor]
      | succ k =>
          rw [readsFor_end hs]
          exact hr
  | next hr hs _ ih =>
      cases k with
      | zero => simp [readsFor]
      | succ k =>
          rw [readsFor_next hs]
          exact List.forall_mem_append.2 ⟨hr, ih k⟩

/-- What every round keeps that reads inside is so at the end. -/
theorem EndsInside.keeps {I : σ → Prop} {P : ρ → Prop} (h : EndsInside step reads n s)
    (hnext : ∀ s s', I s → (∀ i ∈ reads s, i < n) → step s = .inl s' → I s')
    (hend : ∀ s r, I s → step s = .inr r → P r) (hI : I s) (hr : runFor step k s = some r) : P r := by
  refine runFor_keeps (I := fun s => I s ∧ EndsInside step reads n s) ?_ (fun s r hI => hend s r hI.1) ⟨hI, h⟩ hr
  exact fun s s' hI hs => ⟨hnext s s' hI.1 hI.2.here hs, hI.2.tail hs⟩

theorem endsInside_iff : EndsInside step reads n s ↔
    (∃ k r, runFor step k s = some r) ∧ ∀ k, ∀ i ∈ readsFor step reads k s, i < n := by
  constructor
  · exact fun h => ⟨h.ends, h.inside⟩
  · rintro ⟨⟨k, r, hk⟩, hr⟩
    induction k generalizing s with
    | zero => cases hk
    | succ k ih =>
        cases hs : step s with
        | inr r' =>
            refine .last ?_ hs
            have h := hr 1
            rwa [readsFor_end hs] at h
        | inl s' =>
            have hnext (m : Nat) : ∀ i ∈ reads s ++ readsFor step reads m s', i < n := by
              have h := hr (m + 1)
              rwa [readsFor_next hs] at h
            rw [runFor_next hs] at hk
            exact .next (List.forall_mem_append.1 (hnext 0)).1 hs
              (ih (fun m => (List.forall_mem_append.1 (hnext m)).2) hk)

/-! ## Loops in a circle -/

/-- The state after `k` rounds, where the loop has not ended. -/
def after (step : σ → σ ⊕ ρ) : Nat → σ → Option σ
  | 0, s => some s
  | k + 1, s =>
      match step s with
      | .inl s' => after step k s'
      | .inr _ => none

theorem after_next (h : step s = .inl s') : after step (k + 1) s = after step k s' := by rw [after, h]

theorem after_end (h : step s = .inr r) : after step (k + 1) s = none := by rw [after, h]

theorem after_add (step : σ → σ ⊕ ρ) (k m : Nat) (s : σ) :
    after step (k + m) s = (after step k s).bind (after step m) := by
  induction k generalizing s with
  | zero => rw [Nat.zero_add, after, Option.bind_some]
  | succ k ih =>
      rw [Nat.add_right_comm]
      cases hs : step s with
      | inl s' => rw [after_next hs, after_next hs, ih]
      | inr r' => rw [after_end hs, after_end hs, Option.bind_none]

theorem runFor_eq_none : runFor step k s = none ↔ (after step k s).isSome := by
  induction k generalizing s with
  | zero => simp [runFor, after]
  | succ k ih =>
      cases hs : step s with
      | inl s' => rw [runFor_next hs, after_next hs, ih]
      | inr r' => simp [runFor_end hs, after_end hs]

/-- States that agree on what decides go on in the same way. -/
theorem after_alike {I : σ → Prop} {key : σ → Nat} (hkeep : ∀ s s', I s → step s = .inl s' → I s')
    (hkey : ∀ s t s', I s → I t → key s = key t → step s = .inl s' → ∃ t', step t = .inl t' ∧ key s' = key t')
    {t : σ} (hs : I s) (ht : I t) (hst : key s = key t) (h : (after step k s).isSome) : (after step k t).isSome := by
  induction k generalizing s t with
  | zero => rfl
  | succ k ih =>
      cases hnext : step s with
      | inr r' =>
          rw [after_end hnext] at h
          cases h
      | inl s' =>
          obtain ⟨t', ht', hst'⟩ := hkey s t s' hs ht hst hnext
          rw [after_next hnext] at h
          rw [after_next ht']
          exact ih (hkeep s s' hs hnext) (hkeep t t' ht ht') hst' h

theorem after_keeps {I : σ → Prop} (hkeep : ∀ s s', I s → step s = .inl s' → I s') (hs : I s)
    (h : after step k s = some s') : I s' := by
  induction k generalizing s with
  | zero =>
      cases h
      exact hs
  | succ k ih =>
      cases hnext : step s with
      | inr r' =>
          rw [after_end hnext] at h
          cases h
      | inl s₁ =>
          rw [after_next hnext] at h
          exact ih (hkeep s s₁ hs hnext) h

/-- A loop that has not ended after more rounds than there are values of what decides never ends: by the pigeonhole
principle a value has come twice, and what was between comes again and again. -/
theorem runFor_never {I : σ → Prop} {key : σ → Nat} (hkeep : ∀ s s', I s → step s = .inl s' → I s')
    (hkey : ∀ s t s', I s → I t → key s = key t → step s = .inl s' → ∃ t', step t = .inl t' ∧ key s' = key t')
    (hlt : ∀ s, I s → key s < n) (hs : I s) (h : runFor step (n + 1) s = none) (k : Nat) :
    runFor step k s = none := by
  rw [runFor_eq_none] at h ⊢
  have hprefix : ∀ j ≤ n + 1, ∃ t, after step j s = some t ∧ I t := by
    intro j hj
    obtain ⟨m, hm⟩ := Nat.exists_eq_add_of_le hj
    rw [hm, after_add] at h
    cases ht : after step j s with
    | none =>
        rw [ht] at h
        cases h
    | some t => exact ⟨t, rfl, after_keeps hkeep hs ht⟩
  have : Nonempty σ := ⟨s⟩
  choose! at_ hat using hprefix
  obtain ⟨i, j, hne, heq⟩ := Fintype.exists_ne_map_eq_of_card_lt
    (fun i : Fin (n + 1) => (⟨key (at_ i), hlt _ (hat i (by omega)).2⟩ : Fin n)) (by simp)
  replace heq : key (at_ i) = key (at_ j) := congrArg Fin.val heq
  wlog hij : i < j generalizing i j with hsymm
  · exact hsymm j i (Ne.symm hne) heq.symm (lt_of_le_of_ne (not_lt.1 hij) (Ne.symm hne))
  have hij : i.val < j.val := hij
  induction k using Nat.strongRecOn with
  | ind k ih =>
      by_cases hk : k ≤ n + 1
      · rw [(hat k hk).1]
        rfl
      · -- as far from `j` as an earlier number of rounds is from `i`
        have hback := ih (k - (j - i)) (by omega)
        rw [show k - (j - i) = i + (k - j) by omega, after_add, (hat i (by omega)).1, Option.bind_some] at hback
        rw [show k = j + (k - j) by omega, after_add, (hat j (by omega)).1, Option.bind_some]
        exact after_alike hkeep hkey (hat i (by omega)).2 (hat j (by omega)).2 heq hback

end TunProxy.Lib.Loop
