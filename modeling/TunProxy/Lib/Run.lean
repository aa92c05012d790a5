import Mathlib.Data.List.Basic

/-!
# Runs of a step function

A deterministic program that waits for an input, handles it and waits for the next one is a
function `step`; a run feeds it a list of inputs. The condition `ok s i` says which input may be fed
in which state: what the environment promises, or what a theorem assumes of each step.
-/

namespace TunProxy.Lib

variable {σ ι : Type*} {step : σ → ι → σ} {ok ok' : σ → ι → Prop} {s₀ s : σ} {is js : List ι}

/-- Fed the inputs `is` from `s₀`, the program ends in `s`; every input met `ok` when it was fed. -/
inductive Run (step : σ → ι → σ) (ok : σ → ι → Prop) (s₀ : σ) : List ι → σ → Prop
  | nil : Run step ok s₀ [] s₀
  | snoc {is s i} : Run step ok s₀ is s → ok s i → Run step ok s₀ (is ++ [i]) (step s i)

/-- What holds at the start and is kept by every allowed step holds at the end of every run. -/
theorem Run.invariant {I : List ι → σ → Prop} (h : Run step ok s₀ is s) (h₀ : I [] s₀)
    (hs : ∀ is s i, I is s → ok s i → I (is ++ [i]) (step s i)) : I is s := by
  induction h with
  | nil => exact h₀
  | snoc _ hok ih => exact hs _ _ _ ih hok

/-- The same for a property of the state alone. -/
theorem Run.invariant' {I : σ → Prop} (h : Run step ok s₀ is s) (h₀ : I s₀)
    (hs : ∀ s i, I s → ok s i → I (step s i)) : I s :=
  h.invariant (I := fun _ => I) h₀ (fun _ => hs)

theorem Run.mono (hok : ∀ s i, ok s i → ok' s i) (h : Run step ok s₀ is s) :
    Run step ok' s₀ is s := by
  induction h with
  | nil => exact .nil
  | snoc _ hi ih => exact .snoc ih (hok _ _ hi)

/-- What is right of every input of the list is right of the input of every step. -/
theorem Run.and {p : ι → Prop} (h : Run step ok s₀ is s) (hp : ∀ i ∈ is, p i) :
    Run step (fun s i => ok s i ∧ p i) s₀ is s := by
  induction h with
  | nil => exact .nil
  | snoc _ hi ih =>
      exact .snoc (ih fun j hj => hp j (List.mem_append_left _ hj)) ⟨hi, hp _ (List.mem_append_right _ (by simp))⟩

theorem Run.append {s₁ s₂ : σ} (h₁ : Run step ok s₀ is s₁) (h₂ : Run step ok s₁ js s₂) :
    Run step ok s₀ (is ++ js) s₂ := by
  induction h₂ with
  | nil => simpa using h₁
  | snoc _ hi ih =>
      rw [← List.append_assoc]
      exact .snoc ih hi

theorem Run.eq_foldl (h : Run step ok s₀ is s) : s = is.foldl step s₀ := by
  induction h with
  | nil => rfl
  | snoc _ _ ih => simp [← ih]

/-- Every input of the list meets the condition in the state it is fed in. -/
def AllOk (step : σ → ι → σ) (ok : σ → ι → Prop) : σ → List ι → Prop
  | _, [] => True
  | s, i :: is => ok s i ∧ AllOk step ok (step s i) is

instance AllOk.decidable [∀ s i, Decidable (ok s i)] :
    (s : σ) → (is : List ι) → Decidable (AllOk step ok s is)
  | _, [] => .isTrue trivial
  | s, i :: is =>
      have := AllOk.decidable (step s i) is
      inferInstanceAs (Decidable (ok s i ∧ AllOk step ok (step s i) is))

/-- A list of allowed inputs is a run, to the state the program computes. -/
theorem Run.ofAllOk (h : AllOk step ok s₀ is) : Run step ok s₀ is (is.foldl step s₀) := by
  induction is generalizing s₀ with
  | nil => exact .nil
  | cons i is ih => exact Run.append (.snoc .nil h.1) (ih h.2)

theorem AllOk.snoc {i : ι} : AllOk step ok s (is ++ [i]) ↔ AllOk step ok s is ∧ ok (is.foldl step s) i := by
  induction is generalizing s with
  | nil => simp [AllOk]
  | cons j is ih => simp [AllOk, ih, and_assoc]

/-- Where every input is allowed, every list of inputs is a run. -/
theorem Run.ofList (step : σ → ι → σ) (s₀ : σ) (is : List ι) :
    Run step (fun _ _ => True) s₀ is (is.foldl step s₀) := by
  refine Run.ofAllOk ?_
  induction is generalizing s₀ with
  | nil => trivial
  | cons i is ih => exact ⟨trivial, ih _⟩

end TunProxy.Lib
