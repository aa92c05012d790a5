import Mathlib.Data.List.Basic

/-!
# A word in a text

Two letters are alike where `fold` is the same for both. A word occurs where its first letter is, and the others are
alike.
-/

namespace TunProxy.Lib

variable {α β : Type} {fold : α → β} {word text : List α} {a : α} {p q : Nat}

/-! ## Occurrences -/

/-- The word occurs at the place `p` of the text. -/
structure OccursAt (fold : α → β) (word text : List α) (p : Nat) : Prop where
  head : text[p]? = word.head?
  alike : ((text.drop p).take word.length).map fold = word.map fold

def Occurs (fold : α → β) (word text : List α) : Prop := ∃ p, OccursAt fold word text p

structure FirstAt (fold : α → β) (word text : List α) (p : Nat) : Prop where
  occurs : OccursAt fold word text p
  first : ∀ i < p, ¬OccursAt fold word text i

theorem OccursAt.length_le (h : OccursAt fold word text p) : p + word.length ≤ text.length ∨ word = [] := by
  have hlen := congrArg List.length h.alike
  simp only [List.length_map, List.length_take, List.length_drop] at hlen
  by_cases hw : word.length = 0
  · exact .inr (List.length_eq_zero_iff.1 hw)
  · left
    omega

theorem FirstAt.unique (h : FirstAt fold word text p) (h' : FirstAt fold word text q) : p = q := by
  obtain hlt | heq | hgt := Nat.lt_trichotomy p q
  · exact absurd h.occurs (h'.first p hlt)
  · exact heq
  · exact absurd h'.occurs (h.first q hgt)

theorem occursAt_succ : OccursAt fold word (a :: text) (p + 1) ↔ OccursAt fold word text p :=
  ⟨fun h => ⟨h.head, h.alike⟩, fun h => ⟨h.head, h.alike⟩⟩

theorem occurs_cons : Occurs fold word (a :: text) ↔ OccursAt fold word (a :: text) 0 ∨ Occurs fold word text := by
  constructor
  · rintro ⟨p, h⟩
    cases p with
    | zero => exact .inl h
    | succ p => exact .inr ⟨p, occursAt_succ.1 h⟩
  · rintro (h | ⟨p, h⟩)
    · exact ⟨0, h⟩
    · exact ⟨p + 1, occursAt_succ.2 h⟩

theorem firstAt_zero (h : OccursAt fold word text 0) : FirstAt fold word text 0 :=
  ⟨h, fun _ hi => absurd hi (Nat.not_lt_zero _)⟩

theorem FirstAt.cons (h : FirstAt fold word text p) (h₀ : ¬OccursAt fold word (a :: text) 0) :
    FirstAt fold word (a :: text) (p + 1) := by
  refine ⟨occursAt_succ.2 h.occurs, fun i hi => ?_⟩
  cases i with
  | zero => exact h₀
  | succ i => exact fun ho => h.first i (Nat.lt_of_succ_lt_succ hi) (occursAt_succ.1 ho)

/-- Only so many letters at the end of the text are too few. -/
theorem not_occurs_of_length (h : text.length < word.length) : ¬Occurs fold word text := by
  rintro ⟨p, hp⟩
  obtain hle | rfl := hp.length_le
  · omega
  · exact absurd h (Nat.not_lt_zero _)

/-! ## The comparison -/

variable [DecidableEq β]

/-- Compares the word with the beginning of the text, up to the first letter that is not alike: none where the text ends
before. -/
def compareTo (fold : α → β) : (word text : List α) → Option Bool
  | [], _ => some true
  | _ :: _, [] => none
  | c :: word, b :: text => if fold b = fold c then compareTo fold word text else some false

theorem compareTo_true : compareTo fold word text = some true ↔ (text.take word.length).map fold = word.map fold := by
  induction word generalizing text with
  | nil => simp [compareTo]
  | cons c word ih =>
      cases text with
      | nil => simp [compareTo]
      | cons b text =>
          rw [compareTo, List.length_cons, List.take_succ_cons, List.map_cons, List.map_cons, List.cons.injEq, ← ih]
          split
          · rename_i h
            exact (and_iff_right h).symm
          · rename_i h
            simp [h]

/-- The text is like the beginning of the word, which is longer. -/
theorem compareTo_none :
    compareTo fold word text = none ↔ text.length < word.length ∧ text.map fold = (word.take text.length).map fold := by
  induction word generalizing text with
  | nil => simp [compareTo]
  | cons c word ih =>
      cases text with
      | nil => simp [compareTo]
      | cons b text =>
          rw [compareTo, List.length_cons, List.length_cons, List.take_succ_cons, List.map_cons, List.map_cons,
            List.cons.injEq, Nat.add_lt_add_iff_right]
          split
          · rename_i h
            rw [ih, and_iff_right h]
          · rename_i h
            simp [h]

theorem occursAt_zero :
    OccursAt fold word (a :: text) 0 ↔ some a = word.head? ∧ compareTo fold word (a :: text) = some true := by
  rw [compareTo_true]
  exact ⟨fun h => ⟨h.head, h.alike⟩, fun h => ⟨h.1, h.2⟩⟩

end TunProxy.Lib
