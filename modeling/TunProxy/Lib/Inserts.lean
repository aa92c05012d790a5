import Mathlib.Data.List.AList
import Mathlib.Data.List.Induction

/-!
# A table filled from a list

The entries are inserted one after the other: the last one with a key is what the table has for the key.
-/

namespace TunProxy.Lib

variable {α β : Type} {entries : List (α × β)} {k : α} {v : β}

/-! ## The last entry with a key -/

/-- The entry is in the list, and none behind it has its key. -/
def LastOf (entries : List (α × β)) (k : α) (v : β) : Prop :=
  ∃ before after, entries = before ++ (k, v) :: after ∧ ∀ e ∈ after, e.1 ≠ k

theorem LastOf.mem (h : LastOf entries k v) : (k, v) ∈ entries := by
  obtain ⟨before, after, rfl, -⟩ := h
  exact List.mem_append_right _ List.mem_cons_self

theorem lastOf_snoc {e : α × β} : LastOf (entries ++ [e]) k v ↔ e = (k, v) ∨ e.1 ≠ k ∧ LastOf entries k v := by
  constructor
  · rintro ⟨before, after, heq, hlast⟩
    cases after using List.reverseRecOn with
    | nil =>
        left
        exact List.singleton_inj.1 (List.append_inj' heq rfl).2
    | append_singleton after e' =>
        rw [← List.cons_append, ← List.append_assoc] at heq
        obtain ⟨hentries, he⟩ := List.append_inj' heq rfl
        obtain rfl := List.singleton_inj.1 he
        right
        exact ⟨hlast e (by simp), before, after, hentries, fun e' he' => hlast e' (by simp [he'])⟩
  · rintro (rfl | ⟨hne, before, after, rfl, hlast⟩)
    · exact ⟨entries, [], rfl, by simp⟩
    · refine ⟨before, after ++ [e], by simp, fun e' he' => ?_⟩
      rcases List.mem_append.1 he' with he' | he'
      · exact hlast e' he'
      · rwa [List.mem_singleton.1 he']

/-- Of the entries with a key there is a last one. -/
theorem lastOf_or_none (entries : List (α × β)) (k : α) : (∃ v, LastOf entries k v) ∨ ∀ e ∈ entries, e.1 ≠ k := by
  induction entries using List.reverseRecOn with
  | nil =>
      right
      simp
  | append_singleton entries e ih =>
      by_cases he : e.1 = k
      · left
        exact ⟨e.2, lastOf_snoc.2 (.inl (by rw [← he]))⟩
      · rcases ih with ⟨v, hv⟩ | hnone
        · left
          exact ⟨v, lastOf_snoc.2 (.inr ⟨he, hv⟩)⟩
        · right
          intro e' he'
          rcases List.mem_append.1 he' with he' | he'
          · exact hnone e' he'
          · rwa [List.mem_singleton.1 he']

/-! ## The table -/

variable [DecidableEq α] {table : AList fun _ : α => β}

def insertAll (table : AList fun _ : α => β) (entries : List (α × β)) : AList fun _ : α => β :=
  entries.foldl (fun table e => table.insert e.1 e.2) table

@[simp] theorem insertAll_nil : insertAll table [] = table := rfl

@[simp] theorem insertAll_cons {e : α × β} :
    insertAll table (e :: entries) = insertAll (table.insert e.1 e.2) entries := rfl

theorem insertAll_append (entries' : List (α × β)) :
    insertAll table (entries ++ entries') = insertAll (insertAll table entries) entries' := List.foldl_append

/-- Where no entry has the key, the table is as before. -/
theorem lookup_insertAll_of_not (h : ∀ e ∈ entries, e.1 ≠ k) : (insertAll table entries).lookup k = table.lookup k := by
  induction entries generalizing table with
  | nil => rfl
  | cons e entries ih =>
      rw [insertAll_cons, ih fun e' he' => h e' (List.mem_cons_of_mem _ he')]
      exact AList.lookup_insert_ne (h e List.mem_cons_self).symm

theorem lookup_insertAll_of_last (h : LastOf entries k v) : (insertAll table entries).lookup k = some v := by
  obtain ⟨before, after, rfl, hlast⟩ := h
  rw [insertAll_append, insertAll_cons, lookup_insertAll_of_not hlast]
  exact AList.lookup_insert _

/-- What a table that was empty has for a key. -/
theorem lookup_insertAll_empty : (insertAll ∅ entries).lookup k = some v ↔ LastOf entries k v := by
  constructor
  · intro h
    rcases lastOf_or_none entries k with ⟨v', hlast⟩ | hnone
    · rw [lookup_insertAll_of_last hlast] at h
      cases h
      exact hlast
    · rw [lookup_insertAll_of_not hnone] at h
      cases h
  · exact lookup_insertAll_of_last

theorem mem_insertAll : k ∈ insertAll table entries ↔ (∃ e ∈ entries, e.1 = k) ∨ k ∈ table := by
  induction entries generalizing table with
  | nil => simp
  | cons e entries ih =>
      rw [insertAll_cons, ih, AList.mem_insert, List.exists_mem_cons_iff, or_assoc, or_left_comm, eq_comm]

end TunProxy.Lib
