import Mathlib.Data.BitVec
import Mathlib.Data.List.AList
import Mathlib.Logic.Function.Basic
import Mathlib.Order.Basic

/-!
# A table that forgets

Each entry has the time of its last use, as a clock of 64 bits shows it. What has not been used for longer than `ttl`
may be cleared away at any time; what was used since then is in the table.
-/

namespace TunProxy.Lib.Expiring

variable {κ ν : Type*} {stamp : ν → BitVec 64} {ttl start now m n : Nat} {k k' : κ} {v : ν}
  {t : AList fun _ : κ => ν} {last last' last₁ : κ → Option Nat}

/-- What the clock shows at the time `n`. -/
def shown (n : Nat) : BitVec 64 := BitVec.ofNat 64 n

/-- The difference of two times is right as long as it has a sign. -/
theorem shown_sub (hle : m ≤ n) (hlt : n < m + 2 ^ 63) : (shown n - shown m).toInt = (n - m : Nat) := by
  have hsub : shown n - shown m = BitVec.ofNat 64 (n - m) := by
    apply BitVec.eq_of_toNat_eq
    simp only [shown, BitVec.toNat_sub, BitVec.toNat_ofNat]
    omega
  rw [hsub, BitVec.toInt_eq_toNat_cond, BitVec.toNat_ofNat]
  split <;> omega

/-- The entries that are not too old. -/
def clear (stamp : ν → BitVec 64) (ttl : Int) (now : BitVec 64) (t : AList fun _ : κ => ν) : AList fun _ : κ => ν where
  entries := t.entries.filter fun e => (now - stamp e.2).toInt ≤ ttl
  nodupKeys := t.nodupKeys.sublist List.filter_sublist

/-- The times of last use are no earlier. -/
def Advances (last last' : κ → Option Nat) : Prop := ∀ k n, last k = some n → ∃ n', last' k = some n' ∧ n ≤ n'

theorem Advances.refl (last : κ → Option Nat) : Advances last last := fun _ n h => ⟨n, h, Nat.le_refl n⟩

theorem Advances.trans (h : Advances last last₁) (h' : Advances last₁ last') : Advances last last' := by
  intro k n hk
  obtain ⟨n₁, hk₁, hle₁⟩ := h k n hk
  obtain ⟨n', hk', hle'⟩ := h' k n₁ hk₁
  exact ⟨n', hk', hle₁.trans hle'⟩

section Table

variable [DecidableEq κ]

theorem lookup_clear {ttl : Int} {now : BitVec 64} :
    (clear stamp ttl now t).lookup k = some v ↔ t.lookup k = some v ∧ (now - stamp v).toInt ≤ ttl := by
  rw [← Option.mem_def, ← Option.mem_def, AList.mem_lookup_iff, AList.mem_lookup_iff]
  simp [clear]

/-- `last` has the times of last use, all of them from `start` to `now`: each entry shows its own, and an entry used
within `ttl` is there. -/
structure Tracks (stamp : ν → BitVec 64) (ttl start : Nat) (t : AList fun _ : κ => ν) (last : κ → Option Nat)
    (now : Nat) : Prop where
  start_le : start ≤ now
  between : ∀ k n, last k = some n → start ≤ n ∧ n ≤ now
  shows : ∀ k v, t.lookup k = some v → ∃ n, last k = some n ∧ stamp v = shown n
  kept : ∀ k n, last k = some n → now ≤ n + ttl → k ∈ t

theorem Tracks.empty (stamp : ν → BitVec 64) (ttl start : Nat) :
    Tracks stamp ttl start (∅ : AList fun _ : κ => ν) (fun _ => none) start :=
  ⟨Nat.le_refl _, by simp, by simp, by simp⟩

theorem Tracks.wait (h : Tracks stamp ttl start t last now) (hn : now ≤ n) : Tracks stamp ttl start t last n := by
  refine ⟨h.start_le.trans hn, fun k m hk => ?_, h.shows, fun k m hk hle => h.kept k m hk (hn.trans hle)⟩
  have := h.between k m hk
  omega

/-- An entry is put in with the time `m`. -/
theorem Tracks.insert (h : Tracks stamp ttl start t last now) (hn : now ≤ n) (hm : start ≤ m) (hmn : m ≤ n)
    (hv : stamp v = shown m) : Tracks stamp ttl start (t.insert k v) (Function.update last k (some m)) n := by
  refine ⟨h.start_le.trans hn, fun k' m' hk => ?_, fun k' v' hk => ?_, fun k' m' hk hle => ?_⟩
  · by_cases hkk : k' = k
    · subst hkk
      simp only [Function.update_self, Option.some.injEq] at hk
      exact hk ▸ ⟨hm, hmn⟩
    · rw [Function.update_of_ne hkk] at hk
      exact (h.between k' m' hk).imp_right fun h => h.trans hn
  · by_cases hkk : k' = k
    · subst hkk
      rw [AList.lookup_insert, Option.some.injEq] at hk
      exact ⟨m, Function.update_self .., hk ▸ hv⟩
    · rw [AList.lookup_insert_ne hkk] at hk
      rw [Function.update_of_ne hkk]
      exact h.shows k' v' hk
  · by_cases hkk : k' = k
    · simp [hkk]
    · rw [Function.update_of_ne hkk] at hk
      exact (AList.mem_insert _).2 (.inr (h.kept k' m' hk (hn.trans hle)))

/-- An entry is used. -/
theorem Tracks.use (h : Tracks stamp ttl start t last now) (hn : now ≤ n) (hv : stamp v = shown n) :
    Tracks stamp ttl start (t.insert k v) (Function.update last k (some n)) n :=
  h.insert hn (h.start_le.trans hn) (Nat.le_refl n) hv

theorem Tracks.advances (h : Tracks stamp ttl start t last now) (hn : now ≤ n) :
    Advances last (Function.update last k (some n)) := by
  intro k' m hk
  by_cases hkk : k' = k
  · subst hkk
    exact ⟨n, Function.update_self .., (h.between k' m hk).2.trans hn⟩
  · rw [Function.update_of_ne hkk]
    exact ⟨m, hk, Nat.le_refl m⟩

theorem Tracks.erase (h : Tracks stamp ttl start t last now) :
    Tracks stamp ttl start (t.erase k) (Function.update last k none) now := by
  refine ⟨h.start_le, fun k' m hk => ?_, fun k' v' hk => ?_, fun k' m hk hle => ?_⟩
  · by_cases hkk : k' = k
    · simp [hkk] at hk
    · rw [Function.update_of_ne hkk] at hk
      exact h.between k' m hk
  · by_cases hkk : k' = k
    · rw [hkk, AList.lookup_erase] at hk
      cases hk
    · rw [AList.lookup_erase_ne hkk] at hk
      rw [Function.update_of_ne hkk]
      exact h.shows k' v' hk
  · by_cases hkk : k' = k
    · simp [hkk] at hk
    · rw [Function.update_of_ne hkk] at hk
      exact AList.mem_erase.2 ⟨hkk, h.kept k' m hk hle⟩

/-- Old entries are cleared away. -/
theorem Tracks.clear (h : Tracks stamp ttl start t last now) (hn : now ≤ n) (hlt : n < start + 2 ^ 63) :
    Tracks stamp ttl start (clear stamp ttl (shown n) t) last n := by
  have hwait := h.wait hn
  refine ⟨hwait.start_le, hwait.between, fun k v hk => h.shows k v (lookup_clear.1 hk).1, fun k m hk hle => ?_⟩
  obtain ⟨v, hv⟩ := Option.isSome_iff_exists.1 (AList.lookup_isSome.2 (hwait.kept k m hk hle))
  obtain ⟨m', hm', hstamp⟩ := h.shows k v hv
  rw [hk, Option.some.injEq] at hm'
  subst hm'
  obtain ⟨hstart, hmn⟩ := hwait.between k m hk
  refine AList.lookup_isSome.1 (Option.isSome_iff_exists.2 ⟨v, lookup_clear.2 ⟨hv, ?_⟩⟩)
  rw [hstamp, shown_sub hmn (by omega)]
  omega

/-- What is left was used within `ttl`. -/
theorem Tracks.of_clear (h : Tracks stamp ttl start t last now) (hn : now ≤ n) (hlt : n < start + 2 ^ 63)
    (hk : (Expiring.clear stamp ttl (shown n) t).lookup k = some v) : ∃ m, stamp v = shown m ∧ n ≤ m + ttl := by
  obtain ⟨hv, hle⟩ := lookup_clear.1 hk
  obtain ⟨m, hm, hstamp⟩ := h.shows k v hv
  obtain ⟨hstart, hmn⟩ := (h.wait hn).between k m hm
  rw [hstamp, shown_sub hmn (by omega)] at hle
  exact ⟨m, hstamp, by omega⟩

end Table

end TunProxy.Lib.Expiring
