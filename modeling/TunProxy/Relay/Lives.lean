import Mathlib.Data.List.Basic

/-!
# The lives of paired objects

Objects are constructed, two of them may be paired, and to dispose one disposes the other with it. A count says how many
live.
-/

namespace TunProxy.Relay

/-- An object refers to its brother by its place among all objects. `connected` says whether it still has its channel,
and `disposals` how often it was disposed. -/
structure Life where
  connected : Bool
  brother : Option Nat := none
  disposed : Bool := false
  disposals : Nat := 0
  deriving DecidableEq, Repr

def Life.clear (u : Life) : Life :=
  { connected := false, brother := none, disposed := true, disposals := u.disposals + 1 }

structure Lives where
  objects : List Life
  count : Int
  paired : List (Nat × Nat)
  deriving DecidableEq, Repr

namespace Lives

def construct (connected : Bool) (l : Lives) : Lives :=
  { l with objects := l.objects ++ [{ connected }], count := l.count + 1 }

def setBrother (a b : Nat) (l : Lives) : Lives :=
  { l with objects := l.objects.modify a fun u => { u with brother := some b }, paired := (a, b) :: l.paired }

def clear (a : Nat) (l : Lives) : Lives :=
  { l with objects := l.objects.modify a Life.clear, count := l.count - 1 }

/-- The object alone. -/
def drop (a : Nat) (l : Lives) : Lives :=
  match l.objects[a]? with
  | none => l
  | some u => if u.disposed then l else l.clear a

/-- The object and its brother. -/
def dispose (a : Nat) (l : Lives) : Lives :=
  match l.objects[a]? with
  | none => l
  | some u =>
      if u.disposed then l
      else
        match u.brother with
        | none => l.clear a
        | some b => (l.drop b).clear a

/-- Two new objects that refer to each other. -/
def constructPair (connected : Bool) (l : Lives) : Lives :=
  let a := l.objects.length
  (((l.construct connected).construct true).setBrother (a + 1) a).setBrother a (a + 1)

/-! ## The invariant -/

def Gone (l : Lives) (a : Nat) : Prop := ∃ u, l.objects[a]? = some u ∧ u.disposed = true

/-- Both live, and they refer to each other. -/
structure Mutual (l : Lives) (a b : Nat) : Prop where
  ne : a ≠ b
  left : ∃ u, l.objects[a]? = some u ∧ u.disposed = false ∧ u.brother = some b
  right : ∃ v, l.objects[b]? = some v ∧ v.disposed = false ∧ v.brother = some a

structure Counted (l : Lives) : Prop where
  count : l.count = l.objects.countP fun u => !u.disposed
  disposals : ∀ (a : Nat) (u : Life), l.objects[a]? = some u → u.disposals = u.disposed.toNat
  cleared : ∀ (a : Nat) (u : Life), l.objects[a]? = some u → u.disposed = true → u.connected = false ∧ u.brother = none
  linked : ∀ (a : Nat) (u : Life) b, l.objects[a]? = some u → u.brother = some b → (a, b) ∈ l.paired

structure Balanced (l : Lives) : Prop extends Counted l where
  pairs : ∀ a b, (a, b) ∈ l.paired → l.Mutual a b ∨ l.Gone a ∧ l.Gone b

variable {l : Lives} {a b c d t : Nat} {u v : Life} {connected : Bool}

/-! ## What the operations keep -/

theorem countP_modify {α : Type} {p : α → Bool} {f : α → α} {xs : List α} {i : Nat} {x : α} (h : xs[i]? = some x)
    (hx : p x = true) (hf : p (f x) = false) : (xs.modify i f).countP p + 1 = xs.countP p := by
  induction xs generalizing i with
  | nil => cases h
  | cons y xs ih =>
      cases i with
      | zero =>
          cases h
          simp [hx, hf]
      | succ i =>
          have := ih (i := i) h
          simp only [List.modify_succ_cons, List.countP_cons]
          omega

theorem objects_clear : (l.clear t).objects[a]? = if t = a then l.objects[a]?.map Life.clear else l.objects[a]? := by
  rw [clear, List.getElem?_modify]
  split
  · rfl
  · simp

theorem Counted.clear (h : Counted l) (hu : l.objects[t]? = some u) (hl : u.disposed = false) :
    Counted (l.clear t) where
  count := by
    have hc := countP_modify (p := fun u => !u.disposed) (f := Life.clear) hu (by simp [hl]) rfl
    have hcount := h.count
    show l.count - 1 = ((l.objects.modify t Life.clear).countP _ : Nat)
    omega
  disposals := by
    intro a v hv
    rw [objects_clear] at hv
    split at hv
    · rename_i ha
      rw [← ha, hu] at hv
      cases hv
      rw [Life.clear, h.disposals t u hu, hl]
      rfl
    · exact h.disposals a v hv
  cleared := by
    intro a v hv hd
    rw [objects_clear] at hv
    split at hv
    · obtain ⟨w, -, rfl⟩ := Option.map_eq_some_iff.1 hv
      exact ⟨rfl, rfl⟩
    · exact h.cleared a v hv hd
  linked := by
    intro a v b hv hb
    rw [objects_clear] at hv
    split at hv
    · obtain ⟨w, -, rfl⟩ := Option.map_eq_some_iff.1 hv
      cases hb
    · exact h.linked a v b hv hb

theorem Gone.clear (h : l.Gone a) : (l.clear t).Gone a := by
  obtain ⟨u, hu, hd⟩ := h
  rw [Gone, objects_clear, hu]
  split
  · exact ⟨_, rfl, rfl⟩
  · exact ⟨u, rfl, hd⟩

theorem gone_clear (h : l.objects[t]? = some u) : (l.clear t).Gone t := by
  rw [Gone, objects_clear, if_pos rfl, h]
  exact ⟨_, rfl, rfl⟩

theorem Mutual.clear (h : l.Mutual a b) (ha : t ≠ a) (hb : t ≠ b) : (l.clear t).Mutual a b := by
  obtain ⟨hne, hleft, hright⟩ := h
  refine ⟨hne, ?_, ?_⟩
  · rw [objects_clear, if_neg ha]
    exact hleft
  · rw [objects_clear, if_neg hb]
    exact hright

theorem Mutual.symm (h : l.Mutual a b) : l.Mutual b a := ⟨h.ne.symm, h.right, h.left⟩

theorem Mutual.brother (h : l.Mutual a b) (hu : l.objects[a]? = some u) : u.brother = some b := by
  obtain ⟨w, hw, -, hwb⟩ := h.left
  rw [hu] at hw
  cases hw
  exact hwb

theorem Balanced.dispose (h : Balanced l) : Balanced (l.dispose t) := by
  unfold Lives.dispose
  split
  · exact h
  rename_i u hu
  split
  · exact h
  rename_i hd
  rw [Bool.not_eq_true] at hd
  split
  · rename_i hb
    refine ⟨h.toCounted.clear hu hd, fun c d hcd => ?_⟩
    obtain hm | ⟨hc, hd⟩ := h.pairs c d hcd
    · refine .inl (hm.clear ?_ ?_)
      · rintro rfl
        cases hb.symm.trans (hm.brother hu)
      · rintro rfl
        cases hb.symm.trans (hm.symm.brother hu)
    · exact .inr ⟨hc.clear, hd.clear⟩
  · rename_i b hb
    obtain hm | ⟨⟨w, hw, hwd⟩, -⟩ := h.pairs t b (h.linked t u b hu hb)
    · obtain ⟨hne, -, v, hv, hvd, hvt⟩ := hm
      have hdrop : l.drop b = l.clear b := by
        unfold drop
        rw [hv]
        simp [hvd]
      rw [hdrop]
      have hut : (l.clear b).objects[t]? = some u := by rw [objects_clear, if_neg (Ne.symm hne), hu]
      refine ⟨(h.toCounted.clear hv hvd).clear hut hd, fun c d hcd => ?_⟩
      obtain hm | ⟨hc, hd⟩ := h.pairs c d hcd
      · by_cases hct : c = t
        · subst hct
          cases hb.symm.trans (hm.brother hu)
          exact .inr ⟨gone_clear hut, (gone_clear hv).clear⟩
        by_cases hcb : c = b
        · subst hcb
          cases hvt.symm.trans (hm.brother hv)
          exact .inr ⟨(gone_clear hv).clear, gone_clear hut⟩
        -- what refers to neither is neither
        refine .inl ((hm.clear (Ne.symm hcb) ?_).clear (Ne.symm hct) ?_)
        · rintro rfl
          exact hct (Option.some.inj ((hm.symm.brother hv).symm.trans hvt))
        · rintro rfl
          exact hcb (Option.some.inj ((hm.symm.brother hu).symm.trans hb))
      · exact .inr ⟨hc.clear.clear, hd.clear.clear⟩
    · rw [hu] at hw
      cases hw
      rw [hd] at hwd
      cases hwd

/-! ## New objects -/

theorem getElem?_append_cases {α : Type} {xs ys : List α} {x : α} {i : Nat} (h : (xs ++ ys)[i]? = some x) :
    xs[i]? = some x ∨ ∃ j, i = xs.length + j ∧ ys[j]? = some x := by
  by_cases hi : i < xs.length
  · rw [List.getElem?_append_left hi] at h
    exact .inl h
  · rw [List.getElem?_append_right (by omega)] at h
    exact .inr ⟨i - xs.length, by omega, h⟩

theorem getElem?_append_some {α : Type} {xs : List α} {x : α} {i : Nat} (ys : List α) (h : xs[i]? = some x) :
    (xs ++ ys)[i]? = some x := by
  rw [List.getElem?_append_left (List.getElem?_eq_some_iff.1 h).1, h]

/-- Some more objects, which live. -/
structure Extends (l l' : Lives) (new : List Life) : Prop where
  objects : l'.objects = l.objects ++ new
  count : l'.count = l.count + new.length
  paired : ∀ p ∈ l.paired, p ∈ l'.paired
  live : ∀ u ∈ new, u.disposed = false ∧ u.disposals = 0

variable {l' : Lives} {new : List Life}

theorem Extends.gone (h : Extends l l' new) (hg : l.Gone a) : l'.Gone a := by
  obtain ⟨u, hu, hd⟩ := hg
  exact ⟨u, h.objects ▸ getElem?_append_some new hu, hd⟩

theorem Extends.mutual (h : Extends l l' new) (hm : l.Mutual a b) : l'.Mutual a b := by
  obtain ⟨hne, ⟨u, hu, hu'⟩, v, hv, hv'⟩ := hm
  exact ⟨hne, ⟨u, h.objects ▸ getElem?_append_some new hu, hu'⟩, v, h.objects ▸ getElem?_append_some new hv, hv'⟩

theorem Extends.counted (he : Extends l l' new) (h : Counted l)
    (hb : ∀ i u b, new[i]? = some u → u.brother = some b → (l.objects.length + i, b) ∈ l'.paired) : Counted l' where
  count := by
    have hnew : new.countP (fun u => !u.disposed) = new.length :=
      List.countP_eq_length.2 fun u hu => by simp [(he.live u hu).1]
    rw [he.count, h.count, he.objects, List.countP_append, hnew]
    omega
  disposals := by
    intro a u hu
    rw [he.objects] at hu
    obtain hu | ⟨j, -, hu⟩ := getElem?_append_cases hu
    · exact h.disposals a u hu
    · obtain ⟨hd, hc⟩ := he.live u (List.mem_of_getElem? hu)
      rw [hd, hc]
      rfl
  cleared := by
    intro a u hu hd
    rw [he.objects] at hu
    obtain hu | ⟨j, -, hu⟩ := getElem?_append_cases hu
    · exact h.cleared a u hu hd
    · rw [(he.live u (List.mem_of_getElem? hu)).1] at hd
      cases hd
  linked := by
    intro a u b hu hub
    rw [he.objects] at hu
    obtain hold | ⟨j, rfl, hnew⟩ := getElem?_append_cases hu
    · exact he.paired _ (h.linked a u b hold hub)
    · exact hb j u b hnew hub

theorem Balanced.construct (h : Balanced l) : Balanced (l.construct connected) := by
  have he : Extends l (l.construct connected) [{ connected }] :=
    ⟨rfl, rfl, fun _ hp => hp, fun u hu => by rw [List.mem_singleton.1 hu]; exact ⟨rfl, rfl⟩⟩
  refine ⟨he.counted h.toCounted ?_, fun a b hab => ?_⟩
  · intro i u b hu hb
    rw [List.mem_singleton.1 (List.mem_of_getElem? hu)] at hb
    cases hb
  · obtain hm | ⟨ha, hb⟩ := h.pairs a b hab
    · exact .inl (he.mutual hm)
    · exact .inr ⟨he.gone ha, he.gone hb⟩

theorem modify_append {α : Type} {f : α → α} {xs ys : List α} {i : Nat} :
    (xs ++ ys).modify (xs.length + i) f = xs ++ ys.modify i f := by
  induction xs with
  | nil => simp
  | cons x xs ih =>
      rw [List.cons_append, List.length_cons, Nat.add_right_comm, List.modify_succ_cons, ih]
      rfl

/-- The two objects with their links. -/
def pair (connected : Bool) (n : Nat) : List Life :=
  [{ connected, brother := some (n + 1) }, { connected := true, brother := some n }]

theorem constructPair_eq : l.constructPair connected =
    { objects := l.objects ++ pair connected l.objects.length
      count := l.count + 1 + 1
      paired := (l.objects.length, l.objects.length + 1) :: (l.objects.length + 1, l.objects.length) :: l.paired } := by
  simp only [constructPair, Lives.construct, setBrother, List.append_assoc, mk.injEq, and_self, and_true]
  rw [modify_append]
  exact modify_append (i := 0)

theorem Balanced.constructPair (h : Balanced l) : Balanced (l.constructPair connected) := by
  have he : Extends l (l.constructPair connected) (pair connected l.objects.length) := by
    rw [constructPair_eq]
    refine ⟨rfl, ?_, fun p hp => .tail _ (.tail _ hp), ?_⟩
    · show l.count + 1 + 1 = l.count + 2
      omega
    · simp [pair]
  have hleft : (l.constructPair connected).objects[l.objects.length]? =
      some { connected, brother := some (l.objects.length + 1) } := by
    rw [he.objects, List.getElem?_append_right (Nat.le_refl _), Nat.sub_self]
    rfl
  have hright : (l.constructPair connected).objects[l.objects.length + 1]? =
      some { connected := true, brother := some l.objects.length } := by
    rw [he.objects, List.getElem?_append_right (Nat.le_add_right _ _), Nat.add_sub_cancel_left]
    rfl
  have hpaired : ∀ p, p ∈ (l.constructPair connected).paired ↔ p = (l.objects.length, l.objects.length + 1) ∨
      p = (l.objects.length + 1, l.objects.length) ∨ p ∈ l.paired := by
    intro p
    rw [constructPair_eq, List.mem_cons, List.mem_cons]
  refine ⟨he.counted h.toCounted fun i u b hu hb => ?_, fun a b hab => ?_⟩
  · rw [hpaired]
    rcases i with _ | _ | i
    · cases hu
      cases hb
      exact .inl rfl
    · cases hu
      cases hb
      exact .inr (.inl rfl)
    · cases hu
  · obtain hp | hp | hp := (hpaired (a, b)).1 hab
    · cases hp
      exact .inl ⟨Nat.ne_of_lt (Nat.lt_succ_self _), ⟨_, hleft, rfl, rfl⟩, ⟨_, hright, rfl, rfl⟩⟩
    · cases hp
      exact .inl ⟨Nat.ne_of_gt (Nat.lt_succ_self _), ⟨_, hright, rfl, rfl⟩, ⟨_, hleft, rfl, rfl⟩⟩
    · obtain hm | ⟨ha, hb⟩ := h.pairs a b hp
      · exact .inl (he.mutual hm)
      · exact .inr ⟨he.gone ha, he.gone hb⟩

/-! ## Steps -/

/-- What can happen in one step. A new object is disposed at once, alone or with the brother it was given. -/
inductive Step (l : Lives) : Lives → Prop
  | stay : Step l l
  | dispose (a : Nat) : Step l (l.dispose a)
  | reject (connected : Bool) : Step l ((l.construct connected).dispose l.objects.length)
  | pair (connected : Bool) : Step l (l.constructPair connected)
  | fail (connected : Bool) : Step l ((l.constructPair connected).dispose l.objects.length)

theorem Step.balanced (h : Step l l') (hb : Balanced l) : Balanced l' := by
  cases h with
  | stay => exact hb
  | dispose a => exact hb.dispose
  | reject connected => exact hb.construct.dispose
  | pair connected => exact hb.constructPair
  | fail connected => exact hb.constructPair.dispose

/-- Who was paired once, is so for ever. -/
theorem Step.paired {p : Nat × Nat} (h : Step l l') (hp : p ∈ l.paired) : p ∈ l'.paired := by
  have hdispose (l : Lives) (a : Nat) : (l.dispose a).paired = l.paired := by
    unfold Lives.dispose
    split
    · rfl
    split
    · rfl
    split
    · rfl
    unfold Lives.drop
    split
    · rfl
    split
    · rfl
    · rfl
  cases h with
  | stay => exact hp
  | dispose a => rwa [hdispose]
  | reject connected => rwa [hdispose]
  | pair connected => exact .tail _ (.tail _ hp)
  | fail connected =>
      rw [hdispose]
      exact .tail _ (.tail _ hp)

theorem balanced_empty : Balanced { objects := [], count := 0, paired := [] } where
  count := rfl
  disposals a u h := by cases h
  cleared a u h := by cases h
  linked a u b h := by cases h
  pairs a b h := by cases h

end Lives

end TunProxy.Relay
