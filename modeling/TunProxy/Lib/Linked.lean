import Mathlib.Data.List.AList

/-!
# Linked lists in memory

Blocks at addresses, each with a pointer to the next one. The loops follow the pointers: there is no result where they
read a block that is not allocated, or go round in a circle. On a list that hangs together they do what the functions on
Lean's lists do.
-/

namespace TunProxy.Lib.Linked

/-- A block: what it holds, and its pointer `next`. -/
structure Node (α : Type*) where
  val : α
  next : Option Nat

/-- The allocated blocks. -/
abbrev Heap (α : Type*) := AList fun _ : Nat => Node α

variable {α σ : Type*} {h h' : Heap α} {p q r : Option Nat} {a b : Nat} {v : α} {l l₁ l₂ : List (Nat × α)}

abbrev addresses (l : List (Nat × α)) : List Nat := l.map Prod.fst

/-- The pointers lead from `p` through these blocks to `q`. -/
inductive Seg (h : Heap α) (q : Option Nat) : Option Nat → List (Nat × α) → Prop
  | nil : Seg h q q []
  | cons {a v n l} (hb : h.lookup a = some ⟨v, n⟩) (hs : Seg h q n l) : Seg h q (some a) ((a, v) :: l)

/-- The list at `p`; no other block is allocated. -/
structure Holds (h : Heap α) (p : Option Nat) (l : List (Nat × α)) : Prop where
  seg : Seg h none p l
  owned : ∀ a, h.lookup a ≠ none → a ∈ addresses l

/-! ## The loops -/

/-- A loop over the blocks in `h` that has not ended after so many rounds is in a circle. -/
def rounds (h : Heap α) : Nat := h.keys.length + 1

/-- `while (s != NULL && !test(s)) s = s->next;`, and the pointer at its end. -/
def find (h : Heap α) (test : α → Bool) : (rounds : Nat) → (s : Option Nat) → Option (Option Nat)
  | 0, _ => none
  | _ + 1, none => some none
  | rounds + 1, some a =>
      match h.lookup a with
      | none => none
      | some node => if test node.val then some (some a) else find h test rounds node.next

/-- `while (s != NULL) { body(s); s = s->next; }`. The other result of `body` is what it works on beside the block. -/
def each (body : Nat → α → σ → α × σ) : (rounds i : Nat) → Heap α → σ → (s : Option Nat) → Option (Heap α × σ)
  | 0, _, _, _, _ => none
  | _ + 1, _, h, x, none => some (h, x)
  | rounds + 1, i, h, x, some a =>
      match h.lookup a with
      | none => none
      | some node =>
          let (v, x) := body i node.val x
          each body rounds (i + 1) (h.insert a { node with val := v }) x node.next

/-- `each` on a list. -/
def eachList (body : Nat → α → σ → α × σ) : (i : Nat) → σ → List (Nat × α) → List (Nat × α) × σ
  | _, x, [] => ([], x)
  | i, x, (a, v) :: rest =>
      let (v, x) := body i v x
      let (l, x) := eachList body (i + 1) x rest
      ((a, v) :: l, x)

/-- The loop with a pointer `sl` to the block before `s`, through which `s` is unlinked where `body` says so; the block
is freed. -/
def unlink (body : Nat → α → σ → (α × Bool) × σ) : (rounds i : Nat) → (head : Option Nat) → Heap α → σ →
    (sl s : Option Nat) → Option (Option Nat × Heap α × σ)
  | 0, _, _, _, _, _, _ => none
  | _ + 1, _, head, h, x, _, none => some (head, h, x)
  | rounds + 1, i, head, h, x, sl, some a =>
      match h.lookup a with
      | none => none
      | some node =>
          let ((v, del), x) := body i node.val x
          let h := h.insert a { node with val := v }
          if del then
            match sl with
            | none => unlink body rounds (i + 1) node.next (h.erase a) x none node.next
            | some b =>
                match h.lookup b with
                | none => none
                | some prev =>
                    let h := h.insert b { prev with next := node.next }
                    unlink body rounds (i + 1) head (h.erase a) x sl node.next
          else unlink body rounds (i + 1) head h x (some a) node.next

/-- `while (s != NULL && test(s)) { p = s; s = s->next; }`, and both pointers at its end. -/
def seek (h : Heap α) (test : α → Bool) : (rounds : Nat) → (p s : Option Nat) → Option (Option Nat × Option Nat)
  | 0, _, _ => none
  | _ + 1, p, none => some (p, none)
  | rounds + 1, p, some a =>
      match h.lookup a with
      | none => none
      | some node => if test node.val then seek h test rounds (some a) node.next else some (p, some a)

/-- `n->next = s; if (p == NULL) head = n; else p->next = n;` for a new block `n` at `a`. -/
def link (h : Heap α) (head : Option Nat) (a : Nat) (v : α) (p s : Option Nat) : Option (Heap α × Option Nat) :=
  let h := h.insert a { val := v, next := s }
  match p with
  | none => some (h, some a)
  | some b =>
      match h.lookup b with
      | none => none
      | some node => some (h.insert b { node with next := some a }, head)

/-- `while (s != NULL) { x = f(x, s); s = s->next; }`. -/
def fold (f : σ → α → σ) (h : Heap α) : (rounds : Nat) → σ → (s : Option Nat) → Option σ
  | 0, _, _ => none
  | _ + 1, x, none => some x
  | rounds + 1, x, some a =>
      match h.lookup a with
      | none => none
      | some node => fold f h rounds (f x node.val) node.next

/-- `while (s != NULL) { p = s; s = s->next; body(p); free(p); }`, where `body` can fail, too. -/
def freeEach (body : σ → α → Option σ) : (rounds : Nat) → Heap α → σ → (s : Option Nat) → Option (Heap α × σ)
  | 0, _, _, _ => none
  | _ + 1, h, x, none => some (h, x)
  | rounds + 1, h, x, some a =>
      match h.lookup a with
      | none => none
      | some node =>
          match body x node.val with
          | none => none
          | some x => freeEach body rounds (h.erase a) x node.next

/-- `while (s != NULL) { p = s; s = s->next; free(p); }`. -/
def freeAll : (rounds : Nat) → Heap α → (s : Option Nat) → Option (Heap α)
  | 0, _, _ => none
  | _ + 1, h, none => some h
  | rounds + 1, h, some a =>
      match h.lookup a with
      | none => none
      | some node => freeAll rounds (h.erase a) node.next

/-- `unlink` on a list. -/
def unlinkList (body : Nat → α → σ → (α × Bool) × σ) : (i : Nat) → σ → List (Nat × α) → List (Nat × α) × σ
  | _, x, [] => ([], x)
  | i, x, (a, v) :: rest =>
      let ((v, del), x) := body i v x
      let (l, x) := unlinkList body (i + 1) x rest
      if del then (l, x) else ((a, v) :: l, x)

/-! ## Lists -/

theorem mem_addresses : a ∈ addresses l ↔ ∃ v, (a, v) ∈ l := by simp

theorem Seg.append_iff : Seg h q p (l₁ ++ l₂) ↔ ∃ r, Seg h r p l₁ ∧ Seg h q r l₂ := by
  induction l₁ generalizing p with
  | nil =>
      constructor
      · intro hs
        exact ⟨p, .nil, hs⟩
      · rintro ⟨r, hr, hs⟩
        cases hr with
        | nil => exact hs
  | cons x l₁ ih =>
      constructor
      · intro hs
        cases hs with
        | cons hb hs =>
            obtain ⟨r, hr, hs⟩ := ih.1 hs
            exact ⟨r, .cons hb hr, hs⟩
      · rintro ⟨r, hr, hs⟩
        cases hr with
        | cons hb hr => exact .cons hb (ih.2 ⟨r, hr, hs⟩)

/-- Only the blocks of the list matter. -/
theorem Seg.congr (hs : Seg h q p l) (hl : ∀ a ∈ addresses l, h'.lookup a = h.lookup a) : Seg h' q p l := by
  induction hs with
  | nil => exact .nil
  | cons hb _ ih =>
      simp only [addresses, List.map_cons, List.forall_mem_cons] at hl
      exact .cons (hl.1.trans hb) (ih hl.2)

/-- The pointers lead to one list only. -/
theorem Seg.unique (hs : Seg h none p l₁) (hs' : Seg h none p l₂) : l₁ = l₂ := by
  induction hs generalizing l₂ with
  | nil =>
      cases hs' with
      | nil => rfl
  | cons hb _ ih =>
      cases hs' with
      | cons hb' hs' =>
          cases hb.symm.trans hb'
          rw [ih hs']

theorem Seg.lookup (hs : Seg h q p l) (hm : (a, v) ∈ l) : ∃ n, h.lookup a = some ⟨v, n⟩ := by
  induction hs with
  | nil => cases hm
  | cons hb _ ih =>
      cases hm with
      | head => exact ⟨_, hb⟩
      | tail _ hm => exact ih hm

/-- No block comes twice: behind it the list would start again and never end. -/
theorem Seg.nodup (hs : Seg h none p l) : (addresses l).Nodup := by
  induction hs with
  | nil => exact List.nodup_nil
  | @cons a v n l hb hs ih =>
      rw [addresses, List.map_cons, List.nodup_cons]
      refine ⟨fun hm => ?_, ih⟩
      obtain ⟨w, hm⟩ := mem_addresses.1 hm
      obtain ⟨l₁, l₂, rfl⟩ := List.append_of_mem hm
      obtain ⟨r, -, hr⟩ := Seg.append_iff.1 hs
      cases hr with
      | cons hb' hr =>
          have heq := (Seg.cons hb hs).unique (.cons hb' hr)
          have hlen := congrArg List.length heq
          simp at hlen
          omega

theorem Seg.length_lt (hs : Seg h none p l) : l.length < rounds h := by
  have hsub : addresses l ⊆ h.keys := by
    intro a ha
    obtain ⟨v, hm⟩ := mem_addresses.1 ha
    obtain ⟨n, hn⟩ := hs.lookup hm
    rw [← AList.mem_keys, ← AList.lookup_isSome, hn]
    rfl
  have hle := (List.subperm_of_subset hs.nodup hsub).length_le
  rw [List.length_map] at hle
  exact Nat.lt_succ_of_le hle

theorem Holds.lookup_none (hh : Holds h p l) (ha : a ∉ addresses l) : h.lookup a = none := by
  by_contra hne
  exact ha (hh.owned a hne)

theorem Holds.empty : Holds (∅ : Heap α) none [] := ⟨.nil, by simp⟩

/-- A new block in front of the list. -/
theorem Holds.push (hh : Holds h p l) (ha : h.lookup a = none) : Holds (h.insert a ⟨v, p⟩) (some a) ((a, v) :: l) := by
  have hl : a ∉ addresses l := by
    intro hm
    obtain ⟨w, hm⟩ := mem_addresses.1 hm
    obtain ⟨n, hn⟩ := hh.seg.lookup hm
    simp [ha] at hn
  constructor
  · refine .cons (AList.lookup_insert _) (hh.seg.congr fun b hb => AList.lookup_insert_ne ?_)
    rintro rfl
    exact hl hb
  · intro b hb
    by_cases hab : b = a
    · simp [hab]
    · rw [AList.lookup_insert_ne hab] at hb
      exact List.mem_cons_of_mem _ (hh.owned b hb)

/-- Another content in one block. -/
theorem Seg.set {n : Option Nat} {w : α} (hs : Seg h none p (l₁ ++ (a, v) :: l₂)) (hn : h.lookup a = some ⟨v, n⟩) :
    Seg (h.insert a ⟨w, n⟩) none p (l₁ ++ (a, w) :: l₂) := by
  have hnd := hs.nodup
  simp only [addresses, List.map_append, List.map_cons, List.nodup_append, List.nodup_cons, List.mem_cons] at hnd
  obtain ⟨r, hr, hs⟩ := Seg.append_iff.1 hs
  refine Seg.append_iff.2 ⟨r, hr.congr fun b hb => AList.lookup_insert_ne (hnd.2.2 b hb a (.inl rfl)), ?_⟩
  cases hs with
  | cons hb hs =>
      cases hn.symm.trans hb
      refine .cons (AList.lookup_insert _) (hs.congr fun b hmem => AList.lookup_insert_ne ?_)
      rintro rfl
      exact hnd.2.1.1 hmem

theorem Holds.set {n : Option Nat} {w : α} (hh : Holds h p (l₁ ++ (a, v) :: l₂)) (hn : h.lookup a = some ⟨v, n⟩) :
    Holds (h.insert a ⟨w, n⟩) p (l₁ ++ (a, w) :: l₂) := by
  refine ⟨hh.seg.set hn, fun b hb => ?_⟩
  have haddr : addresses (l₁ ++ (a, w) :: l₂) = addresses (l₁ ++ (a, v) :: l₂) := by simp
  rw [haddr]
  by_cases hab : b = a
  · simp [hab]
  · rw [AList.lookup_insert_ne hab] at hb
    exact hh.owned b hb

theorem Seg.head (hs : Seg h none p l) : p = l.head?.map Prod.fst := by
  cases hs with
  | nil => rfl
  | cons hb hs => rfl

/-- The first block is freed. -/
theorem Holds.pop {n : Option Nat} (hh : Holds h p ((a, v) :: l)) (hn : h.lookup a = some ⟨v, n⟩) :
    Holds (h.erase a) n l := by
  have hnd := hh.seg.nodup
  rw [addresses, List.map_cons, List.nodup_cons] at hnd
  constructor
  · cases hh.seg with
    | cons hb hs =>
        cases hn.symm.trans hb
        refine hs.congr fun b hmem => AList.lookup_erase_ne ?_
        rintro rfl
        exact hnd.1 hmem
  · intro b hb
    by_cases hab : b = a
    · rw [hab, AList.lookup_erase] at hb
      exact absurd rfl hb
    · rw [AList.lookup_erase_ne hab] at hb
      have hmem := hh.owned b hb
      simpa [hab] using hmem

/-- The block behind `b` is unlinked and freed. -/
theorem Holds.unlink {n m : Option Nat} {w : α} (hh : Holds h p (l₁ ++ (b, w) :: (a, v) :: l₂))
    (hm : h.lookup b = some ⟨w, m⟩) (hn : h.lookup a = some ⟨v, n⟩) :
    Holds ((h.insert b ⟨w, n⟩).erase a) p (l₁ ++ (b, w) :: l₂) := by
  have hnd := hh.seg.nodup
  simp only [addresses, List.map_append, List.map_cons, List.nodup_append, List.nodup_cons, List.mem_cons] at hnd
  obtain ⟨-, ⟨hb, ha, -⟩, hl₁⟩ := hnd
  have hab : b ≠ a := fun heq => hb (.inl heq)
  have hother : ∀ c, c ≠ a → c ≠ b → ((h.insert b ⟨w, n⟩).erase a).lookup c = h.lookup c := by
    intro c hca hcb
    rw [AList.lookup_erase_ne hca, AList.lookup_insert_ne hcb]
  constructor
  · obtain ⟨r, hr, hs⟩ := Seg.append_iff.1 hh.seg
    refine Seg.append_iff.2 ⟨r, hr.congr fun c hc => ?_, ?_⟩
    · exact hother c (hl₁ c hc a (.inr (.inl rfl))) (hl₁ c hc b (.inl rfl))
    · cases hs with
      | cons hb' hs =>
          cases hs with
          | cons ha' hs =>
              cases hn.symm.trans ha'
              refine .cons ?_ (hs.congr fun c hc => hother c ?_ ?_)
              · rw [AList.lookup_erase_ne hab, AList.lookup_insert]
              · rintro rfl
                exact ha hc
              · rintro rfl
                exact hb (.inr hc)
  · intro c hc
    by_cases hca : c = a
    · rw [hca, AList.lookup_erase] at hc
      exact absurd rfl hc
    · by_cases hcb : c = b
      · simp [hcb]
      · rw [hother c hca hcb] at hc
        have hmem := hh.owned c hc
        simpa [hca, hcb] using hmem

/-- A new block between two parts of the list. -/
theorem Holds.link (hh : Holds h p (l₁ ++ l₂)) (ha : h.lookup a = none) :
    ∃ h' p', link h p a v (l₁.getLast?.map Prod.fst) (l₂.head?.map Prod.fst) = some (h', p') ∧
      Holds h' p' (l₁ ++ (a, v) :: l₂) := by
  obtain ⟨r, hr, hs⟩ := Seg.append_iff.1 hh.seg
  have hhead := hs.head
  subst hhead
  cases hlast : l₁.getLast? with
  | none =>
      rw [List.getLast?_eq_none_iff] at hlast
      subst hlast
      cases hr with
      | nil => exact ⟨_, _, rfl, hh.push ha⟩
  | some y =>
      obtain ⟨b, w⟩ := y
      obtain ⟨init, rfl⟩ := List.getLast?_eq_some_iff.1 hlast
      obtain ⟨m, hb⟩ := hh.seg.lookup (a := b) (v := w) (by simp)
      have hne : ∀ c ∈ addresses (init ++ [(b, w)] ++ l₂), c ≠ a := by
        rintro c hc rfl
        obtain ⟨u, hu⟩ := mem_addresses.1 hc
        obtain ⟨n, hn⟩ := hh.seg.lookup hu
        simp [ha] at hn
      have hnd := hh.seg.nodup
      simp only [addresses, List.map_append, List.map_cons, List.append_assoc, List.cons_append, List.nil_append,
        List.nodup_append, List.nodup_cons, List.mem_cons] at hnd
      obtain ⟨-, ⟨hbl, -⟩, hinit⟩ := hnd
      have hba : b ≠ a := hne b (by simp [addresses])
      have hlookup : (h.insert a ⟨v, l₂.head?.map Prod.fst⟩).lookup b = some ⟨w, m⟩ := by
        rw [AList.lookup_insert_ne hba, hb]
      refine ⟨(h.insert a ⟨v, l₂.head?.map Prod.fst⟩).insert b ⟨w, some a⟩, p, ?_, ?_, ?_⟩
      · simp only [Option.map_some, Linked.link, hlookup]
      · have hother : ∀ c, c ≠ a → c ≠ b →
            ((h.insert a ⟨v, l₂.head?.map Prod.fst⟩).insert b ⟨w, some a⟩).lookup c = h.lookup c := by
          intro c hca hcb
          rw [AList.lookup_insert_ne hcb, AList.lookup_insert_ne hca]
        obtain ⟨q, hq, hlast⟩ := Seg.append_iff.1 hr
        cases hlast with
        | cons hb' _ =>
            rw [List.append_assoc]
            refine Seg.append_iff.2 ⟨_, hq.congr fun c hc => hother c ?_ ?_, ?_⟩
            · exact hne c (by simp_all [addresses])
            · exact hinit c hc b (.inl rfl)
            · refine .cons (AList.lookup_insert _) (.cons ?_ (hs.congr fun c hc => hother c ?_ ?_))
              · rw [AList.lookup_insert_ne hba.symm, AList.lookup_insert]
              · exact hne c (by simp_all [addresses])
              · rintro rfl
                exact hbl hc
      · intro c hc
        by_cases hcb : c = b
        · simp [hcb]
        · by_cases hca : c = a
          · simp [hca]
          · rw [AList.lookup_insert_ne hcb, AList.lookup_insert_ne hca] at hc
            have hmem := hh.owned c hc
            simp only [addresses, List.map_append, List.mem_append, List.map_cons, List.mem_cons, List.map_nil,
              List.not_mem_nil, or_false] at hmem ⊢
            tauto

/-! ## What the loops do -/

theorem find_eq {test : α → Bool} {k : Nat} (hs : Seg h none p l) (hk : l.length < k) :
    find h test k p = some ((l.find? (test ·.2)).map Prod.fst) := by
  induction hs generalizing k with
  | nil =>
      cases k with
      | zero => cases hk
      | succ k => rfl
  | @cons a v n l hb _ ih =>
      cases k with
      | zero => cases hk
      | succ k =>
          simp only [find, hb, List.find?_cons]
          cases test v with
          | true => rfl
          | false => exact ih (Nat.lt_of_succ_lt_succ hk)

theorem each_eq (passed : List (Nat × α)) (body : Nat → α → σ → α × σ) {rest : List (Nat × α)} {k i : Nat} {x : σ}
    (hh : Holds h p (passed ++ rest)) (hs : r = rest.head?.map Prod.fst) (hk : rest.length < k) :
    ∃ h', each body k i h x r = some (h', (eachList body i x rest).2) ∧
      Holds h' p (passed ++ (eachList body i x rest).1) := by
  induction rest generalizing passed h r k i x with
  | nil =>
      cases k with
      | zero => cases hk
      | succ k =>
          subst hs
          exact ⟨h, rfl, hh⟩
  | cons y rest ih =>
      obtain ⟨a, v⟩ := y
      cases k with
      | zero => cases hk
      | succ k =>
          obtain ⟨q, hq, hseg⟩ := Seg.append_iff.1 hh.seg
          cases hseg with
          | cons hb hseg =>
              subst hs
              have hset := hh.set (w := (body i v x).1) hb
              rw [List.append_cons] at hset
              obtain ⟨h', heq, hh'⟩ := ih _ (i := i + 1) (x := (body i v x).2) hset hseg.head
                (Nat.lt_of_succ_lt_succ hk)
              refine ⟨h', ?_, ?_⟩
              · simp only [List.head?_cons, Option.map_some, each, hb, eachList, heq]
              · simpa [eachList] using hh'

/-- The loop unlinks exactly what the list function leaves out. `passed` are the blocks before `s`. -/
theorem unlink_eq (passed : List (Nat × α)) (body : Nat → α → σ → (α × Bool) × σ) {rest : List (Nat × α)}
    {head sl s : Option Nat} {k i : Nat} {x : σ} (hh : Holds h head (passed ++ rest))
    (hsl : sl = passed.getLast?.map Prod.fst) (hs : s = rest.head?.map Prod.fst) (hk : rest.length < k) :
    ∃ head' h', unlink body k i head h x sl s = some (head', h', (unlinkList body i x rest).2) ∧
      Holds h' head' (passed ++ (unlinkList body i x rest).1) := by
  induction rest generalizing passed head h sl s k i x with
  | nil =>
      cases k with
      | zero => cases hk
      | succ k =>
          subst hs
          exact ⟨head, h, rfl, hh⟩
  | cons y rest ih =>
      obtain ⟨a, v⟩ := y
      cases k with
      | zero => cases hk
      | succ k =>
          have hk : rest.length < k := Nat.lt_of_succ_lt_succ hk
          obtain ⟨r, hr, hseg⟩ := Seg.append_iff.1 hh.seg
          cases hseg with
          | @cons _ _ n _ hb hseg =>
              have hn := hseg.head
              subst hs
              cases hbody : body i v x with
              | mk c x' =>
                  obtain ⟨v', del⟩ := c
                  have hset := hh.set (w := v') hb
                  simp only [List.head?_cons, Option.map_some, Linked.unlink, hb, hbody, unlinkList]
                  cases del with
                  | false =>
                      have hset : Holds (h.insert a ⟨v', n⟩) head (passed ++ [(a, v')] ++ rest) := by simpa using hset
                      have hlast : some a = (passed ++ [(a, v')]).getLast?.map Prod.fst := by simp
                      obtain ⟨head', h', heq, hh'⟩ := ih _ hset hlast hn hk
                      exact ⟨head', h', heq, by simpa using hh'⟩
                  | true =>
                      cases hlast : passed.getLast? with
                      | none =>
                          rw [List.getLast?_eq_none_iff] at hlast
                          subst hlast
                          rw [List.getLast?_nil, Option.map_none] at hsl
                          subst hsl
                          exact ih _ (hset.pop (AList.lookup_insert _)) rfl hn hk
                      | some y =>
                          obtain ⟨b, w⟩ := y
                          obtain ⟨init, rfl⟩ := List.getLast?_eq_some_iff.1 hlast
                          have hset : Holds (h.insert a ⟨v', n⟩) head (init ++ (b, w) :: (a, v') :: rest) := by
                            simpa using hset
                          obtain ⟨m, hm⟩ := hset.seg.lookup (a := b) (v := w) (by simp)
                          have hun := hset.unlink hm (AList.lookup_insert _)
                          rw [List.append_cons] at hun
                          rw [List.getLast?_concat, Option.map_some] at hsl
                          subst hsl
                          simp only [hm]
                          exact ih _ hun (by simp) hn hk

theorem freeAll_eq {k : Nat} (hh : Holds h p l) (hk : l.length < k) :
    ∃ h', freeAll k h p = some h' ∧ Holds h' none [] := by
  induction l generalizing h p k with
  | nil =>
      cases k with
      | zero => cases hk
      | succ k =>
          have hp := hh.seg.head
          subst hp
          exact ⟨h, rfl, hh⟩
  | cons y l ih =>
      obtain ⟨a, v⟩ := y
      cases k with
      | zero => cases hk
      | succ k =>
          cases hh.seg with
          | cons hb hs =>
              obtain ⟨h', heq, hh'⟩ := ih (hh.pop hb) (Nat.lt_of_succ_lt_succ hk)
              exact ⟨h', by simp only [freeAll, hb, heq], hh'⟩

/-- The loop stops behind the blocks that pass the test. -/
theorem seek_eq (test : α → Bool) (prev : Option Nat) {k : Nat} (hs : Seg h none p l) (hk : l.length < k) :
    seek h test k prev p = some (((l.takeWhile (test ·.2)).getLast?.map Prod.fst).or prev,
      (l.dropWhile (test ·.2)).head?.map Prod.fst) := by
  induction hs generalizing k prev with
  | nil =>
      cases k with
      | zero => cases hk
      | succ k => rfl
  | @cons a v n l hb _ ih =>
      cases k with
      | zero => cases hk
      | succ k =>
          cases htest : test v with
          | true =>
              simp only [seek, hb, htest, if_true, List.takeWhile_cons, List.dropWhile_cons,
                ih _ (Nat.lt_of_succ_lt_succ hk), List.getLast?_cons]
              cases (l.takeWhile (test ·.2)).getLast? <;> rfl
          | false => simp [seek, hb, htest]

theorem fold_eq {f : σ → α → σ} {k : Nat} {x : σ} (hs : Seg h none p l) (hk : l.length < k) :
    fold f h k x p = some (l.foldl (fun x y => f x y.2) x) := by
  induction hs generalizing k x with
  | nil =>
      cases k with
      | zero => cases hk
      | succ k => rfl
  | cons hb _ ih =>
      cases k with
      | zero => cases hk
      | succ k =>
          simp only [fold, hb, List.foldl_cons]
          exact ih (Nat.lt_of_succ_lt_succ hk)

theorem freeEach_eq {body : σ → α → Option σ} {k : Nat} {x x' : σ} (hh : Holds h p l) (hk : l.length < k)
    (hx : l.foldlM (fun x y => body x y.2) x = some x') :
    ∃ h', freeEach body k h x p = some (h', x') ∧ Holds h' none [] := by
  induction l generalizing h p k x with
  | nil =>
      cases k with
      | zero => cases hk
      | succ k =>
          have hp := hh.seg.head
          subst hp
          cases hx
          exact ⟨h, rfl, hh⟩
  | cons y l ih =>
      obtain ⟨a, v⟩ := y
      cases k with
      | zero => cases hk
      | succ k =>
          cases hh.seg with
          | cons hb hs =>
              rw [List.foldlM_cons, Option.bind_eq_bind, Option.bind_eq_some_iff] at hx
              obtain ⟨x₁, hx₁, hx⟩ := hx
              obtain ⟨h', heq, hh'⟩ := ih (hh.pop hb) (Nat.lt_of_succ_lt_succ hk) hx
              exact ⟨h', by simp only [freeEach, hb, hx₁, heq], hh'⟩

/-- A loop that changes the blocks one by one. -/
theorem eachList_fst (f : Nat → α → α) (g : Nat → α → σ → σ) (i : Nat) (x : σ) (l : List (Nat × α)) :
    (eachList (fun i v x => (f i v, g i v x)) i x l).1 = l.mapIdx fun j y => (y.1, f (i + j) y.2) := by
  induction l generalizing i x with
  | nil => rfl
  | cons y l ih =>
      have hidx : (fun j (y : Nat × α) => (y.1, f (i + 1 + j) y.2)) = fun j y => (y.1, f (i + (j + 1)) y.2) := by
        funext j y
        rw [Nat.add_assoc, Nat.add_comm 1]
      simp [eachList, ih, List.mapIdx_cons, hidx]

/-- A loop that unlinks the blocks for which `check` says so. -/
theorem unlinkList_fst (check : Nat → α → α × Bool) (g : Nat → α → σ → σ) (i : Nat) (x : σ) (l : List (Nat × α)) :
    (unlinkList (fun i v x => (check i v, g i v x)) i x l).1 =
      ((l.mapIdx fun j y => (y.1, check (i + j) y.2)).filter (!·.2.2)).map fun y => (y.1, y.2.1) := by
  induction l generalizing i x with
  | nil => rfl
  | cons y l ih =>
      have hidx : (fun j (y : Nat × α) => (y.1, check (i + 1 + j) y.2)) =
          fun j y => (y.1, check (i + (j + 1)) y.2) := by
        funext j y
        rw [Nat.add_assoc, Nat.add_comm 1]
      rw [List.mapIdx_cons, Nat.add_zero, ← hidx]
      cases hdel : (check i y.2).2 with
      | true => simp [unlinkList, ih, hdel]
      | false => simp [unlinkList, ih, hdel]

end TunProxy.Lib.Linked
