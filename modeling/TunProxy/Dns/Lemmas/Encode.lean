import TunProxy.Dns.Lemmas.Walk
import TunProxy.Vpn.Lemmas.Host

/-!
# Where an encoded name ends

The bytes that `WriteDomain` makes of a name, and how many `ReadDomain` takes for the same name.
-/

namespace TunProxy.Dns

open Native (Bytes)
open Lib Lib.Bytes
open ByteBuffer

variable {m : Bytes} {off pos n len : Nat} {b b' : ByteBuffer} {sb s w : List Char}

/-! ## Writing -/

/-- The name is one or more labels, joined by dots. -/
def WellNamed (w : List Char) : Prop :=
  ∃ labels : List (List Char), labels ≠ [] ∧
    (∀ l ∈ labels, 1 ≤ l.length ∧ l.length ≤ 63 ∧ ∀ c ∈ l, c.toNat < 128 ∧ c ≠ '.') ∧
    w = ['.'].intercalate labels

theorem pieces_label {l : List Char} (h : ∀ c ∈ l, c ≠ '.') : Vpn.pieces ['.'] l = [l] := by
  induction l with
  | nil => rw [Vpn.pieces]
  | cons c l ih =>
      have hc : ['.'].isPrefixOf (c :: l) = false := by
        simp [List.isPrefixOf, (h c List.mem_cons_self).symm]
      rw [Vpn.pieces, if_neg (by simp [hc]), ih fun c hc => h c (List.mem_cons_of_mem _ hc)]

theorem pieces_dot {l rest : List Char} (h : ∀ c ∈ l, c ≠ '.') :
    Vpn.pieces ['.'] (l ++ '.' :: rest) = l :: Vpn.pieces ['.'] rest := by
  induction l with
  | nil =>
      rw [List.nil_append, Vpn.pieces, if_pos (by simp [List.isPrefixOf])]
      rfl
  | cons c l ih =>
      have hc : ['.'].isPrefixOf (c :: (l ++ '.' :: rest)) = false := by
        simp [List.isPrefixOf, (h c List.mem_cons_self).symm]
      rw [List.cons_append, Vpn.pieces, if_neg (by simp [hc]), ih fun c hc => h c (List.mem_cons_of_mem _ hc)]

theorem pieces_labels {labels : List (List Char)} (hne : labels ≠ []) (h : ∀ l ∈ labels, ∀ c ∈ l, c ≠ '.') :
    Vpn.pieces ['.'] (['.'].intercalate labels) = labels := by
  induction labels with
  | nil => exact absurd rfl hne
  | cons l ls ih =>
      have hl := h l List.mem_cons_self
      cases ls with
      | nil => simpa [List.intercalate] using pieces_label hl
      | cons l' ls =>
          have hj : ['.'].intercalate (l :: l' :: ls) = l ++ '.' :: ['.'].intercalate (l' :: ls) := by
            simp [List.intercalate]
          rw [hj, pieces_dot hl, ih (List.cons_ne_nil _ _) fun l hl => h l (List.mem_cons_of_mem _ hl)]

theorem WellNamed.ne_nil (h : WellNamed w) : w ≠ [] := by
  obtain ⟨labels, hne, hl, rfl⟩ := h
  intro hw
  have hp := pieces_labels hne fun l hl' c hc => (((hl l hl').2.2) c hc).2
  rw [hw, Vpn.pieces] at hp
  have := (hl [] (by rw [← hp]; exact List.mem_cons_self)).1
  exact absurd this (by decide)

/-- At most one byte more than the name has characters: no byte ends it. -/
theorem length_writeDomain (w : List Char) : (writeDomain (some w)).length ≤ w.length + 1 := by
  have hs := Vpn.length_split w (List.cons_ne_nil '.' [])
  rw [writeDomain]
  split
  · simp
  · simp only [List.length_flatMap, List.length_append, List.length_map]
    refine le_trans (List.sum_le_sum fun p _ => ?_) hs
    split
    · simp only [List.length_cons, List.length_nil]
      omega
    · simp only [List.length_cons, List.length_nil]
      omega

/-- No byte of it can begin a pointer. -/
theorem writeDomain_lt (h : WellNamed w) : ∀ x ∈ writeDomain (some w), x.toNat < 192 := by
  have hne := h.ne_nil
  obtain ⟨labels, hlabels, hl, rfl⟩ := h
  intro x hx
  simp only [writeDomain, if_neg hne, List.mem_flatMap, List.mem_append, List.mem_map] at hx
  obtain ⟨item, hitem, hx⟩ := hx
  have hmem := (Vpn.split_prefix ['.'] _).subset hitem
  rw [pieces_labels hlabels fun l hl' c hc => (((hl l hl').2.2) c hc).2] at hmem
  obtain ⟨-, hlen, hchars⟩ := hl item hmem
  rcases hx with hx | ⟨c, hc, rfl⟩
  · split at hx
    · rw [List.mem_singleton] at hx
      rw [hx, UInt8.toNat_ofNat']
      omega
    · cases hx
  · have := (hchars c hc).1
    rw [UInt8.toNat_ofNat']
    omega

/-! ## Reading -/

/-- A label that the buffer does not end is complete. -/
theorem readLabel_whole (len : Nat) (sb : List Char) (b : ByteBuffer) :
    ∃ bytes : Bytes, ∃ b' left, readLabel len sb b = .ok (left, sb ++ Name.chars bytes) b' ∧ Onward b b' ∧
      (b'.remaining ≠ 0 → bytes.length = len ∧ b'.position = b.position + len) := by
  obtain ⟨b', hb', ho, hp⟩ := readLabel_eq len sb b
  refine ⟨_, b', _, hb', ho, fun hrem => ?_⟩
  have hmin : min len b.remaining = len := by
    have hl := ho.limit
    simp only [ByteBuffer.remaining] at hrem hp ⊢
    omega
  rw [hmin] at hp ⊢
  refine ⟨length_slice ?_, hp⟩
  have hl := b'.limit_le
  have hp' := b'.position_le
  rw [ho.array, ho.arrayOffset] at hl
  omega

/-- The loop ends with the buffer, behind a pointer, or behind as many bytes as characters and a byte of 0. -/
theorem readLabels_stop {follow : Nat → Read (List Char)} (hfollow : ∀ p b s b', follow p b = .ok s b' → b' = b)
    (hn : b.remaining ≤ n) (h : readLabels follow n len sb b = .ok s b') :
    b'.remaining = 0 ∨
      (∃ q x, b.position ≤ q ∧ b.array[b.arrayOffset + q]? = some x ∧ 192 ≤ x.toNat ∧ b'.position = q + 2) ∨
        ∃ t, s = (sb ++ t).dropLast ∧ b'.position = b.position + t.length + 1 := by
  induction n generalizing len sb b with
  | zero =>
      obtain ⟨-, rfl⟩ := pure_ok.1 h
      exact .inl (Nat.le_zero.1 hn)
  | succ n ih =>
      by_cases hrem : b.remaining = 0
      · rw [readLabels_end hrem] at h
        cases h
        exact .inl hrem
      · have hlt := position_lt hrem
        obtain ⟨x, hx, hget⟩ := getByte_room hlt
        obtain ⟨k, hk, hrem'⟩ := rounds_getByte hget hn
        cases hk
        rw [readLabels_succ hget] at h
        split at h
        · cases h
          exact .inr (.inr ⟨[], by rw [List.append_nil], rfl⟩)
        split at h
        · rename_i hge
          obtain ⟨low, b₁, h₁, h⟩ := bind_ok.1 h
          obtain ⟨t, b₂, h₂, h⟩ := bind_ok.1 h
          obtain ⟨-, rfl⟩ := pure_ok.1 h
          obtain ⟨_, -, rfl⟩ := getByte_ok.1 h₁
          rw [hfollow _ _ _ _ h₂]
          exact .inr (.inl ⟨b.position, x, Nat.le_refl _, hx, hge, rfl⟩)
        · rename_i hzero _
          obtain ⟨bytes, b₁, left, hb₁, ho, hwhole⟩ := readLabel_whole x.toNat sb (b.skip 1 hlt)
          rw [bind_of_ok hb₁] at h
          dsimp only at h
          by_cases hend : b₁.remaining = 0
          · rw [readLabels_end hend] at h
            cases h
            exact .inl hend
          obtain ⟨hbytes, hpos⟩ := hwhole hend
          have hskip : (b.skip 1 hlt).position = b.position + 1 := rfl
          rcases ih (ho.remaining_le.trans hrem') h with hend | ⟨q, y, hq, hy, hge, hp'⟩ | ⟨t, ht, hp'⟩
          · exact .inl hend
          · refine .inr (.inl ⟨q, y, by omega, ?_, hge, hp'⟩)
            rwa [ho.array, ho.arrayOffset] at hy
          · refine .inr (.inr ⟨Name.chars bytes ++ ['.'] ++ t, ?_, ?_⟩)
            · rw [ht, List.append_assoc, List.append_assoc, List.append_assoc]
            · rw [List.length_append, List.length_append, Name.chars, List.length_map, hbytes, hp', hpos,
                List.length_singleton]
              omega

/-- The buffer of the packet, which lies at `off` of the array. -/
structure Outer (m : Bytes) (off : Nat) (b : ByteBuffer) : Prop where
  arrayOffset : b.arrayOffset = off
  limit : b.limit = m.length
  bytes : ∀ i, i < m.length → b.array[off + i]? = m[i]?

theorem Outer.onward (h : Outer m off b) (ho : Onward b b') : Outer m off b' where
  arrayOffset := ho.arrayOffset.trans h.arrayOffset
  limit := ho.limit.trans h.limit
  bytes i hi := by rw [ho.array, h.bytes i hi]

/-- What is read as the name `w`, at or behind the bytes that were written for `w`, ends behind them, and even further
behind if it begins there. -/
theorem readName_behind (hw : WellNamed w) (hm : BytesAt m pos (writeDomain (some w))) (hb : Outer m off b)
    (hpos : pos ≤ b.position) (h : readName b = .ok w b') :
    b'.remaining = 0 ∨ pos + (writeDomain (some w)).length < b'.position := by
  obtain ⟨b₀, _, h₀, h⟩ := bind_ok.1 h
  obtain ⟨rfl, rfl⟩ := get_ok.1 h₀
  cases hd : maxDepth b with
  | zero =>
      rw [hd] at h
      exact absurd h throw_ok
  | succ d =>
  rw [hd, readDomain_succ] at h
  have hfollow : ∀ p b₁ s b₂, readWrapped (readDomain b.arrayOffset d) (b.arrayOffset + p) (b.arrayOffset + b.limit) b₁
      = .ok s b₂ → b₂ = b₁ := fun p b₁ s b₂ h => (readWrapped_ok.1 h).1
  rcases readLabels_stop hfollow (Nat.le_refl _) h with hend | ⟨q, x, hq, hx, hge, hp⟩ | ⟨t, ht, hp⟩
  · exact .inl hend
  · -- the byte that begins a pointer is not one of those that were written
    refine .inr ?_
    by_contra hno
    have hqm : q < m.length := by
      have := hm.1
      omega
    rw [hb.arrayOffset, hb.bytes q hqm] at hx
    have hmem : x ∈ writeDomain (some w) := by
      rw [← hm.2]
      refine List.mem_of_getElem? (i := q - pos) ?_
      rw [getElem?_slice, if_pos (by omega), Nat.add_sub_cancel' (by omega), hx]
    have := writeDomain_lt hw x hmem
    omega
  · have hlen := congrArg List.length ht
    rw [List.nil_append, List.length_dropLast] at hlen
    have hne := List.length_pos_iff.2 hw.ne_nil
    have := length_writeDomain w
    omega

end TunProxy.Dns
