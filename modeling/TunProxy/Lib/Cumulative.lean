import TunProxy.Lib.Serial

/-!
# Cumulative acknowledgements

A sender numbers its bytes from `isn + 1` on, modulo `2 ^ w`: `isn` is the number of its first message, and a last
message has the number behind the last byte. A receiver acknowledges everything before a number. What it may acknowledge
is bounded by the longest prefix of the bytes that has arrived.
-/

namespace TunProxy.Lib.Serial

variable {w : Nat} {got got' fin : BitVec w → Prop} {isn x : BitVec w} {n length : Nat}

/-- The longest prefix of which every byte has arrived has this length. -/
def PrefixLength (got : BitVec w → Prop) (isn : BitVec w) (length : Nat) : Prop :=
  (∀ k < length, got (isn + 1 + BitVec.ofNat w k)) ∧ ¬got (isn + 1 + BitVec.ofNat w length)

/-- The acknowledgement of everything before `x` covers the prefix that has arrived at most, and the last message only
where that is right behind it. -/
def AckOk (got fin : BitVec w → Prop) (isn x : BitVec w) : Prop :=
  ∀ length, PrefixLength got isn length →
    dist isn x ≤ 1 + length ∨ dist isn x = 1 + length + 1 ∧ fin (isn + 1 + BitVec.ofNat w length)

/-- The number is that of the first message, or of a byte that has arrived. -/
def Got (got : BitVec w → Prop) (isn x : BitVec w) : Prop := x = isn ∨ got x

/-- Everything from `isn` to before `x` has arrived, possibly around the circle. -/
def Reaches (got : BitVec w → Prop) (isn x : BitVec w) : Prop :=
  ∃ m, x = isn + BitVec.ofNat w m ∧ ∀ k < m, Got got isn (isn + BitVec.ofNat w k)

theorem Got.mono (h : ∀ x, got x → got' x) (hx : Got got isn x) : Got got' isn x := hx.imp_right (h x)

theorem Reaches.mono (h : ∀ x, got x → got' x) (hx : Reaches got isn x) : Reaches got' isn x := by
  obtain ⟨m, rfl, hm⟩ := hx
  exact ⟨m, rfl, fun k hk => (hm k hk).mono h⟩

theorem Reaches.start : Reaches got isn isn := ⟨0, by simp, by simp⟩

theorem ofNat_add_assoc (a : BitVec w) (m n : Nat) :
    a + BitVec.ofNat w m + BitVec.ofNat w n = a + BitVec.ofNat w (m + n) := by
  rw [BitVec.add_assoc, BitVec.ofNat_add]

/-- The next `n` numbers have arrived too. -/
theorem Reaches.add (h : Reaches got isn x) (hn : ∀ i < n, Got got isn (x + BitVec.ofNat w i)) :
    Reaches got isn (x + BitVec.ofNat w n) := by
  obtain ⟨m, rfl, hm⟩ := h
  refine ⟨m + n, ofNat_add_assoc isn m n, ?_⟩
  intro k hk
  by_cases hkm : k < m
  · exact hm k hkm
  · have hi := hn (k - m) (by omega)
    rwa [ofNat_add_assoc, Nat.add_sub_of_le (by omega)] at hi

theorem Reaches.succ (h : Reaches got isn x) (hx : Got got isn x) : Reaches got isn (x + 1) := by
  have h₁ : Reaches got isn (x + BitVec.ofNat w 1) := by
    refine h.add ?_
    intro i hi
    obtain rfl : i = 0 := by omega
    simpa using hx
  exact h₁

theorem Reaches.pred (h : Reaches got isn x) (hx : x ≠ isn) : Reaches got isn (x - 1) := by
  obtain ⟨m, rfl, hm⟩ := h
  cases m with
  | zero => simp at hx
  | succ m =>
      refine ⟨m, ?_, fun k hk => hm k (by omega)⟩
      have hsucc : isn + BitVec.ofNat w (m + 1) = isn + BitVec.ofNat w m + 1 := (ofNat_add_assoc isn m 1).symm
      rw [hsucc, BitVec.add_sub_cancel]

/-- The bound for the bytes. -/
theorem Reaches.dist_le (h : Reaches got isn x) (hl : PrefixLength got isn length) : dist isn x ≤ 1 + length := by
  obtain ⟨m, rfl, hm⟩ := h
  by_contra hgt
  rw [dist_add] at hgt
  have hle := Nat.mod_le m (2 ^ w)
  have hlt := Nat.mod_lt m (Nat.two_pow_pos w)
  rcases hm (1 + length) (by omega) with hk | hk
  · have hd := dist_add isn (1 + length)
    rw [hk, dist_self, Nat.mod_eq_of_lt (by omega)] at hd
    omega
  · rw [← ofNat_add_assoc] at hk
    exact hl.2 hk

theorem Reaches.ackOk (h : Reaches got isn x) : AckOk got fin isn x :=
  fun _ hl => .inl (h.dist_le hl)

/-- The bound with the last message. -/
theorem Reaches.ackOk_fin (h : Reaches got isn x) (hf : fin x) : AckOk got fin isn (x + 1) := by
  intro length hl
  have hle := h.dist_le hl
  have hx := add_dist isn x
  have hsucc : x + 1 = isn + BitVec.ofNat w (dist isn x + 1) := by
    rw [← ofNat_add_assoc, hx]
    rfl
  have hd : dist isn (x + 1) = (dist isn x + 1) % 2 ^ w := by rw [hsucc, dist_add]
  have hmod := Nat.mod_le (dist isn x + 1) (2 ^ w)
  rcases Nat.lt_or_ge (dist isn x) (1 + length) with hlt | hge
  · exact .inl (by omega)
  · have hlast : isn + 1 + BitVec.ofNat w length = x := by
      rw [← hx, show dist isn x = 1 + length by omega, ← ofNat_add_assoc]
      rfl
    rcases Nat.lt_or_ge (dist isn x + 1) (2 ^ w) with hw | hw
    · rw [Nat.mod_eq_of_lt hw] at hd
      exact .inr ⟨by omega, hlast ▸ hf⟩
    · have := dist_lt isn x
      rw [show dist isn x + 1 = 2 ^ w by omega, Nat.mod_self] at hd
      exact .inl (by omega)

end TunProxy.Lib.Serial
