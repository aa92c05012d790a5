import TunProxy.Dns.Lemmas.Read

/-!
# Reading a name ends

There is no count of the pointers that were followed. What ends a circle of them is that each buffer has a higher limit
than the one before, by twice the offset of the header at least.
-/

namespace TunProxy.Dns

open Native (Bytes)
open Lib Lib.Bytes
open ByteBuffer

variable {α β : Type} {b b' : ByteBuffer} {x y : Read α} {f g : α → Read β} {off depth limit n k len : Nat}
  {sb : List Char} {follow follow' : Nat → Read (List Char)}

/-! ## Two bounds on the recursion -/

/-- The method returns, or one of the bounds of the buffer is in the way. -/
def Returns (x : Read α) (b : ByteBuffer) : Prop :=
  (∃ a b', x b = .ok a b') ∨ (∃ b', x b = .error .bufferUnderflow b') ∨ ∃ b', x b = .error .indexOutOfBounds b'

/-- Both methods do the same, and return or come to a bound. -/
def Same (x y : Read α) (b : ByteBuffer) : Prop := x b = y b ∧ Returns x b

theorem Same.ok {a : α} (hx : x b = .ok a b') (hy : y b = .ok a b') : Same x y b :=
  ⟨hx.trans hy.symm, .inl ⟨a, b', hx⟩⟩

theorem Same.pure (a : α) : Same (pure a) (pure a) b := .ok rfl rfl

theorem Same.bind (h : Same x y b) (hf : ∀ a b', x b = .ok a b' → Same (f a) (g a) b') :
    Same (x >>= f) (y >>= g) b := by
  obtain ⟨heq, ⟨a, b', hr⟩ | ⟨b', hr⟩ | ⟨b', hr⟩⟩ := h
  · have hs := hf a b' hr
    unfold Same Returns at hs ⊢
    rw [bind_of_ok hr, bind_of_ok (heq ▸ hr)]
    exact hs
  · exact ⟨(bind_of_error hr).trans (bind_of_error (heq ▸ hr)).symm, .inr (.inl ⟨b', bind_of_error hr⟩)⟩
  · exact ⟨(bind_of_error hr).trans (bind_of_error (heq ▸ hr)).symm, .inr (.inr ⟨b', bind_of_error hr⟩)⟩

theorem Same.get {f g : ByteBuffer → Read β} (h : Same (f b) (g b) b) : Same (get >>= f) (get >>= g) b := h

theorem Same.ite {p : Prop} [Decidable p] {x' y' : Read α} (h : p → Same x y b) (h' : ¬p → Same x' y' b) :
    Same (if p then x else x') (if p then y else y') b := by
  by_cases hp : p
  · rw [if_pos hp, if_pos hp]
    exact h hp
  · rw [if_neg hp, if_neg hp]
    exact h' hp

theorem same_getByte (b : ByteBuffer) : Same getByte getByte b := by
  refine ⟨rfl, ?_⟩
  unfold Returns getByte
  split
  · exact .inl ⟨_, _, rfl⟩
  · exact .inr (.inl ⟨_, rfl⟩)

theorem same_readLabel (len : Nat) (sb : List Char) (b : ByteBuffer) :
    Same (readLabel len sb) (readLabel len sb) b := by
  induction len generalizing sb b with
  | zero => exact .pure _
  | succ len ih =>
      refine .get (.ite (fun _ => .pure _) fun _ => ?_)
      exact (same_getByte b).bind fun c b' _ => ih _ b'

/-! ## The loop -/

/-- The rounds are enough where there are as many as bytes remain, and more change nothing. -/
theorem same_readLabels (hf : ∀ p b', Onward b b' → Same (follow p) (follow' p) b') (hn : b.remaining ≤ n)
    (hk : b.remaining ≤ k) (len : Nat) (sb : List Char) :
    Same (readLabels follow n len sb) (readLabels follow' k len sb) b := by
  induction n generalizing b k len sb with
  | zero =>
      have h0 : b.remaining = 0 := by omega
      exact .ok (readLabels_end h0 _ _ _) (readLabels_end h0 _ _ _)
  | succ n ih =>
      by_cases h0 : b.remaining = 0
      · exact .ok (readLabels_end h0 _ _ _) (readLabels_end h0 _ _ _)
      · obtain ⟨k, rfl⟩ : ∃ j, k = j + 1 := ⟨k - 1, by omega⟩
        refine .get (.ite (fun _ => .pure _) fun _ => (same_getByte b).bind fun c b₁ h₁ => ?_)
        obtain ⟨hle, -, hb₁⟩ := getByte_ok.1 h₁
        have hon₁ := forward_getByte _ _ _ h₁
        have hr₁ : b₁.remaining + 1 ≤ b.remaining := by
          rw [hb₁]
          simp only [ByteBuffer.remaining, ByteBuffer.skip]
          omega
        refine .ite (fun _ => .pure _) fun _ => .ite (fun _ => ?_) fun _ => ?_
        · refine (same_getByte b₁).bind fun d b₂ h₂ => ?_
          exact (hf _ _ (hon₁.trans (forward_getByte _ _ _ h₂))).bind fun _ _ _ => .pure _
        · refine (same_readLabel _ _ _).bind fun r b₂ h₂ => ?_
          have hon₂ := forward_readLabel _ _ _ _ _ h₂
          have hr₂ : b₂.remaining ≤ b₁.remaining := by
            have := hon₂.position
            have := hon₂.limit
            simp only [ByteBuffer.remaining]
            omega
          exact ih (fun p b' hb' => hf p b' ((hon₁.trans hon₂).trans hb')) (by omega) (by omega) _ _

/-! ## The pointers -/

/-- Following a pointer makes a buffer with a higher limit, or throws. -/
theorem same_readWrapped {recurse recurse' : Read (List Char)} {offset length : Nat}
    (h : ∀ new, new.array = b.array → new.limit = offset + length → Same recurse recurse' new) :
    Same (readWrapped recurse offset length) (readWrapped recurse' offset length) b := by
  unfold Same Returns readWrapped
  cases hw : ByteBuffer.wrap b.array offset length with
  | none => exact ⟨rfl, .inr (.inr ⟨b, rfl⟩)⟩
  | some new =>
      have hnew : new.array = b.array ∧ new.limit = offset + length := by
        unfold ByteBuffer.wrap at hw
        split at hw
        · cases hw
          exact ⟨rfl, rfl⟩
        · cases hw
      obtain ⟨heq, hret⟩ := h new hnew.1 hnew.2
      dsimp only
      rw [← heq]
      refine ⟨rfl, ?_⟩
      rcases hret with ⟨a, b', hr⟩ | ⟨b', hr⟩ | ⟨b', hr⟩
      · exact .inl ⟨a, b, by rw [hr]⟩
      · exact .inr (.inl ⟨b, by rw [hr]⟩)
      · exact .inr (.inr ⟨b, by rw [hr]⟩)

/-- The measure is the part of the array behind the limit: `2 * off` bytes of it are lost with each pointer. -/
theorem same_readDomain (hroom : b.array.length < b.limit + 2 * off * depth) (hk : depth ≤ k) :
    Same (readDomain off depth) (readDomain off k) b := by
  induction depth generalizing b k with
  | zero =>
      have := b.limit_le
      omega
  | succ depth ih =>
      obtain ⟨k, rfl⟩ : ∃ j, k = j + 1 := ⟨k - 1, by omega⟩
      refine .get (same_readLabels (fun p b' hb' => same_readWrapped fun new harray hlimit => ?_) (Nat.le_refl _)
        (Nat.le_refl _) _ _)
      refine ih ?_ (by omega)
      rw [harray, hb'.array, hlimit]
      rw [Nat.mul_succ] at hroom
      omega

/-! ## The bound -/

/-- In a buffer whose header lies behind those of IP and UDP, a name is read to its end or to a bound of the array, with
no more calls in each other than one for every 56 bytes of the array and one more. The rounds of the loop are enough. -/
theorem readDomain_ends (b : ByteBuffer) (h : b.arrayOffset = 28) :
    Returns readName b ∧ (∀ depth, b.array.length / 56 + 1 ≤ depth → readDomain 28 depth b = readName b) ∧
      ∀ follow n len sb, (∀ p b', Returns (follow p) b') → b.remaining ≤ n →
        readLabels follow n len sb b = readLabels follow b.remaining len sb b := by
  have hroom : b.array.length < b.limit + 2 * 28 * (b.array.length / 56 + 1) := by omega
  have hlen := b.limit_le
  have hmax : b.array.length / 56 + 1 ≤ maxDepth b := by
    unfold maxDepth
    omega
  have hname : readName b = readDomain 28 (maxDepth b) b := by
    rw [← h]
    rfl
  have hsame := same_readDomain hroom hmax
  refine ⟨?_, fun depth hd => ?_, fun follow n len sb hf hn => ?_⟩
  · unfold Returns
    rw [hname, ← hsame.1]
    exact hsame.2
  · rw [hname, ← hsame.1]
    exact (same_readDomain hroom hd).1.symm
  · exact (same_readLabels (fun p b' _ => ⟨rfl, hf p b'⟩) hn (Nat.le_refl _) len sb).1

/-- A buffer at a name that is a pointer to itself. -/
def circle : ByteBuffer where
  array := List.replicate 40 0 ++ [0xC0, 12] ++ List.replicate 22 0
  arrayOffset := 28
  position := 12
  limit := 14

theorem readDomain_ends_circle : Returns readName circle ∧ readDomain 28 2 circle = readName circle :=
  have h := readDomain_ends circle rfl
  ⟨h.1, h.2.1 2 (by decide)⟩

end TunProxy.Dns
