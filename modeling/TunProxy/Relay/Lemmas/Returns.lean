import TunProxy.Relay.Tunnel

/-!
# How the methods return

What a method of a tunnel has done to the pair where it did not throw.
-/

namespace TunProxy.Relay

open Lib
open Native (Bytes)

variable {w w' : Pair} {t u : Side} {b b' : ByteBuffer} {e : CallbackEnv} {f g : Tunnel → Tunnel} {sent copy : Bool}

@[simp] theorem Side.brother_brother : t.brother.brother = t := by cases t <;> rfl

@[simp] theorem Side.brother_ne : t.brother ≠ t := by cases t <;> simp [Side.brother]

@[simp] theorem Side.ne_brother : t ≠ t.brother := Side.brother_ne.symm

theorem Side.eq_or_brother (t u : Side) : u = t ∨ u = t.brother := by cases t <;> cases u <;> simp [Side.brother]

theorem Side.forall_of {p : Side → Prop} (t : Side) (ht : p t) (hbrother : p t.brother) (u : Side) : p u := by
  rcases Side.eq_or_brother t u with rfl | rfl
  · exact ht
  · exact hbrother

@[simp] theorem Pair.update_same : (w.update t f).tunnel t = f (w.tunnel t) := by simp [Pair.update]

@[simp] theorem Pair.update_brother : (w.update t f).tunnel t.brother = w.tunnel t.brother := by simp [Pair.update]

@[simp] theorem Pair.update_of_brother : (w.update t.brother f).tunnel t = w.tunnel t := by
  simp [Pair.update]

@[simp] theorem Pair.update_selected : (w.update t f).selected = w.selected := rfl

theorem Pair.update_update : (w.update t f).update t g = w.update t (g ∘ f) := by simp [Pair.update]

theorem Pair.update_id (h : f (w.tunnel t) = w.tunnel t) : w.update t f = w := by simp [Pair.update, h]

/-- The bytes that wait in `m_SendRemainBuffer`. -/
def Tunnel.remaining (u : Tunnel) : Bytes :=
  match u.remain with
  | some buffer => buffer.rest
  | none => []

/-! ## Writing -/

/-- The pair after `bytes` were written to the channel of `t`. -/
def Pair.wrote (w : Pair) (t : Side) (bytes : Bytes) : Pair :=
  w.update t fun u => { u with written := u.written ++ bytes }

theorem Pair.wrote_nil : w.wrote t [] = w := Pair.update_id (by simp)

theorem Pair.wrote_wrote {bytes bytes' : Bytes} : (w.wrote t bytes).wrote t bytes' = w.wrote t (bytes ++ bytes') := by
  simp [Pair.wrote, Pair.update_update, Function.comp_def]

/-- Some bytes of the buffer were taken out and written. -/
def Sends (w : Pair) (t : Side) (b b' : ByteBuffer) (w' : Pair) : Prop :=
  ∃ n ≤ b.remaining, b' = b.advance n ∧ w' = w.wrote t (b.rest.take n)

theorem Sends.refl : Sends w t b b w := ⟨0, Nat.zero_le _, ByteBuffer.advance_zero.symm, by simp [Pair.wrote_nil]⟩

theorem Sends.trans {b₁ b₂ : ByteBuffer} {w₁ w₂ : Pair} (h₁ : Sends w t b b₁ w₁) (h₂ : Sends w₁ t b₁ b₂ w₂) :
    Sends w t b b₂ w₂ := by
  obtain ⟨n, hn, rfl, rfl⟩ := h₁
  obtain ⟨m, hm, rfl, rfl⟩ := h₂
  have hsum : n + m ≤ b.remaining := by
    rw [← ByteBuffer.rest_length, ByteBuffer.advance_rest, List.length_drop, ByteBuffer.rest_length] at hm
    omega
  refine ⟨n + m, hsum, ByteBuffer.advance_advance, ?_⟩
  rw [Pair.wrote_wrote, ByteBuffer.advance_rest, List.take_add]

theorem writeLoop_ok {returns : List (Option Nat)} (h : writeLoop t returns b w = .ok b' w') : Sends w t b b' w' := by
  induction returns generalizing b w with
  | nil =>
      obtain ⟨rfl, rfl⟩ := pure_ok.1 h
      exact .refl
  | cons n returns ih =>
      unfold writeLoop at h
      split at h
      · split at h
        · exact absurd h throw_ok
        · split at h
          · obtain ⟨rfl, rfl⟩ := pure_ok.1 h
            exact .refl
          · rename_i n _
            obtain ⟨_, w₁, hw, h⟩ := bind_ok.1 h
            rw [← modify_ok.1 hw] at h
            refine Sends.trans ⟨min n b.remaining, Nat.min_le_right .., ?_, ?_⟩ (ih h)
            · simp [ByteBuffer.advance]
            · rw [← ByteBuffer.rest_length, ← List.take_eq_take_min]
              rfl
      · obtain ⟨rfl, rfl⟩ := pure_ok.1 h
        exact .refl

/-- How many of `n` bytes the channel takes, in calls that return `returns`. -/
def taken : (returns : List (Option Nat)) → (n : Nat) → Nat
  | some (k + 1) :: returns, n => if n = 0 then 0 else min (k + 1) n + taken returns (n - (k + 1))
  | _, _ => 0

theorem taken_le (returns : List (Option Nat)) (n : Nat) : taken returns n ≤ n := by
  induction returns generalizing n with
  | nil => exact Nat.zero_le n
  | cons r returns ih =>
      rcases r with _ | _ | k
      · exact Nat.zero_le n
      · exact Nat.zero_le n
      · unfold taken
        split
        · omega
        · have := ih (n - (k + 1))
          omega

theorem taken_zero {returns : List (Option Nat)} : taken returns 0 = 0 := Nat.le_zero.1 (taken_le returns 0)

theorem writeLoop_remaining {returns : List (Option Nat)} (h : writeLoop t returns b w = .ok b' w') :
    b'.remaining = b.remaining - taken returns b.remaining := by
  induction returns generalizing b w with
  | nil =>
      obtain ⟨rfl, rfl⟩ := pure_ok.1 h
      rfl
  | cons r returns ih =>
      unfold writeLoop at h
      split at h
      · rename_i hrem
        have hne : b.remaining ≠ 0 := by
          rw [← ByteBuffer.rest_length]
          exact fun h => ByteBuffer.hasRemaining_iff.1 hrem (List.length_eq_zero_iff.1 h)
        rcases r with _ | _ | k
        · exact absurd h throw_ok
        · obtain ⟨rfl, rfl⟩ := pure_ok.1 h
          rfl
        · obtain ⟨_, w₁, -, h⟩ := bind_ok.1 h
          have hadvance : (b.advance (k + 1)).remaining = b.remaining - (k + 1) := by
            rw [← ByteBuffer.rest_length, ByteBuffer.advance_rest, List.length_drop, ByteBuffer.rest_length]
          rw [ih h, hadvance, taken, if_neg hne]
          omega
      · rename_i hrem
        obtain ⟨rfl, rfl⟩ := pure_ok.1 h
        have hzero : b.remaining = 0 := by
          rw [← ByteBuffer.rest_length, ByteBuffer.rest_of_not_hasRemaining hrem]
          rfl
        rw [hzero, taken_zero]

theorem register_ok {ops : Ops} {x : Unit} (h : register t ops w = .ok x w') :
    (w.tunnel t).key ≠ .cancelled ∧ w' = w.update t fun u => { u with key := .valid ops } := by
  obtain ⟨w₁, w₂, hget, h⟩ := bind_ok.1 h
  obtain ⟨rfl, rfl⟩ := get_ok.1 hget
  split at h
  · exact absurd h throw_ok
  · rename_i hkey
    exact ⟨hkey, (modify_ok.1 h).symm⟩

/-- How `write` returns: all was written, or a part, and the rest is copied where that is wanted. -/
inductive WriteReturns (w : Pair) (t : Side) (b : ByteBuffer) : (copy : Bool) → ByteBuffer × Bool → Pair → Prop
  | all {copy : Bool} : WriteReturns w t b copy (b.advance b.remaining, true) (w.wrote t b.rest)
  | part (n) (hn : n < b.remaining) : WriteReturns w t b false (b.advance n, false) (w.wrote t (b.rest.take n))
  | copied (n) (hn : n < b.remaining) (b' r : ByteBuffer) (hr : r.rest = b.rest.drop n)
      (hkey : (w.tunnel t).key ≠ .cancelled) :
      WriteReturns w t b true (b', false)
        ((w.wrote t (b.rest.take n)).update t fun u => { u with remain := some r, key := .valid .write })

theorem copyRemain_rest {remain : Option ByteBuffer} {r : ByteBuffer} (h : copyRemain remain b = some r) :
    r.rest = b.rest := by
  obtain ⟨r', hput, rfl⟩ := Option.map_eq_some_iff.1 h
  exact ByteBuffer.flip_put hput

theorem write_ok {returns : List (Option Nat)} {x : ByteBuffer × Bool} (h : write t b copy returns w = .ok x w') :
    WriteReturns w t b copy x w' := by
  obtain ⟨b₁, w₁, hloop, h⟩ := bind_ok.1 h
  obtain ⟨n, hn, rfl, rfl⟩ := writeLoop_ok hloop
  split at h
  · rename_i hrem
    have hlt : n < b.remaining := by
      rw [ByteBuffer.hasRemaining_iff, ByteBuffer.advance_rest] at hrem
      by_contra hge
      exact hrem (List.drop_of_length_le (by rw [ByteBuffer.rest_length]; omega))
    split at h
    · rename_i hcopy
      obtain ⟨w₂, w₃, hget, h⟩ := bind_ok.1 h
      obtain ⟨rfl, rfl⟩ := get_ok.1 hget
      generalize hr : copyRemain _ _ = remain at h
      cases remain with
      | none => exact absurd h throw_ok
      | some r =>
          obtain ⟨_, w₄, hmod, h⟩ := bind_ok.1 h
          obtain ⟨_, w₅, hreg, h⟩ := bind_ok.1 h
          obtain ⟨rfl, rfl⟩ := pure_ok.1 h
          rw [← modify_ok.1 hmod] at hreg
          obtain ⟨hkey, rfl⟩ := register_ok hreg
          rw [Pair.update_update, hcopy]
          refine .copied n hlt _ r ((copyRemain_rest hr).trans ByteBuffer.advance_rest) ?_
          simpa [Pair.wrote] using hkey
    · rename_i hcopy
      obtain ⟨rfl, rfl⟩ := pure_ok.1 h
      rw [Bool.not_eq_true] at hcopy
      rw [hcopy]
      exact .part n hlt
  · rename_i hrem
    obtain ⟨rfl, rfl⟩ := pure_ok.1 h
    have hall : n = b.remaining := by
      have hnil := ByteBuffer.rest_of_not_hasRemaining hrem
      rw [ByteBuffer.advance_rest, List.drop_eq_nil_iff, ByteBuffer.rest_length] at hnil
      omega
    subst hall
    rw [← ByteBuffer.rest_length, List.take_length]
    rw [ByteBuffer.rest_length]
    exact .all

/-- Without copying, what was not written stays in the buffer. -/
theorem WriteReturns.sends {x : ByteBuffer × Bool} (h : WriteReturns w t b false x w') : Sends w t b x.1 w' := by
  cases h with
  | all => exact ⟨b.remaining, Nat.le_refl _, rfl, by rw [← ByteBuffer.rest_length, List.take_length]⟩
  | part n hn => exact ⟨n, Nat.le_of_lt hn, rfl, rfl⟩

theorem trySendPartOfHeader_ok {returns : List (Option Nat)} (h : trySendPartOfHeader t b returns w = .ok b' w') :
    Sends w t b b' w' := by
  unfold trySendPartOfHeader at h
  split at h
  · rename_i hlong
    have hten : 10 ≤ b.remaining := by omega
    cases hpart : b.setLimit (b.position + 10) with
    | none =>
        rw [hpart] at h
        exact absurd h throw_ok
    | some part =>
        rw [hpart] at h
        obtain ⟨x, w₁, hwrite, h⟩ := bind_ok.1 h
        obtain ⟨n, hn, hx, rfl⟩ := (write_ok hwrite).sends
        have hrest := ByteBuffer.setLimit_rest hten hpart
        have hle : n ≤ 10 := by
          rw [← ByteBuffer.rest_length, hrest, List.length_take] at hn
          omega
        have hback : x.1.setLimit b.limit = some (b.advance n) := by
          rw [hx, ByteBuffer.setLimit_back hten hpart, Nat.min_eq_left hle]
        simp only [hback] at h
        obtain ⟨rfl, rfl⟩ := pure_ok.1 h
        refine ⟨n, by omega, rfl, ?_⟩
        rw [hrest, List.take_take, Nat.min_eq_left hle]
  · obtain ⟨rfl, rfl⟩ := pure_ok.1 h
    exact .refl

theorem beforeSend_ok (h : beforeSend t b e w = .ok b' w') : Sends w t b b' w' := by
  obtain ⟨w₁, w₂, hget, h⟩ := bind_ok.1 h
  obtain ⟨rfl, rfl⟩ := get_ok.1 hget
  cases hkind : (w.tunnel t).kind with
  | raw =>
      rw [hkind] at h
      obtain ⟨rfl, rfl⟩ := pure_ok.1 h
      exact .refl
  | httpConnect established =>
      rw [hkind] at h
      simp only [] at h
      split at h
      · exact trySendPartOfHeader_ok h
      · obtain ⟨rfl, rfl⟩ := pure_ok.1 h
        exact .refl

/-- The part of the header and the rest are written like one. -/
theorem Sends.write {x : ByteBuffer × Bool} {w₁ : Pair} (h₁ : Sends w t b b' w₁) (h₂ : WriteReturns w₁ t b' copy x w') :
    WriteReturns w t b copy x w' := by
  obtain ⟨n, hn, rfl, rfl⟩ := h₁
  have hrem : (b.advance n).remaining = b.remaining - n := by
    rw [← ByteBuffer.rest_length, ByteBuffer.advance_rest, List.length_drop, ByteBuffer.rest_length]
  cases h₂ with
  | all =>
      have hall : WriteReturns w t b copy _ _ := .all
      rw [ByteBuffer.advance_advance, hrem, Nat.add_sub_cancel' hn, Pair.wrote_wrote, ByteBuffer.advance_rest,
        List.take_append_drop]
      exact hall
  | part m hm =>
      have hpart : WriteReturns w t b false _ _ := .part (n + m) (by omega)
      rw [ByteBuffer.advance_advance, Pair.wrote_wrote, ByteBuffer.advance_rest, ← List.take_add]
      exact hpart
  | copied m hm b'' r hr hkey =>
      rw [Pair.wrote_wrote, ByteBuffer.advance_rest, ← List.take_add]
      refine .copied (n + m) (by omega) _ r ?_ ?_
      · rw [hr, ByteBuffer.advance_rest, List.drop_drop]
      · simpa [Pair.wrote] using hkey

/-! ## Whether all is written -/

theorem write_sent {returns : List (Option Nat)} {x : ByteBuffer × Bool} (h : write t b copy returns w = .ok x w') :
    x.2 = decide (taken returns b.remaining = b.remaining) := by
  have hle := taken_le returns b.remaining
  obtain ⟨b₁, w₁, hloop, h⟩ := bind_ok.1 h
  have hloop := writeLoop_remaining hloop
  split at h
  · rename_i hrem
    have hpos : b₁.remaining ≠ 0 := by
      rw [← ByteBuffer.rest_length]
      exact fun h => ByteBuffer.hasRemaining_iff.1 hrem (List.length_eq_zero_iff.1 h)
    have hpart : ¬taken returns b.remaining = b.remaining := by omega
    split at h
    · obtain ⟨w₂, w₃, -, h⟩ := bind_ok.1 h
      generalize copyRemain _ _ = remain at h
      cases remain with
      | none => exact absurd h throw_ok
      | some r =>
          obtain ⟨_, w₄, -, h⟩ := bind_ok.1 h
          obtain ⟨_, w₅, -, h⟩ := bind_ok.1 h
          rw [← (pure_ok.1 h).1, decide_eq_false hpart]
    · rw [← (pure_ok.1 h).1, decide_eq_false hpart]
  · rename_i hrem
    have hzero : b₁.remaining = 0 := by
      rw [← ByteBuffer.rest_length, ByteBuffer.rest_of_not_hasRemaining hrem]
      rfl
    rw [← (pure_ok.1 h).1, decide_eq_true (by omega)]

theorem write_remaining {returns : List (Option Nat)} {x : ByteBuffer × Bool}
    (h : write t b false returns w = .ok x w') : x.1.remaining = b.remaining - taken returns b.remaining := by
  obtain ⟨b₁, w₁, hloop, h⟩ := bind_ok.1 h
  rw [← writeLoop_remaining hloop]
  split at h
  · simp only [Bool.false_eq_true, ↓reduceIte] at h
    rw [← (pure_ok.1 h).1]
  · rw [← (pure_ok.1 h).1]

/-- How many of the bytes are taken as the part of a header. -/
def partTaken (u : Tunnel) (e : CallbackEnv) (bytes : Bytes) : Nat :=
  if u.kind ≠ .raw ∧ e.isolate = true ∧ bytes.length > 10 ∧ isRequest (bytes.take 10) = true
  then taken e.header 10 else 0

/-- The channel of the tunnel takes all of the bytes. -/
def takesAll (u : Tunnel) (e : CallbackEnv) (bytes : Bytes) : Bool :=
  taken e.writes (bytes.length - partTaken u e bytes) = bytes.length - partTaken u e bytes

theorem trySendPartOfHeader_remaining {returns : List (Option Nat)} (hlong : b.remaining > 10)
    (hrequest : isRequest (b.rest.take 10) = true) (h : trySendPartOfHeader t b returns w = .ok b' w') :
    b'.remaining = b.remaining - taken returns 10 := by
  unfold trySendPartOfHeader at h
  rw [if_pos ⟨hlong, hrequest⟩] at h
  have hten : 10 ≤ b.remaining := by omega
  cases hpart : b.setLimit (b.position + 10) with
  | none =>
      rw [hpart] at h
      exact absurd h throw_ok
  | some part =>
      rw [hpart] at h
      obtain ⟨x, w₁, hwrite, h⟩ := bind_ok.1 h
      obtain ⟨n, hn, hx, rfl⟩ := (write_ok hwrite).sends
      have hpart' : part.remaining = 10 := by
        rw [← ByteBuffer.rest_length, ByteBuffer.setLimit_rest hten hpart, List.length_take, ByteBuffer.rest_length]
        omega
      have hleft := write_remaining hwrite
      have hadvance : (part.advance n).remaining = part.remaining - n := by
        rw [← ByteBuffer.rest_length, ByteBuffer.advance_rest, List.length_drop, ByteBuffer.rest_length]
      have hle := taken_le returns 10
      rw [hx, hadvance, hpart'] at hleft
      have hback : x.1.setLimit b.limit = some (b.advance n) := by
        rw [hx, ByteBuffer.setLimit_back hten hpart, Nat.min_eq_left (by omega)]
      simp only [hback] at h
      rw [← (pure_ok.1 h).1, ← ByteBuffer.rest_length, ByteBuffer.advance_rest, List.length_drop,
        ByteBuffer.rest_length]
      omega

theorem beforeSend_remaining (h : beforeSend t b e w = .ok b' w') :
    b'.remaining = b.remaining - partTaken (w.tunnel t) e b.rest := by
  obtain ⟨w₁, w₂, hget, h⟩ := bind_ok.1 h
  obtain ⟨rfl, rfl⟩ := get_ok.1 hget
  cases hkind : (w.tunnel t).kind with
  | raw =>
      rw [hkind] at h
      rw [← (pure_ok.1 h).1]
      simp [partTaken, hkind]
  | httpConnect established =>
      rw [hkind] at h
      simp only [] at h
      split at h
      · rename_i hisolate
        by_cases hsplit : b.remaining > 10 ∧ isRequest (b.rest.take 10) = true
        · rw [trySendPartOfHeader_remaining hsplit.1 hsplit.2 h]
          simp [partTaken, hkind, hisolate, hsplit, ByteBuffer.rest_length]
        · rw [trySendPartOfHeader, if_neg hsplit] at h
          rw [← (pure_ok.1 h).1]
          simp only [partTaken, ByteBuffer.rest_length, hsplit, and_false, if_false]
          omega
      · rename_i hisolate
        rw [← (pure_ok.1 h).1]
        simp [partTaken, hisolate]

end TunProxy.Relay
