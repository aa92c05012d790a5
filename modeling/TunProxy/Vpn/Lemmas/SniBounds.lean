import TunProxy.Vpn.SniBounds

/-!
# What `getSNI` reads lies in the range
-/

namespace TunProxy.Vpn.Range

variable {r : Range} {c : Charset} {α β : Type} {i j : Int}

/-! ## The cursor -/

/-- The end of the range is an int, with room for the small steps behind it. -/
theorem bounds (r : Range) : r.start + r.count ≤ r.buffer.bytes.length ∧ r.buffer.bytes.length ≤ 2 ^ 31 - 9 :=
  ⟨r.inside, r.buffer.length_le⟩

theorem limit_eq (r : Range) : r.limit = r.start + r.count := by
  have := r.bounds
  simp only [limit, int]
  omega

theorem int_int_add : int (int i + j) = int (i + j) := by
  simp only [int]
  omega

theorem int_add (h : r.start ≤ i ∧ i < r.start + r.count) (hj : 0 ≤ j) (hle : j ≤ 9) : int (i + j) = i + j := by
  have := r.bounds
  simp only [int]
  omega

theorem int_eq (h₀ : 0 ≤ i) (h : i ≤ r.buffer.bytes.length) : int i = i := by
  have := r.bounds
  simp only [int]
  omega

/-- A cursor that is not before the range, unless it has wrapped around. -/
def Ahead (r : Range) (i : Int) : Prop := i < 2 ^ 31 ∧ (i < 0 ∨ r.start ≤ i)

theorem ahead_int (h : r.start ≤ i ∧ i < r.start + r.count) (hj : 0 ≤ j) (hle : j ≤ 2 ^ 17) :
    r.Ahead (int (i + j)) := by
  have := r.bounds
  simp only [Ahead, int]
  omega

theorem int_cases (h : r.start ≤ i ∧ i < r.start + r.count) (hj : 0 ≤ j) (hle : j ≤ 2 ^ 17) :
    int (i + j) < 0 ∨ int (i + j) = i + j := by
  have := r.bounds
  simp only [int]
  omega

/-- What a check is worth: where the sum wraps around, the cursor is outside the array. -/
theorem Ahead.checked (h : r.Ahead i) (hj : 0 ≤ j) (hle : j ≤ 4) (hcheck : int (i + j) ≤ r.start + r.count)
    (h₀ : 0 ≤ i) (h₁ : i < r.buffer.bytes.length) : r.start ≤ i ∧ i + j ≤ r.start + r.count := by
  have := r.bounds
  simp only [Ahead] at h
  simp only [int] at hcheck
  omega

/-! ## Reads -/

/-- The program ends, with a result or with an exception, and has read nothing outside the range. -/
def Bounded (x : Except SniFault α) : Prop := ∀ fault, x = .error fault → fault = .thrown

theorem Bounded.ok (a : α) : Bounded (.ok a) := fun _ h => nomatch h

theorem Bounded.thrown : Bounded (.error .thrown : Except SniFault α) := by
  rintro fault ⟨⟩
  rfl

theorem Bounded.ite {p : Prop} [Decidable p] {x y : Except SniFault α} (hx : p → Bounded x) (hy : ¬p → Bounded y) :
    Bounded (if p then x else y) := by
  split
  · exact hx ‹_›
  · exact hy ‹_›

theorem Bounded.bind {x : Except SniFault α} {f : α → Except SniFault β} (hx : Bounded x)
    (hf : ∀ a, x = .ok a → Bounded (f a)) : Bounded (x >>= f) := by
  cases x with
  | error fault =>
      intro fault' h
      exact hx fault' (congrArg Except.error (Except.error.inj h))
  | ok a => exact hf a rfl

/-- Where a check has kept the cursor below the limit, a read is in the range or throws. -/
theorem bounded_read (h : 0 ≤ i → i < r.buffer.bytes.length → r.start ≤ i ∧ i + 1 ≤ r.start + r.count) :
    Bounded (r.read i) := by
  unfold read
  refine .ite (fun _ => .thrown) fun hin => .ite (fun hout => ?_) fun _ => .ok _
  have := h (by omega) (by omega)
  omega

theorem read_ok {x : UInt8} (h : r.read i = .ok x) : r.start ≤ i ∧ i < r.start + r.count := by
  unfold read at h
  split at h
  · cases h
  · split at h
    · cases h
    · omega

theorem bounded_readShort (h : 0 ≤ i → i < r.buffer.bytes.length → r.start ≤ i ∧ i + 2 ≤ r.start + r.count) :
    Bounded (r.readShort i) := by
  unfold readShort
  refine .bind (bounded_read fun h₀ h₁ => ?_) fun hi hhi => .bind (bounded_read ?_) fun lo _ => .ok _
  · have := h h₀ h₁
    omega
  · have hi := read_ok hhi
    have hin := r.inside
    have := h (by omega) (by omega)
    rw [int_add hi (by omega) (by omega)]
    omega

theorem readShort_ok {n : Nat} (h : r.readShort i = .ok n) :
    (r.start ≤ i ∧ i < r.start + r.count) ∧ n < 2 ^ 16 := by
  unfold readShort at h
  cases hhi : r.read i with
  | error fault =>
      rw [hhi] at h
      cases h
  | ok hi =>
      cases hlo : r.read (int (i + 1)) with
      | error fault =>
          rw [hhi] at h
          simp only [bind, Except.bind, hlo] at h
          cases h
      | ok lo =>
          rw [hhi] at h
          simp only [bind, Except.bind, hlo] at h
          cases h
          have := hi.toNat_lt
          have := lo.toNat_lt
          exact ⟨read_ok hhi, by omega⟩

theorem bounded_newString (h : 0 ≤ i → i + j ≤ r.buffer.bytes.length → r.start ≤ i ∧ i + j ≤ r.start + r.count) :
    Bounded (r.newString c i j) := by
  unfold newString
  refine .ite (fun _ => .thrown) fun hin => .ite (fun hout => ?_) fun _ => .ok _
  have := h (by omega) (by omega)
  omega

theorem sniOfExtensions_bounded {rounds : Nat} (hr : 0 < rounds) (hi : r.Ahead i)
    (h : i < 0 ∨ r.start + r.count < i + 4 * rounds) : Bounded (r.sniOfExtensions c rounds i) := by
  induction rounds generalizing i with
  | zero => cases hr
  | succ rounds ih =>
      rw [sniOfExtensions, limit_eq]
      refine .ite (fun hle => ?_) fun _ => .ok _
      have hchecked := hi.checked (by omega) (by omega) hle
      refine .bind (bounded_read fun h₀ h₁ => ?_) fun type0 htype0 => ?_
      · have := hchecked h₀ h₁
        omega
      have hin := read_ok htype0
      have hlt := r.inside
      -- the cursor is in the array, so the check holds without wrapping around
      have hroom := hchecked (by omega) (by omega)
      simp only [int_int_add]
      rw [Int.add_assoc i 1 1, Int.add_assoc i (1 + 1) 2, Int.add_assoc i (1 + 1 + 2) 5,
        int_add hin (by omega) (by omega), int_add hin (by omega) (by omega), int_add hin (by omega) (by omega)]
      refine .bind (bounded_read fun _ _ => by omega) fun type1 _ => ?_
      refine .bind (bounded_readShort fun _ _ => by omega) fun length hlength => ?_
      obtain ⟨-, hlength⟩ := readShort_ok hlength
      refine .ite (fun hsni => ?_) fun _ => ?_
      · refine .ite (fun _ => .ok _) fun hname => .bind (bounded_newString fun h₀ h₁ => ?_) fun _ _ => .ok _
        rw [int_eq (by omega) h₁] at hname
        omega
      · rw [Int.add_assoc]
        have hahead : r.Ahead (int (i + (1 + 1 + 2 + length))) := ahead_int hin (by omega) (by omega)
        have hnext := int_cases hin (j := 1 + 1 + 2 + length) (by omega) (by omega)
        exact ih (by omega) hahead (by omega)

/-- The cursor behind a field: it is moved over the length and then over what that length says. -/
theorem ahead_behind {n : Nat} (h : r.start ≤ i ∧ i < r.start + r.count) (hj : 0 ≤ j) (hle : j ≤ 4) (hn : n < 2 ^ 16) :
    r.Ahead (int (int (i + j) + n)) := by
  rw [int_int_add, Int.add_assoc]
  exact ahead_int h (by omega) (by omega)

theorem getSNI_bounded (r : Range) (c : Charset) : Bounded (r.getSNI c) := by
  rw [getSNI, limit_eq]
  refine .ite (fun hcount => ?_) fun _ => .ok _
  refine .bind (bounded_read fun _ _ => by omega) fun type htype => .ite (fun _ => .ok _) fun _ => ?_
  have hahead : r.Ahead (int (r.start + 43)) := ahead_int (read_ok htype) (by omega) (by omega)
  refine .ite (fun _ => .ok _) fun hle => ?_
  have hchecked := hahead.checked (by omega) (by omega) (Int.not_lt.1 hle)
  refine .bind (bounded_read hchecked) fun sessionIDLength hread => ?_
  have hlt := sessionIDLength.toNat_lt
  have hahead := ahead_behind (read_ok hread) (j := 1) (n := sessionIDLength.toNat) (by omega) (by omega) (by omega)
  refine .ite (fun _ => .ok _) fun hle => ?_
  have hchecked := hahead.checked (by omega) (by omega) (Int.not_lt.1 hle)
  refine .bind (bounded_readShort hchecked) fun cipherSuitesLength hread => ?_
  obtain ⟨hin, hlt⟩ := readShort_ok hread
  have hahead := ahead_behind hin (j := 2) (by omega) (by omega) hlt
  refine .ite (fun _ => .ok _) fun hle => ?_
  have hchecked := hahead.checked (by omega) (by omega) (Int.not_lt.1 hle)
  refine .bind (bounded_read hchecked) fun compressionMethodLength hread => ?_
  have hlt := compressionMethodLength.toNat_lt
  have hahead := ahead_behind (read_ok hread) (j := 1) (n := compressionMethodLength.toNat) (by omega) (by omega)
    (by omega)
  refine .ite (fun _ => .ok _) fun _ => .ite (fun _ => .ok _) fun hle => ?_
  have hchecked := hahead.checked (by omega) (by omega) (Int.not_lt.1 hle)
  refine .bind (bounded_readShort hchecked) fun extensionsLength hread => .ite (fun _ => .ok _) fun _ => ?_
  obtain ⟨hin, -⟩ := readShort_ok hread
  have hahead : r.Ahead (int (_ + 2)) := ahead_int hin (by omega) (by omega)
  refine sniOfExtensions_bounded (by omega) hahead (hahead.2.imp_right fun hstart => ?_)
  omega

/-! ## It is the function of the parser -/

/-- The same value, or an exception for none. -/
def Same (x : Except SniFault α) (y : Option α) : Prop := x = y.elim (.error .thrown) .ok

theorem Same.ok (a : α) : Same (.ok a) (some a) := rfl

theorem Same.ite {p q : Prop} [Decidable p] [Decidable q] {x₁ x₂ : Except SniFault α} {y₁ y₂ : Option α} (hpq : p ↔ q)
    (h₁ : q → Same x₁ y₁) (h₂ : ¬q → Same x₂ y₂) : Same (if p then x₁ else x₂) (if q then y₁ else y₂) := by
  by_cases hq : q
  · rw [if_pos hq, if_pos (hpq.2 hq)]
    exact h₁ hq
  · rw [if_neg hq, if_neg fun hp => hq (hpq.1 hp)]
    exact h₂ hq

theorem read_eq {n : Nat} (h : r.start ≤ n ∧ n < r.start + r.count) :
    ∃ x, r.read n = .ok x ∧ r.buffer.bytes[n]? = some x := by
  have hin := r.inside
  refine ⟨r.buffer.bytes[n], ?_, List.getElem?_eq_getElem (by omega)⟩
  rw [read, if_neg (by omega), if_neg (by omega), Int.toNat_natCast, List.getD_eq_getElem?_getD,
    List.getElem?_eq_getElem (by omega), Option.getD_some]

theorem Same.read {n : Nat} {f : UInt8 → Except SniFault β} {g : UInt8 → Option β} (hi : i = n)
    (h : r.start ≤ n ∧ n < r.start + r.count) (hf : ∀ x, Same (f x) (g x)) :
    Same (r.read i >>= f) (r.buffer.bytes[n]?.bind g) := by
  obtain ⟨x, hread, hget⟩ := read_eq h
  rw [hi, hread, hget]
  exact hf x

theorem Same.readShort {n : Nat} {f : Nat → Except SniFault β} {g : BitVec 16 → Option β} (hi : i = n)
    (h : r.start ≤ n ∧ n + 1 < r.start + r.count) (hf : ∀ x : BitVec 16, Same (f x.toNat) (g x)) :
    Same (r.readShort i >>= f) ((CommonMethods.readShort r.buffer.bytes n).bind g) := by
  obtain ⟨hi', hread, hget⟩ := read_eq (r := r) (n := n) (by omega)
  obtain ⟨lo, hread', hget'⟩ := read_eq (r := r) (n := n + 1) (by omega)
  have hlt := hi'.toNat_lt
  have hlt' := lo.toNat_lt
  have hint : int (n + 1) = ((n + 1 : Nat) : Int) := int_add (r := r) (by omega) (by omega) (by omega)
  have hx := hf (BitVec.ofNat 16 (256 * hi'.toNat + lo.toNat))
  rw [BitVec.toNat_ofNat, Nat.mod_eq_of_lt (by omega)] at hx
  rw [hi, Range.readShort, CommonMethods.readShort, hread, hget, hint]
  simp only [Option.bind_some, bind, Except.bind, hread', hget', pure, Except.pure]
  exact hx

theorem newString_eq {i j : Int} {k n : Nat} (hi : i = k) (hj : j = n) (h₀ : r.start ≤ k)
    (h₁ : k + n ≤ r.start + r.count) :
    ∃ s, r.newString c i j = .ok s ∧ HttpHostHeaderParser.newString c r.buffer.bytes k n = some s := by
  have hin := r.inside
  subst hi hj
  refine ⟨_, ?_, if_pos (by omega)⟩
  rw [newString, if_neg (by omega), if_neg (by omega), Int.toNat_natCast, Int.toNat_natCast]

/-- The cursor of an array that is shorter does not wrap around. -/
theorem int_cursor (h : r.buffer.bytes.length + 2 ^ 17 ≤ 2 ^ 31) (hi : 0 ≤ i)
    (hle : i < r.buffer.bytes.length + 2 ^ 17) : int i = i := by
  simp only [int]
  omega

theorem sniOfExtensions_same {rounds n : Nat} (h : r.buffer.bytes.length + 2 ^ 17 ≤ 2 ^ 31) (hr : 0 < rounds)
    (hi : i = n) (hn : r.start ≤ n) (hle : n ≤ r.start + r.count + 2 ^ 16) (hlim : r.start + r.count < n + 4 * rounds) :
    Same (r.sniOfExtensions c rounds i)
      (HttpHostHeaderParser.sniOfExtensions c r.buffer.bytes (r.start + r.count) n) := by
  have hin := r.inside
  induction rounds generalizing n i with
  | zero => cases hr
  | succ rounds ih =>
      subst hi
      rw [sniOfExtensions, limit_eq, HttpHostHeaderParser.sniOfExtensions]
      rw [int_cursor (i := n + 4) h (by omega) (by omega)]
      refine .ite (by omega) (fun hcheck => ?_) fun _ => .ok _
      simp only [int_int_add]
      rw [int_cursor h (by omega) (by omega), int_cursor h (by omega) (by omega), int_cursor h (by omega) (by omega)]
      refine .read rfl (by omega) fun type0 => .read (by omega) (by omega) fun type1 =>
        .readShort (by omega) (by omega) fun length => ?_
      have hlt := length.isLt
      refine .ite .rfl (fun hsni => ?_) fun hno => ?_
      · rw [int_cursor h (by omega) (by omega)]
        refine .ite (by omega) (fun _ => .ok _) fun hname => ?_
        obtain ⟨s, hs, hs'⟩ :=
          newString_eq (r := r) (c := c) (i := n + 1 + 1 + 2 + 5) (j := length.toNat - 5) (k := n + 9)
          (n := length.toNat - 5) (by omega) (by omega) (by omega) (by omega)
        rw [hs, hs']
        exact .ok _
      · rw [int_cursor h (by omega) (by omega)]
        exact ih (by omega) (by omega) (by omega) (by omega) (by omega)

theorem ok_bind (a : α) (f : α → Except SniFault β) : (.ok a >>= f) = f a := rfl

theorem getSNI_same (r : Range) (c : Charset) (h : r.buffer.bytes.length + 2 ^ 17 ≤ 2 ^ 31)
    (hstart : r.start < r.buffer.bytes.length) :
    Same (r.getSNI c) (HttpHostHeaderParser.getSNI c r.buffer.bytes r.start r.count) := by
  have hin := r.inside
  rw [getSNI, limit_eq, HttpHostHeaderParser.getSNI, Option.bind_eq_bind, List.getElem?_eq_getElem hstart,
    Option.bind_some]
  by_cases hcount : r.count > 43
  · obtain ⟨x, hread, hget⟩ := read_eq (r := r) (n := r.start) (by omega)
    rw [List.getElem?_eq_getElem hstart] at hget
    cases hget
    rw [if_pos hcount, hread]
    rw [ok_bind]
    simp only [int_int_add]
    by_cases hx : r.buffer.bytes[r.start] = 0x16
    · rw [if_neg (not_not.2 hx), if_pos (And.intro hcount hx), int_cursor h (by omega) (by omega),
        int_cursor h (by omega) (by omega)]
      refine .ite (by omega) (fun _ => .ok _) fun hle => .read (by omega) (by omega) fun sessionIDLength => ?_
      have hlt := sessionIDLength.toNat_lt
      rw [int_cursor h (by omega) (by omega), int_cursor h (by omega) (by omega)]
      refine .ite (by omega) (fun _ => .ok _) fun hle => .readShort (by omega) (by omega) fun cipherSuitesLength => ?_
      have hlt := cipherSuitesLength.isLt
      rw [int_cursor h (by omega) (by omega), int_cursor h (by omega) (by omega)]
      refine .ite (by omega) (fun _ => .ok _) fun hle => .read (by omega) (by omega) fun compressionMethodLength => ?_
      have hlt := compressionMethodLength.toNat_lt
      rw [int_cursor h (by omega) (by omega), int_cursor h (by omega) (by omega)]
      refine .ite (by omega) (fun _ => .ok _) fun _ => .ite (by omega) (fun _ => .ok _) fun hle => ?_
      refine .readShort (by omega) (by omega) fun extensionsLength => ?_
      have hlt := extensionsLength.isLt
      rw [int_cursor h (by omega) (by omega)]
      refine .ite (by omega) (fun _ => .ok _) fun hle => ?_
      exact sniOfExtensions_same h (by omega) (by omega) (by omega) (by omega) (by omega)
    · rw [if_pos hx, if_neg fun h' => hx h'.2]
      exact .ok _
  · rw [if_neg hcount, if_neg fun h' => hcount h'.1]
    exact .ok _

end TunProxy.Vpn.Range
