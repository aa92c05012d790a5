import TunProxy.Dns.Lemmas.Agree

/-!
# Two arrays

For a name that strays there are two arrays on which its characters are not the same, and the packets neither.
-/

namespace TunProxy.Dns

open Native (Bytes)
open Lib Lib.Bytes
open ByteBuffer Name

variable {α β : Type} {m : Bytes} {off cap pos n k len depth : Nat} {b b' : ByteBuffer} {c : Cursor} {sb : List Char}

/-! ## What a byte does to a name -/

theorem readLabels_prefix {follow : Nat → Read (List Char)} {s : List Char}
    (h : readLabels follow n len sb b = .ok s b') : sb.dropLast <+: s := by
  have hend : ∀ (len : Nat) (sb : List Char), sb.dropLast <+: if len = 0 then sb.dropLast else sb := by
    intro len sb
    split
    · exact List.prefix_rfl
    · exact List.dropLast_prefix sb
  induction n generalizing len sb b with
  | zero =>
      obtain ⟨rfl, -⟩ := pure_ok.1 h
      exact hend _ _
  | succ n ih =>
      by_cases hrem : b.remaining = 0
      · rw [readLabels_end hrem] at h
        cases h
        exact hend _ _
      · have hlt := position_lt hrem
        obtain ⟨x, -, hget⟩ := getByte_room hlt
        rw [readLabels_succ hget] at h
        split at h
        · cases h
          exact List.prefix_rfl
        split at h
        · obtain ⟨low, b₁, -, h⟩ := bind_ok.1 h
          obtain ⟨t, b₂, -, h⟩ := bind_ok.1 h
          obtain ⟨rfl, -⟩ := pure_ok.1 h
          exact (List.dropLast_prefix sb).trans (List.prefix_append _ _)
        · obtain ⟨b₁, hb₁, -, -⟩ := readLabel_eq x.toNat sb (b.skip 1 hlt)
          rw [bind_of_ok hb₁] at h
          have := ih h
          rw [List.dropLast_concat] at this
          exact (List.dropLast_prefix sb).trans ((List.prefix_append _ _).trans this)

variable {x : UInt8} {s : List Char} {a : Bytes}

theorem loop_zero (hb : At m off cap c b) (hlt : c.pos < c.stop) (hn : c.stop - c.pos ≤ n)
    (hx : b.array[off + c.pos]? = some 0) (h : nameLoop off depth c.limit n len sb b = .ok s b') : s = sb.dropLast := by
  obtain ⟨x, b₁, hx', h₁, -, -⟩ := hb.byte hlt
  rw [hx] at hx'
  cases hx'
  obtain ⟨k, rfl, -⟩ := rounds_getByte h₁ (hb.remaining.le.trans hn)
  rw [nameLoop, readLabels_succ h₁, if_pos rfl] at h
  cases h
  rfl

/-- The bytes of a label are in the name, wherever they lie. -/
theorem loop_content (hb : At m off cap c b) (hlt : c.pos < c.stop) (hn : c.stop - c.pos ≤ n)
    (hx : b.array[off + c.pos]? = some x) (hzero : x ≠ 0) (hx' : x.toNat < 192)
    (h : nameLoop off depth c.limit n len sb b = .ok s b') :
    sb ++ chars (slice (off + c.pos + 1) (min x.toNat (c.stop - c.pos - 1)) b.array) <+: s ∧ sb.length < s.length := by
  obtain ⟨y, b₁, hy, h₁, ho₁, hp₁⟩ := hb.byte hlt
  rw [hx] at hy
  cases hy
  obtain ⟨k, rfl, -⟩ := rounds_getByte h₁ (hb.remaining.le.trans hn)
  obtain ⟨b₂, h₂, ho₂, hp₂⟩ := readLabel_eq x.toNat sb b₁
  have hrem : b₁.remaining = c.stop - c.pos - 1 := by
    have hr := hb.remaining
    have hl := ho₁.limit
    simp only [ByteBuffer.remaining] at hr ⊢
    omega
  have hplace : b₁.arrayOffset + b₁.position = off + c.pos + 1 := by
    have hp := hb.reads.position
    have hao := ho₁.arrayOffset
    omega
  have hpos : 0 < x.toNat := Nat.pos_of_ne_zero fun h => hzero (UInt8.toNat_inj.1 h)
  rw [hrem, hplace, ho₁.array] at h₂
  rw [nameLoop, readLabels_succ h₁, if_neg hzero, if_neg (Nat.not_le.2 hx'), bind_of_ok h₂] at h
  dsimp only at h
  have hpre := readLabels_prefix h
  rw [List.dropLast_concat] at hpre
  refine ⟨hpre, ?_⟩
  by_cases hroom : c.stop - c.pos - 1 = 0
  · -- the buffer ends with the length byte, and the dot stays
    have hend : b₂.remaining = 0 := by
      have hl := ho₂.limit
      simp only [ByteBuffer.remaining] at hrem ⊢
      omega
    rw [readLabels_end hend, if_neg (by omega)] at h
    cases h
    simp only [List.length_append, List.length_cons]
    omega
  · have hle := hpre.length_le
    have hl := b.limit_le
    have hs := hb.stop
    rw [List.length_append, chars, List.length_map, length_slice (by omega)] at hle
    omega

theorem At.extend (hb : At m off cap c b) (hx : b.array[off + m.length]? = some x) (hlt : m.length < c.stop) :
    At (m ++ [x]) off cap c b := by
  refine ⟨⟨?_, ?_, hb.reads.position⟩, hb.stop, hb.limit, hb.arrayOffset, hb.array⟩
  · intro i hi
    by_cases hi' : i < m.length
    · rw [List.getElem?_append_left hi', hb.reads.bytes i hi']
    · rw [List.length_append, List.length_singleton] at hi
      obtain rfl : i = m.length := by omega
      rw [List.getElem?_concat_length, hx]
  · have hs := hb.stop
    rw [List.length_append, List.length_singleton]
    omega

theorem At.retract (hb : At (m ++ [x]) off cap c b) : At m off cap c b := by
  have hlen : (m ++ [x]).length = m.length + 1 := by rw [List.length_append, List.length_singleton]
  refine ⟨⟨?_, ?_, hb.reads.position⟩, hb.stop, hb.limit, hb.arrayOffset, hb.array⟩
  · intro i hi
    rw [hb.reads.bytes i (by omega), List.getElem?_append_left hi]
  · have hl := hb.reads.limit
    omega

/-- Where the two bytes of a pointer lead to. -/
def Cursor.target (c : Cursor) (off : Nat) (high low : UInt8) : Cursor where
  pos := low.toNat + high.toNat % 64 * 256
  stop := low.toNat + high.toNat % 64 * 256 + (off + c.limit)
  limit := off + (low.toNat + high.toNat % 64 * 256) + (off + c.limit)

/-- A pointer whose second byte is the one behind the message. -/
theorem loop_behind {high low : UInt8} (hb : At m off cap c b) (hlast : m.length = c.pos + 1) (hlt : c.pos + 1 < c.stop)
    (hn : c.stop - c.pos ≤ n) (hx : m[c.pos]? = some high) (hge : 192 ≤ high.toNat)
    (hy : b.array[off + m.length]? = some low) (h : nameLoop off depth c.limit n len sb b = .ok s b') :
    ∃ d new new' t, depth = d + 1 ∧ At m off cap (c.target off high low) new ∧ new.array = b.array ∧
      nameLoop off d (c.target off high low).limit new.remaining 0 [] new = .ok t new' ∧ s = sb ++ t := by
  have hx' : (m ++ [low])[c.pos]? = some high := by rw [List.getElem?_append_left (by omega), hx]
  have hy' : (m ++ [low])[c.pos + 1]? = some low := by rw [← hlast, List.getElem?_concat_length]
  have hne : high ≠ 0 := by
    rintro rfl
    simp at hge
  have hb₀ := hb.extend hy (by omega)
  have hround : round (m ++ [low]) off cap c =
      if off + (c.target off high low).pos + (off + c.limit) ≤ cap
      then .pointer (c.target off high low) else .throws := by
    rw [round, if_neg (by omega), hx']
    dsimp only
    rw [if_neg hne, if_pos hge, if_neg (by omega), hy']
    rfl
  split at hround
  · obtain ⟨b₂, new, -, -, hnew, harr, hr⟩ := loop_pointer hround hn hb₀
    rw [hr] at h
    cases hd : readDomain off depth new with
    | ok t new' =>
        rw [hd] at h
        cases h
        cases depth with
        | zero => exact absurd hd throw_ok
        | succ d =>
            rw [readDomain_succ, hnew.limit] at hd
            exact ⟨d, new, new', t, rfl, hnew.retract, harr, hd, rfl⟩
    | error e new' =>
        rw [hd] at h
        cases h
  · obtain ⟨e, he⟩ := loop_throws hround hn
    obtain ⟨b₂, h₂⟩ := he depth len sb b hb₀
    rw [h₂] at h
    cases h

/-- A pointer that leads to itself. -/
theorem loop_forever {high low : UInt8} (hx : m[c.pos]? = some high) (hge : 192 ≤ high.toNat)
    (hlast : m.length = c.pos + 1)
    (hself : low.toNat + high.toNat % 64 * 256 = c.pos) (hpos : 0 < c.pos) (hb : At m off cap c b)
    (hlt : c.pos + 1 < c.stop) (hn : c.stop - c.pos ≤ n) (hy : b.array[off + m.length]? = some low) :
    nameLoop off depth c.limit n len sb b ≠ .ok s b' := by
  induction depth generalizing c n len sb b s b' with
  | zero =>
      intro h
      obtain ⟨d, _, _, _, hd, -⟩ := loop_behind hb hlast hlt hn hx hge hy h
      cases hd
  | succ depth ih =>
      intro h
      obtain ⟨d, new, new', t, hd, hnew, harr, ht, -⟩ := loop_behind hb hlast hlt hn hx hge hy h
      cases hd
      have hs := hb.stop
      have ho := hb.arrayOffset
      have hl := hb.limit
      have hpos' : (c.target off high low).pos = c.pos := hself
      have hstop : (c.target off high low).stop = c.pos + (off + c.limit) := by rw [← hself]; rfl
      exact ih (c := c.target off high low) (by rw [hpos', hx]) (by rw [hpos', hlast]) (by rw [hpos', hself])
        (by rw [hpos']; exact hpos) hnew (by rw [hpos', hstop]; omega) (by rw [hnew.remaining]) (by rw [harr, hy]) ht

/-! ## Two arrays -/

/-- The message lies in the array. -/
structure Holds (m : Bytes) (off cap : Nat) (a : Bytes) : Prop where
  length : a.length = cap
  bytes : ∀ i, i < m.length → a[off + i]? = m[i]?

theorem Holds.set {i : Nat} (h : Holds m off cap a) (hi : m.length ≤ i) (x : UInt8) :
    Holds m off cap (a.set (off + i) x) where
  length := by rw [List.length_set, h.length]
  bytes j hj := by rw [List.getElem?_set_ne (by omega), h.bytes j hj]

/-- On the two arrays the loop never makes the same name. -/
def LoopsDiffer (m : Bytes) (off cap : Nat) (c : Cursor) (a a' : Bytes) : Prop :=
  ∀ depth depth' n len sb b b' s s' b₁ b₁', c.stop - c.pos ≤ n → At m off cap c b → At m off cap c b' → b.array = a →
    b'.array = a' → nameLoop off depth c.limit n len sb b = .ok s b₁ →
    nameLoop off depth' c.limit n len sb b' = .ok s' b₁' → s ≠ s'

theorem getElem?_set_of_byte {a : Bytes} {i : Nat} {x y : UInt8} (h : (a.set i x)[i]? = some y) :
    (a.set i x)[i]? = some x := by
  have hi := (List.getElem?_eq_some_iff.1 h).1
  rw [List.length_set] at hi
  rw [List.getElem?_set_self hi]

/-- A length byte of 0 ends the name, one of 1 does not. -/
theorem differ_length {a a' : Bytes} (hlt : c.pos < c.stop) :
    LoopsDiffer m off cap c (a.set (off + c.pos) 0) (a'.set (off + c.pos) 1) := by
  intro depth depth' n len sb b b' s s' b₁ b₁' hn hb hb' harr harr' h h' heq
  obtain ⟨_, _, hx, -⟩ := hb.byte hlt
  obtain ⟨_, _, hx', -⟩ := hb'.byte hlt
  rw [harr] at hx
  rw [harr'] at hx'
  have hs := loop_zero hb hlt hn (by rw [harr]; exact getElem?_set_of_byte hx) h
  obtain ⟨-, hs'⟩ :=
    loop_content hb' hlt hn (by rw [harr']; exact getElem?_set_of_byte hx') (by decide) (by decide) h'
  rw [← heq, hs, List.length_dropLast] at hs'
  omega

theorem content_char {array : Bytes} {start : Nat} (sb t : List Char) (hk : k < n) (hx : array[start + k]? = some x) :
    (sb ++ chars (slice start n array) ++ t)[sb.length + k]? = some (Char.ofNat x.toNat) := by
  have hs : (slice start n array)[k]? = some x := by rw [getElem?_slice, if_pos hk, hx]
  have hlt := (List.getElem?_eq_some_iff.1 hs).1
  rw [List.append_assoc, List.getElem?_append_right (Nat.le_add_right _ _), Nat.add_sub_cancel_left,
    List.getElem?_append_left (by rw [chars, List.length_map]; exact hlt), chars, List.getElem?_map, hs]
  rfl

/-- A byte of a label is a character of the name. -/
theorem differ_content {a a' : Bytes} {i : Nat} (hlt : c.pos < c.stop) (hx : m[c.pos]? = some x) (hzero : x ≠ 0)
    (hx' : x.toNat < 192) (hi : c.pos + 1 ≤ i) (hi' : i < min (c.pos + 1 + x.toNat) c.stop) :
    LoopsDiffer m off cap c (a.set (off + i) 0) (a'.set (off + i) 1) := by
  intro depth depth' n len sb b b' s s' b₁ b₁' hn hb hb' harr harr' h h' heq
  have hpos := (List.getElem?_eq_some_iff.1 hx).1
  obtain ⟨⟨t, ht⟩, -⟩ := loop_content hb hlt hn (by rw [hb.reads.bytes _ hpos, hx]) hzero hx' h
  obtain ⟨⟨t', ht'⟩, -⟩ := loop_content hb' hlt hn (by rw [hb'.reads.bytes _ hpos, hx]) hzero hx' h'
  have hbyte : ∀ {b : ByteBuffer} {a : Bytes} {y : UInt8}, At m off cap c b → b.array = a.set (off + i) y →
      b.array[off + c.pos + 1 + (i - (c.pos + 1))]? = some y := by
    intro b a y hb harr
    have hs := hb.stop
    have hl := b.limit_le
    have hin : off + i < b.array.length := by omega
    rw [harr, List.length_set] at hin
    rw [harr, show off + c.pos + 1 + (i - (c.pos + 1)) = off + i by omega, List.getElem?_set_self hin]
  have hk : i - (c.pos + 1) < min x.toNat (c.stop - c.pos - 1) := by omega
  have hchar := content_char sb t hk (hbyte hb harr)
  have hchar' := content_char sb t' hk (hbyte hb' harr')
  rw [ht] at hchar
  rw [ht', ← heq, hchar] at hchar'
  exact absurd hchar' (by decide)

theorem At.in_array {i : Nat} (hb : At m off cap c b) (hi : i < c.stop) : off + i < cap := by
  have hs := hb.stop
  have hl := b.limit_le
  have ha := hb.array
  omega

/-- The pointer leads to a byte of 0 on one array and to a label on the other. -/
theorem differ_target {high low low' : UInt8} {a a' : Bytes} (hlast : m.length = c.pos + 1) (hlt : c.pos + 1 < c.stop)
    (hx : m[c.pos]? = some high) (hge : 192 ≤ high.toNat) (hlow : off + m.length < cap → a[off + m.length]? = some low)
    (hlow' : off + m.length < cap → a'[off + m.length]? = some low')
    (ht : off + (c.target off high low).pos < cap → a[off + (c.target off high low).pos]? = some 0)
    (ht' : off + (c.target off high low').pos < cap → a'[off + (c.target off high low').pos]? = some x)
    (hzero : x ≠ 0) (hx' : x.toNat < 192) : LoopsDiffer m off cap c a a' := by
  intro depth depth' n len sb b b' s s' b₁ b₁' hn hb hb' harr harr' h h' heq
  have hstop : ∀ low, 0 < off + c.limit → (c.target off high low).pos < (c.target off high low).stop := by
    intro low hpos
    exact Nat.lt_add_of_pos_right hpos
  have hroom : 0 < off + c.limit := by
    have hs := hb.stop
    have hl := hb.limit
    have ho := hb.arrayOffset
    omega
  have hin := hb.in_array (i := m.length) (by omega)
  obtain ⟨d, new, _, t, -, hnew, hna, hr, rfl⟩ := loop_behind hb hlast hlt hn hx hge (by rw [harr]; exact hlow hin) h
  obtain ⟨d', new', _, t', -, hnew', hna', hr', rfl⟩ :=
    loop_behind hb' hlast hlt hn hx hge (by rw [harr']; exact hlow' hin) h'
  have hempty := loop_zero hnew (hstop _ hroom) hnew.remaining.ge
    (by rw [hna, harr]; exact ht (hnew.in_array (hstop _ hroom))) hr
  obtain ⟨-, hlabel⟩ := loop_content hnew' (hstop _ hroom) hnew'.remaining.ge
    (by rw [hna', harr']; exact ht' (hnew'.in_array (hstop _ hroom))) hzero hx' hr'
  rw [← List.append_cancel_left heq, hempty] at hlabel
  exact absurd hlabel (by decide)

/-- The header of a message with records has a byte of 0 and then one that can be the length of a label. -/
def HasCount (m : Bytes) : Prop := ∃ k y, k + 1 < 12 ∧ m[k]? = some 0 ∧ m[k + 1]? = some y ∧ y ≠ 0 ∧ y.toNat < 192

/-- Two values for the byte behind the message, where it is the second one of a pointer. -/
theorem differ_pointer {high : UInt8} {a : Bytes} (ha : Holds m off cap a) (hle : m.length ≤ 512) (hcount : HasCount m)
    (hlt : c.pos + 1 < c.stop) (hx : m[c.pos]? = some high) (hge : 192 ≤ high.toNat) (hlast : m.length = c.pos + 1)
    (hlen : 12 ≤ m.length) :
    ∃ a₁ a₂, Holds m off cap a₁ ∧ Holds m off cap a₂ ∧ LoopsDiffer m off cap c a₁ a₂ := by
  have hhigh := high.toNat_lt
  have hset : ∀ (i : Nat) (y : UInt8) {a : Bytes}, a.length = cap → off + i < cap →
      (a.set (off + i) y)[off + i]? = some y := by
    intro i y a ha hi
    exact List.getElem?_set_self (by omega)
  by_cases hself : high.toNat % 64 * 256 ≤ c.pos ∧ c.pos < high.toNat % 64 * 256 + 256
  · -- the pointer can lead to itself
    generalize hl : UInt8.ofNat (c.pos - high.toNat % 64 * 256) = low
    have hlow : low.toNat + high.toNat % 64 * 256 = c.pos := by
      rw [← hl, UInt8.toNat_ofNat']
      omega
    refine ⟨_, _, ha.set (Nat.le_refl _) low, ha, ?_⟩
    intro depth depth' n len sb b b' s s' b₁ b₁' hn hb hb' harr harr' h h'
    have hy : b.array[off + m.length]? = some low := by
      rw [harr]
      exact hset _ _ ha.length (hb.in_array (by omega))
    exact absurd h (loop_forever hx hge hlast hlow (by omega) hb hlt hn hy)
  by_cases hzero : high.toNat % 64 = 0
  · -- it leads to the header
    obtain ⟨k, y, hk, hk₀, hk₁, hy, hy'⟩ := hcount
    have hpos : ∀ j, j < 12 → (c.target off high (UInt8.ofNat j)).pos = j := by
      intro j hj
      simp only [Cursor.target, hzero, Nat.zero_mul, Nat.add_zero, UInt8.toNat_ofNat']
      omega
    have h₁ := ha.set (Nat.le_refl _) (UInt8.ofNat k)
    have h₂ := ha.set (Nat.le_refl _) (UInt8.ofNat (k + 1))
    refine ⟨_, _, h₁, h₂, differ_target hlast hlt hx hge (hset _ _ ha.length) (hset _ _ ha.length) ?_ ?_ hy hy'⟩
    · intro _
      rw [hpos _ (by omega), h₁.bytes _ (by omega), hk₀]
    · intro _
      rw [hpos _ (by omega), h₂.bytes _ (by omega), hk₁]
  · -- it leads behind the message
    have hbehind : m.length < (c.target off high 255).pos := by
      simp only [Cursor.target, UInt8.reduceToNat]
      omega
    have h₁ := (ha.set (Nat.le_refl _) 255).set hbehind.le 0
    have h₂ := (ha.set (Nat.le_refl _) 255).set hbehind.le 1
    have hlow : ∀ y : UInt8, off + m.length < cap →
        ((a.set (off + m.length) 255).set (off + (c.target off high 255).pos) y)[off + m.length]? = some 255 := by
      intro y hin
      rw [List.getElem?_set_ne (by omega)]
      exact hset _ _ ha.length hin
    have hlen := (ha.set (Nat.le_refl _) 255).length
    exact ⟨_, _, h₁, h₂, differ_target hlast hlt hx hge (hlow 0) (hlow 1) (hset _ _ hlen) (hset _ _ hlen) (by decide)
      (by decide)⟩

/-- A name that strays is not the same on all arrays. -/
theorem strays_differ {a : Bytes} (h : Strays m off cap c) (ha : Holds m off cap a) (hlen : 12 ≤ m.length)
    (hle : m.length ≤ 512) (hcount : HasCount m) :
    ∃ a₁ a₂, Holds m off cap a₁ ∧ Holds m off cap a₂ ∧ LoopsDiffer m off cap c a₁ a₂ := by
  induction h with
  | @strays c hr =>
      have hf := finds m off cap c
      rw [hr] at hf
      cases hf with
      | lengthBehind hlt hbehind => exact ⟨_, _, ha.set hbehind 0, ha.set hbehind 1, differ_length hlt⟩
      | contentBehind hlt hx hzero hx' hbehind =>
          have hpos := (List.getElem?_eq_some_iff.1 hx).1
          exact ⟨_, _, ha.set (Nat.le_refl _) 0, ha.set (Nat.le_refl _) 1,
            differ_content hlt hx hzero hx' hpos hbehind⟩
      | lowBehind hlt hx hge hlast => exact differ_pointer ha hle hcount hlt hx hge hlast hlen
  | @label c next hr _ ih =>
      obtain ⟨a₁, a₂, h₁, h₂, hd⟩ := ih
      refine ⟨a₁, a₂, h₁, h₂, ?_⟩
      intro depth depth' n len sb b b' s s' b₁ b₁' hn hb hb' harr harr' h h'
      obtain ⟨k, l, bytes, rfl, hk, hs⟩ := loop_label hr hn sb
      obtain ⟨b₂, h₂, ho₂, ha₂⟩ := hs depth len b hb
      obtain ⟨b₂', h₂', ho₂', ha₂'⟩ := hs depth' len b' hb'
      rw [h₂] at h
      rw [h₂'] at h'
      exact hd _ _ _ _ _ _ _ _ _ _ _ hk ha₂ ha₂' (ho₂.array.trans harr) (ho₂'.array.trans harr') h h'
  | @pointer c c' hr _ ih =>
      obtain ⟨a₁, a₂, h₁, h₂, hd⟩ := ih
      refine ⟨a₁, a₂, h₁, h₂, ?_⟩
      intro depth depth' n len sb b b' s s' b₁ b₁' hn hb hb' harr harr' h h' heq
      obtain ⟨b₂, new, -, -, hnew, hna, hrun⟩ := loop_pointer hr hn hb
      obtain ⟨b₂', new', -, -, hnew', hna', hrun'⟩ := loop_pointer hr hn hb'
      rw [hrun] at h
      rw [hrun'] at h'
      cases hd₁ : readDomain off depth new with
      | error e _ => rw [hd₁] at h; cases h
      | ok t _ =>
      cases hd₂ : readDomain off depth' new' with
      | error e _ => rw [hd₂] at h'; cases h'
      | ok t' _ =>
          rw [hd₁] at h
          rw [hd₂] at h'
          cases h
          cases h'
          cases depth with
          | zero => exact absurd hd₁ throw_ok
          | succ d =>
          cases depth' with
          | zero => exact absurd hd₂ throw_ok
          | succ d' =>
              rw [readDomain_succ, hnew.limit, hnew.remaining] at hd₁
              rw [readDomain_succ, hnew'.limit, hnew'.remaining] at hd₂
              exact hd _ _ _ _ _ _ _ _ _ _ _ (Nat.le_refl _) hnew hnew' (hna.trans harr) (hna'.trans harr') hd₁ hd₂
                (List.append_cancel_left heq)

/-! ## Records on two arrays -/

/-- On the two arrays the method never has the same result. -/
def ResultsDiffer (m : Bytes) (off cap pos : Nat) (x : Read α) (a a' : Bytes) : Prop :=
  ∀ b b' v v' b₁ b₁', At m off cap (.start m pos) b → At m off cap (.start m pos) b' → b.array = a → b'.array = a' →
    x b = .ok v b₁ → x b' = .ok v' b₁' → v ≠ v'

/-- There are two such arrays. -/
def Differs (m : Bytes) (off cap pos : Nat) (x : Read α) : Prop :=
  ∃ a a', Holds m off cap a ∧ Holds m off cap a' ∧ ResultsDiffer m off cap pos x a a'

/-- It leads from one position to another. -/
def Leads (m : Bytes) (off cap pos : Nat) (x : Read α) (stop : Nat) : Prop :=
  ∀ b v b', At m off cap (.start m pos) b → x b = .ok v b' → At m off cap (.start m stop) b' ∧ b'.array = b.array

theorem ResultsDiffer.of_name {x : Read α} {domain : α → List Char} {a a' : Bytes}
    (hx : ∀ b v b', x b = .ok v b' → ∃ b₁, readName b = .ok (domain v) b₁)
    (hd : LoopsDiffer m off cap (.start m pos) a a') : ResultsDiffer m off cap pos x a a' := by
  intro b b' v v' b₁ b₁' hb hb' harr harr' h h' heq
  obtain ⟨b₂, h₂⟩ := hx b v b₁ h
  obtain ⟨b₂', h₂'⟩ := hx b' v' b₁' h'
  have hname : ∀ {b : ByteBuffer} {s : List Char} {b' : ByteBuffer}, At m off cap (.start m pos) b →
      readName b = .ok s b' → ∃ d, nameLoop off d m.length (m.length - pos) 0 [] b = .ok s b' := by
    intro b s b' hb h
    obtain ⟨b₀, _, h₀, h⟩ := bind_ok.1 h
    obtain ⟨rfl, rfl⟩ := get_ok.1 h₀
    rw [hb.start_arrayOffset] at h
    cases hd : maxDepth b with
    | zero =>
        rw [hd] at h
        exact absurd h throw_ok
    | succ d =>
        rw [hd, readDomain_succ, hb.limit, hb.remaining] at h
        exact ⟨d, h⟩
  obtain ⟨d, hl⟩ := hname hb h₂
  obtain ⟨d', hl'⟩ := hname hb' h₂'
  exact hd _ _ _ _ _ _ _ _ _ _ _ (Nat.le_refl _) hb hb' harr harr' hl hl' (by rw [heq])

theorem question_domain {q : Question} (h : Question.fromBytes b = .ok q b') : ∃ b₁, readName b = .ok q.domain b₁ := by
  obtain ⟨n, -, hname, -⟩ := question_iff.1 h
  exact ⟨n, hname⟩

theorem resource_domain {r : Resource} (h : Resource.fromBytes b = .ok r b') : ∃ b₁, readName b = .ok r.domain b₁ := by
  obtain ⟨n, -, -, hname, -⟩ := resource_iff.1 h
  exact ⟨n, hname⟩

/-- A record that does not stray leads to the one behind it. -/
theorem Leads.of_agree {read : Read α} {f : Nat → Option Nat} {k stop : Nat}
    (hagree : ∀ {b}, At m off cap (.start m pos) b → Agree m off cap (.start m pos)
      (fun _ stop => ∃ k, Ends m off cap (.start m pos) k ∧ f k = some stop) read read b b)
    (hread : Forward read) (hk : Ends m off cap (.start m pos) k) (hf : f k = some stop) :
    Leads m off cap pos read stop := by
  intro b v b' hb hv
  rcases hagree hb with ⟨v', stop', b₁, b₁', h₁, -, ha, -, k', hk', hf'⟩ | ⟨e, b₁, _, h₁, -⟩
  · rw [hv] at h₁
    cases h₁
    rw [hk.unique hk', hf] at hf'
    cases hf'
    exact ⟨ha, (hread _ _ _ hv).array⟩
  · rw [hv] at h₁
    cases h₁

/-- The records of a section, of which one strays or none. -/
theorem readArray_differs {read : Read α} {f : Nat → Option Nat} {fs : List (Nat → Option Nat)} {domain : α → List Char}
    (hagree : ∀ {pos b b'}, ¬ Strays m off cap (.start m pos) → At m off cap (.start m pos) b →
      At m off cap (.start m pos) b' → Agree m off cap (.start m pos)
        (fun _ stop => ∃ k, Ends m off cap (.start m pos) k ∧ f k = some stop) read read b b')
    (hread : Forward read) (hname : ∀ b v b', read b = .ok v b' → ∃ b₁, readName b = .ok (domain v) b₁)
    (hdiffer : ∀ pos, Strays m off cap (.start m pos) →
      ∃ a a', Holds m off cap a ∧ Holds m off cap a' ∧ LoopsDiffer m off cap (.start m pos) a a')
    (h : RecordsStray m off cap (List.replicate n f ++ fs) pos) :
    Differs m off cap pos (readArray read n) ∨
      ∃ stop, RecordsStray m off cap fs stop ∧ Leads m off cap pos (readArray read n) stop := by
  induction n generalizing pos with
  | zero =>
      refine .inr ⟨pos, h, fun b v b' hb hv => ?_⟩
      obtain ⟨-, rfl⟩ := pure_ok.1 hv
      exact ⟨hb, rfl⟩
  | succ n ih =>
      cases h with
      | here hs =>
          obtain ⟨a, a', ha, ha', hd⟩ := hdiffer pos hs
          refine .inl ⟨a, a', ha, ha', ?_⟩
          intro b b' v v' b₁ b₁' hb hb' harr harr' h h' heq
          obtain ⟨x, b₂, xs, h₂, -, rfl⟩ := readArray_succ h
          obtain ⟨x', b₂', xs', h₂', -, rfl⟩ := readArray_succ h'
          exact ResultsDiffer.of_name hname hd b b' x x' b₂ b₂' hb hb' harr harr' h₂ h₂' (List.cons.inj heq).1
      | @later _ _ _ k stop hk hf hrest =>
          have hfirst : Leads m off cap pos read stop :=
            .of_agree (fun hb => hagree hk.not_strays hb hb) hread hk hf
          rcases ih hrest with ⟨a, a', ha, ha', hd⟩ | ⟨last, hs, hl⟩
          · refine .inl ⟨a, a', ha, ha', ?_⟩
            intro b b' v v' b₁ b₁' hb hb' harr harr' h h' heq
            obtain ⟨x, b₂, xs, h₂, h₃, rfl⟩ := readArray_succ h
            obtain ⟨x', b₂', xs', h₂', h₃', rfl⟩ := readArray_succ h'
            obtain ⟨hat, harr₂⟩ := hfirst _ _ _ hb h₂
            obtain ⟨hat', harr₂'⟩ := hfirst _ _ _ hb' h₂'
            exact hd _ _ _ _ _ _ hat hat' (harr₂.trans harr) (harr₂'.trans harr') h₃ h₃' (List.cons.inj heq).2
          · refine .inr ⟨last, hs, ?_⟩
            intro b v b' hb hv
            obtain ⟨x, b₂, xs, h₂, h₃, rfl⟩ := readArray_succ hv
            obtain ⟨hat, harr⟩ := hfirst _ _ _ hb h₂
            obtain ⟨hat', harr'⟩ := hl _ _ _ hat h₃
            exact ⟨hat', harr'.trans harr⟩

/-! ## The packet on two arrays -/

theorem slice_two {i : Nat} (h : i + 2 ≤ m.length) :
    ∃ x y, m[i]? = some x ∧ m[i + 1]? = some y ∧ ofBE (slice i 2 m) = 256 * x.toNat + y.toNat := by
  obtain ⟨x, hx⟩ : ∃ x, m[i]? = some x := ⟨_, List.getElem?_eq_getElem (by omega)⟩
  obtain ⟨y, hy⟩ : ∃ y, m[i + 1]? = some y := ⟨_, List.getElem?_eq_getElem (by omega)⟩
  have hs : slice i 2 m = [x, y] := by
    apply List.ext_getElem?
    intro j
    rw [getElem?_slice]
    match j with
    | 0 => rw [if_pos (by omega), Nat.add_zero, hx]; rfl
    | 1 => rw [if_pos (by omega), hy]; rfl
    | j + 2 => rw [if_neg (by omega)]; rfl
  refine ⟨x, y, hx, hy, ?_⟩
  rw [hs, ofBE_cons, ofBE_cons, ofBE_nil]
  simp only [List.length_cons, List.length_nil]
  omega

theorem Counted.hasCount (h : Counted m) {i : Nat} (hi : i = 4 ∨ i = 6 ∨ i = 8 ∨ i = 10) (hne : count m i ≠ 0) :
    HasCount m := by
  have hle : count m i ≤ 50 := by
    rcases hi with rfl | rfl | rfl | rfl
    · exact h.questions.trans (by omega)
    · exact h.resources
    · exact h.aResources
    · exact h.eResources
  have hlen := h.length_ge
  obtain ⟨x, y, hx, hy, hv⟩ := slice_two (show i + 2 ≤ m.length by omega)
  rw [count, hv] at hle hne
  refine ⟨i, y, by omega, ?_, hy, ?_, by omega⟩
  · rw [hx, show x = 0 from UInt8.toNat_inj.1 (by simp only [UInt8.toNat_zero]; omega)]
  · rintro rfl
    simp only [UInt8.toNat_zero] at hne
    omega

/-- Where a part of a packet is read whose results differ on two arrays, the packets differ. -/
theorem packets_differ {x : Read α} (g : DnsPacket → α)
    (hx : ∀ b p b', At m off cap (.start m 0) b → DnsPacket.read b = .ok (some p) b' →
      ∃ b₁ b₂, At m off cap (.start m pos) b₁ ∧ b₁.array = b.array ∧ x b₁ = .ok (g p) b₂)
    (hd : Differs m off cap pos x) :
    ∃ a₁ a₂, Holds m off cap a₁ ∧ Holds m off cap a₂ ∧ ∀ b b' p p' b₁ b₁', At m off cap (.start m 0) b →
      At m off cap (.start m 0) b' → b.array = a₁ → b'.array = a₂ → DnsPacket.read b = .ok (some p) b₁ →
      DnsPacket.read b' = .ok (some p') b₁' → p ≠ p' := by
  obtain ⟨a, a', ha, ha', hd⟩ := hd
  refine ⟨a, a', ha, ha', ?_⟩
  intro b b' p p' b₁ b₁' hb hb' harr harr' h h' heq
  obtain ⟨b₂, b₃, hat, harr₂, h₂⟩ := hx b p b₁ hb h
  obtain ⟨b₂', b₃', hat', harr₂', h₂'⟩ := hx b' p' b₁' hb' h'
  exact hd _ _ _ _ _ _ hat hat' (harr₂.trans harr) (harr₂'.trans harr') h₂ h₂' (by rw [heq])

/-- A message that strays does not make the same packet on all arrays. -/
theorem message_differs {a : Bytes} (h : MessageStrays m off cap) (ha : Holds m off cap a) :
    ∃ a₁ a₂, Holds m off cap a₁ ∧ Holds m off cap a₂ ∧ ∀ b b' p p' b₁ b₁', At m off cap (.start m 0) b →
      At m off cap (.start m 0) b' → b.array = a₁ → b'.array = a₂ → DnsPacket.read b = .ok (some p) b₁ →
      DnsPacket.read b' = .ok (some p') b₁' → p ≠ p' := by
  obtain ⟨hcounted, hrecords⟩ := h
  have hcount : HasCount m := by
    by_contra hno
    have hzero : ∀ i, i = 4 ∨ i = 6 ∨ i = 8 ∨ i = 10 → count m i = 0 := fun i hi =>
      not_not.1 fun hne => hno (hcounted.hasCount hi hne)
    rw [hzero 4 (by omega), hzero 6 (by omega), hzero 8 (by omega), hzero 10 (by omega)] at hrecords
    cases hrecords
  have hdiffer : ∀ pos, Strays m off cap (.start m pos) →
      ∃ a a', Holds m off cap a ∧ Holds m off cap a' ∧ LoopsDiffer m off cap (.start m pos) a a' := fun pos hs =>
    strays_differ hs ha hcounted.length_ge hcounted.length_le hcount
  have hresources : ∀ {n fs pos}, RecordsStray m off cap (List.replicate n (resourceEnd m) ++ fs) pos →
      Differs m off cap pos (readArray Resource.fromBytes n) ∨
        ∃ stop, RecordsStray m off cap fs stop ∧ Leads m off cap pos (readArray Resource.fromBytes n) stop := fun h =>
    readArray_differs resource_agree forward_resource (fun _ _ _ => resource_domain) hdiffer h
  rcases readArray_differs question_agree forward_question (fun _ _ _ => question_domain) hdiffer hrecords with
    hd | ⟨p₁, hrecords, hl₁⟩
  · refine packets_differ (·.questions) (fun b p b' hb h => ?_) hd
    obtain ⟨b₁, b₂, b₃, b₄, b₅, hat, harr, h₁, -⟩ := read_sections hb h
    exact ⟨b₁, b₂, hat, harr, h₁⟩
  rcases hresources hrecords with hd | ⟨p₂, hrecords, hl₂⟩
  · refine packets_differ (·.resources) (fun b p b' hb h => ?_) hd
    obtain ⟨b₁, b₂, b₃, b₄, b₅, hat, harr, h₁, h₂, -⟩ := read_sections hb h
    obtain ⟨hat₂, harr₂⟩ := hl₁ _ _ _ hat h₁
    exact ⟨b₂, b₃, hat₂, harr₂.trans harr, h₂⟩
  rcases hresources hrecords with hd | ⟨p₃, hrecords, hl₃⟩
  · refine packets_differ (·.aResources) (fun b p b' hb h => ?_) hd
    obtain ⟨b₁, b₂, b₃, b₄, b₅, hat, harr, h₁, h₂, h₃, -⟩ := read_sections hb h
    obtain ⟨hat₂, harr₂⟩ := hl₁ _ _ _ hat h₁
    obtain ⟨hat₃, harr₃⟩ := hl₂ _ _ _ hat₂ h₂
    exact ⟨b₃, b₄, hat₃, (harr₃.trans harr₂).trans harr, h₃⟩
  rw [← List.append_nil (List.replicate (count m 10) (resourceEnd m))] at hrecords
  rcases hresources hrecords with hd | ⟨p₄, hrecords, -⟩
  · refine packets_differ (·.eResources) (fun b p b' hb h => ?_) hd
    obtain ⟨b₁, b₂, b₃, b₄, b₅, hat, harr, h₁, h₂, h₃, h₄⟩ := read_sections hb h
    obtain ⟨hat₂, harr₂⟩ := hl₁ _ _ _ hat h₁
    obtain ⟨hat₃, harr₃⟩ := hl₂ _ _ _ hat₂ h₂
    obtain ⟨hat₄, harr₄⟩ := hl₃ _ _ _ hat₃ h₃
    exact ⟨b₄, b₅, hat₄, ((harr₄.trans harr₃).trans harr₂).trans harr, h₄⟩
  · cases hrecords

end TunProxy.Dns
