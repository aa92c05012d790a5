import TunProxy.Dns.Packet

/-!
# Reading goes forward

What the methods that read from a buffer leave alone, and the reads of a fixed number of bytes.
-/

namespace TunProxy.Dns

open Native (Bytes)
open Lib Lib.Bytes

variable {α β : Type} {b b' : ByteBuffer} {x : Read α} {f : α → Read β} {n len : Nat} {sb : List Char} {bs : Bytes}

/-- The same buffer, read further. -/
structure Onward (b b' : ByteBuffer) : Prop where
  array : b'.array = b.array
  arrayOffset : b'.arrayOffset = b.arrayOffset
  limit : b'.limit = b.limit
  position : b.position ≤ b'.position

theorem Onward.refl (b : ByteBuffer) : Onward b b := ⟨rfl, rfl, rfl, Nat.le_refl _⟩

theorem Onward.trans {b'' : ByteBuffer} (h : Onward b b') (h' : Onward b' b'') : Onward b b'' :=
  ⟨h'.array.trans h.array, h'.arrayOffset.trans h.arrayOffset, h'.limit.trans h.limit, h.position.trans h'.position⟩

theorem ByteBuffer.onward_skip (h : b.position + n ≤ b.limit) : Onward b (b.skip n h) :=
  ⟨rfl, rfl, rfl, Nat.le_add_right _ _⟩

/-- Whenever the method returns, it has only read further. -/
def Forward (x : Read α) : Prop := ∀ b a b', x b = .ok a b' → Onward b b'

theorem Forward.pure (a : α) : Forward (pure a : Read α) := by
  intro b a' b' h
  obtain ⟨-, rfl⟩ := pure_ok.1 h
  exact .refl b

theorem Forward.throw (e : Thrown) : Forward (throw e : Read α) := fun _ _ _ h => absurd h throw_ok

theorem Forward.get : Forward (get : Read ByteBuffer) := by
  intro b a b' h
  obtain ⟨-, rfl⟩ := get_ok.1 h
  exact .refl b

theorem Forward.bind (hx : Forward x) (hf : ∀ a, Forward (f a)) : Forward (x >>= f) := by
  intro b c b' h
  obtain ⟨a, b₁, h₁, h₂⟩ := bind_ok.1 h
  exact (hx _ _ _ h₁).trans (hf _ _ _ _ h₂)

theorem Forward.ite {p : Prop} [Decidable p] {y : Read α} (hx : Forward x) (hy : Forward y) :
    Forward (if p then x else y) := by
  split
  · exact hx
  · exact hy

/-! ## Reads of a fixed size -/

namespace ByteBuffer

theorem getBytes_ok : getBytes n b = .ok bs b' ↔
    ∃ h : b.position + n ≤ b.limit, bs = slice (b.arrayOffset + b.position) n b.array ∧ b' = b.skip n h := by
  unfold getBytes
  split
  · rename_i h
    constructor
    · intro h'
      cases h'
      exact ⟨h, rfl, rfl⟩
    · rintro ⟨-, rfl, rfl⟩
      rfl
  · rename_i h
    constructor
    · intro h'
      cases h'
    · rintro ⟨h', -⟩
      exact absurd h' h

theorem getByte_ok {c : UInt8} : getByte b = .ok c b' ↔
    ∃ h : b.position + 1 ≤ b.limit, b.array[b.arrayOffset + b.position]? = some c ∧ b' = b.skip 1 h := by
  have hl := b.limit_le
  unfold getByte
  split
  · rename_i h
    rw [List.getElem?_eq_getElem (by omega), Option.some.injEq]
    constructor
    · intro h'
      cases h'
      exact ⟨h, rfl, rfl⟩
    · rintro ⟨-, rfl, rfl⟩
      rfl
  · rename_i h
    constructor
    · intro h'
      cases h'
    · rintro ⟨h', -⟩
      exact absurd h' h

theorem position_lt (h : b.remaining ≠ 0) : b.position + 1 ≤ b.limit := by
  rw [ByteBuffer.remaining] at h
  omega

/-- Where there is room for a byte, it is read. -/
theorem getByte_room (h : b.position + 1 ≤ b.limit) :
    ∃ x, b.array[b.arrayOffset + b.position]? = some x ∧ getByte b = .ok x (b.skip 1 h) := by
  have hle := b.limit_le
  exact ⟨_, List.getElem?_eq_getElem (by omega), getByte_ok.2 ⟨h, List.getElem?_eq_getElem (by omega), rfl⟩⟩

theorem getShort_ok {v : BitVec 16} : getShort b = .ok v b' ↔
    ∃ h : b.position + 2 ≤ b.limit, v = BitVec.ofNat 16 (ofBE (slice (b.arrayOffset + b.position) 2 b.array)) ∧
      b' = b.skip 2 h := by
  unfold getShort
  rw [bind_ok]
  constructor
  · rintro ⟨bs, b₁, h, hp⟩
    obtain ⟨hn, rfl, rfl⟩ := getBytes_ok.1 h
    obtain ⟨rfl, rfl⟩ := pure_ok.1 hp
    exact ⟨hn, rfl, rfl⟩
  · rintro ⟨hn, rfl, rfl⟩
    exact ⟨_, _, getBytes_ok.2 ⟨hn, rfl, rfl⟩, rfl⟩

theorem getInt_ok {v : BitVec 32} : getInt b = .ok v b' ↔
    ∃ h : b.position + 4 ≤ b.limit, v = BitVec.ofNat 32 (ofBE (slice (b.arrayOffset + b.position) 4 b.array)) ∧
      b' = b.skip 4 h := by
  unfold getInt
  rw [bind_ok]
  constructor
  · rintro ⟨bs, b₁, h, hp⟩
    obtain ⟨hn, rfl, rfl⟩ := getBytes_ok.1 h
    obtain ⟨rfl, rfl⟩ := pure_ok.1 hp
    exact ⟨hn, rfl, rfl⟩
  · rintro ⟨hn, rfl, rfl⟩
    exact ⟨_, _, getBytes_ok.2 ⟨hn, rfl, rfl⟩, rfl⟩

theorem forward_getBytes (n : Nat) : Forward (getBytes n) := by
  intro b bs b' h
  obtain ⟨hn, -, rfl⟩ := getBytes_ok.1 h
  exact onward_skip hn

theorem forward_getByte : Forward getByte := by
  intro b c b' h
  obtain ⟨hn, -, rfl⟩ := getByte_ok.1 h
  exact onward_skip hn

theorem forward_getShort : Forward getShort := .bind (forward_getBytes 2) fun _ => .pure _

theorem forward_getInt : Forward getInt := .bind (forward_getBytes 4) fun _ => .pure _

end ByteBuffer

open ByteBuffer

/-! ## The loops of `ReadDomain` -/

theorem remaining_of_getByte {c : UInt8} (h : getByte b = .ok c b') : b.remaining ≠ 0 := by
  obtain ⟨hn, -⟩ := getByte_ok.1 h
  rw [ByteBuffer.remaining]
  omega

theorem readLabel_end (h : b.remaining = 0) : readLabel len sb b = .ok (len, sb) b := by
  cases len with
  | zero => rfl
  | succ len =>
      rw [readLabel, bind_of_ok (get_ok.2 ⟨rfl, rfl⟩), if_pos h]
      rfl

theorem readLabel_succ {c : UInt8} (h : getByte b = .ok c b') :
    readLabel (len + 1) sb b = readLabel len (sb ++ [Char.ofNat c.toNat]) b' := by
  rw [readLabel, bind_of_ok (get_ok.2 ⟨rfl, rfl⟩), if_neg (remaining_of_getByte h)]
  exact bind_of_ok h

variable {follow : Nat → Read (List Char)} {c : UInt8}

theorem readLabels_end (h : b.remaining = 0) (n len : Nat) (sb : List Char) :
    readLabels follow n len sb b = .ok (if len = 0 then sb.dropLast else sb) b := by
  cases n with
  | zero => rfl
  | succ n =>
      rw [readLabels, bind_of_ok (get_ok.2 ⟨rfl, rfl⟩), if_pos h]
      rfl

/-- A round of the loop, by the byte it begins with. -/
theorem readLabels_succ (h : getByte b = .ok c b') (n len : Nat) (sb : List Char) :
    readLabels follow (n + 1) len sb b =
      if c = 0 then .ok sb.dropLast b'
      else if 192 ≤ c.toNat then (do return sb ++ (← follow ((← getByte).toNat + c.toNat % 64 * 256))) b'
      else (do
        let (len, sb) ← readLabel c.toNat sb
        readLabels follow n len (sb ++ ['.'])) b' := by
  rw [readLabels, bind_of_ok (get_ok.2 ⟨rfl, rfl⟩), if_neg (remaining_of_getByte h)]
  refine (bind_of_ok h).trans ?_
  by_cases hc : c = 0
  · subst hc
    rfl
  · have hc' : c.toNat ≠ 0 := fun h => hc (UInt8.toNat_inj.1 h)
    rw [if_neg hc]
    simp only [if_neg hc']
    split
    · rfl
    · rfl

/-! ## Names -/

theorem forward_readLabel (len : Nat) (sb : List Char) : Forward (readLabel len sb) := by
  induction len generalizing sb with
  | zero => exact .pure _
  | succ len ih =>
      refine .bind .get fun b => .ite (.pure _) ?_
      exact .bind forward_getByte fun c => ih _

theorem forward_readLabels {follow : Nat → Read (List Char)} (hf : ∀ p, Forward (follow p)) (n len : Nat)
    (sb : List Char) : Forward (readLabels follow n len sb) := by
  induction n generalizing len sb with
  | zero => exact .pure _
  | succ n ih =>
      refine .bind .get fun b => .ite (.pure _) ?_
      refine .bind forward_getByte fun c => .ite (.pure _) (.ite ?_ ?_)
      · exact .bind forward_getByte fun _ => .bind (hf _) fun _ => .pure _
      · exact .bind (forward_readLabel _ _) fun r => ih _ _

theorem readWrapped_ok {recurse : Read (List Char)} {offset length : Nat} :
    readWrapped recurse offset length b = .ok sb b' ↔
      b' = b ∧ ∃ new new', ByteBuffer.wrap b.array offset length = some new ∧ recurse new = .ok sb new' := by
  unfold readWrapped
  cases hw : ByteBuffer.wrap b.array offset length with
  | none => simp
  | some new =>
      dsimp only
      cases hr : recurse new with
      | error e new' => simp [hr]
      | ok s new' =>
          simp only [EStateM.Result.ok.injEq, Option.some.injEq]
          constructor
          · rintro ⟨rfl, rfl⟩
            exact ⟨rfl, new, new', rfl, hr⟩
          · rintro ⟨rfl, _, _, rfl, h⟩
            rw [hr] at h
            cases h
            exact ⟨rfl, rfl⟩

theorem forward_readDomain (off depth : Nat) : Forward (readDomain off depth) := by
  cases depth with
  | zero => exact .throw _
  | succ depth =>
      refine .bind .get fun b => forward_readLabels (fun p => ?_) _ _ _
      intro b₁ s b₂ h
      obtain ⟨rfl, -⟩ := readWrapped_ok.1 h
      exact .refl _

theorem forward_readName : Forward readName := .bind .get fun _ => forward_readDomain _ _

/-! ## Records -/

theorem forward_question : Forward Question.fromBytes :=
  .bind .get fun _ => .bind .get fun _ => .bind forward_readName fun _ => .bind forward_getShort fun _ =>
    .bind forward_getShort fun _ => .bind .get fun _ => .bind .get fun _ => .pure _

theorem forward_resource : Forward Resource.fromBytes :=
  .bind .get fun _ => .bind .get fun _ => .bind forward_readName fun _ => .bind forward_getShort fun _ =>
    .bind forward_getShort fun _ => .bind forward_getInt fun _ => .bind forward_getShort fun _ =>
      .bind (forward_getBytes _) fun _ => .bind .get fun _ => .bind .get fun _ => .pure _

theorem forward_readArray {read : Read α} (h : Forward read) (n : Nat) : Forward (readArray read n) := by
  induction n with
  | zero => exact .pure _
  | succ n ih => exact .bind h fun _ => .bind ih fun _ => .pure _

theorem readArray_succ {read : Read α} {xs : List α} (h : readArray read (n + 1) b = .ok xs b') :
    ∃ x b₁ xs', read b = .ok x b₁ ∧ readArray read n b₁ = .ok xs' b' ∧ xs = x :: xs' := by
  obtain ⟨x, b₁, h₁, h⟩ := bind_ok.1 h
  obtain ⟨xs', b₂, h₂, h⟩ := bind_ok.1 h
  obtain ⟨rfl, rfl⟩ := pure_ok.1 h
  exact ⟨x, b₁, xs', h₁, h₂, rfl⟩

/-- What holds of every result of a method that only reads further holds of the elements of an array it fills. -/
theorem readArray_forall {read : Read α} {xs : List α} {P : α → Prop} (hr : Forward read)
    (h : ∀ b₁ x b₂, Onward b b₁ → read b₁ = .ok x b₂ → P x) (hxs : readArray read n b = .ok xs b') :
    ∀ x ∈ xs, P x := by
  induction n generalizing b xs with
  | zero =>
      obtain ⟨rfl, -⟩ := pure_ok.1 hxs
      simp
  | succ n ih =>
      obtain ⟨x, b₁, xs', h₁, h₂, rfl⟩ := readArray_succ hxs
      have ho := hr _ _ _ h₁
      rintro y (- | ⟨-, hy⟩)
      · exact h _ _ _ (.refl b) h₁
      · exact ih (fun b₁ x b₂ hb => h b₁ x b₂ (ho.trans hb)) h₂ y hy

end TunProxy.Dns
