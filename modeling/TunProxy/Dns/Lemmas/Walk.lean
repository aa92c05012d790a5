import TunProxy.Dns.Lemmas.Decode
import TunProxy.Dns.Walk

/-!
# The walk is the one of the decoder

What a round of the loop does to a buffer, by where the walk goes, and two runs of the decoder on arrays that have
only the message in common.
-/

namespace TunProxy.Dns

open Native (Bytes)
open Lib Lib.Bytes
open ByteBuffer Name

variable {α β : Type} {m : Bytes} {off cap pos next n k len depth : Nat} {b b' : ByteBuffer} {c c' : Cursor}
  {sb : List Char} {x : UInt8}

/-! ## Rounds -/

/-- What a round finds, for each of its results. -/
inductive Finds (m : Bytes) (off cap : Nat) (c : Cursor) : Round → Prop
  | limit : c.stop ≤ c.pos → Finds m off cap c (.ends c.pos)
  | zero : c.pos < c.stop → m[c.pos]? = some 0 → Finds m off cap c (.ends (c.pos + 1))
  | label {x : UInt8} : c.pos < c.stop → m[c.pos]? = some x → x ≠ 0 → x.toNat < 192 →
      min (c.pos + 1 + x.toNat) c.stop ≤ m.length → Finds m off cap c (.label (min (c.pos + 1 + x.toNat) c.stop))
  | pointer {high low : UInt8} : c.pos + 1 < c.stop → m[c.pos]? = some high → 192 ≤ high.toNat →
      m[c.pos + 1]? = some low → off + (low.toNat + high.toNat % 64 * 256) + (off + c.limit) ≤ cap →
      Finds m off cap c (.pointer {
        pos := low.toNat + high.toNat % 64 * 256, stop := low.toNat + high.toNat % 64 * 256 + (off + c.limit)
        limit := off + (low.toNat + high.toNat % 64 * 256) + (off + c.limit) })
  | underflow {high : UInt8} : c.pos < c.stop → m[c.pos]? = some high → 192 ≤ high.toNat → c.stop ≤ c.pos + 1 →
      Finds m off cap c .throws
  | outOfBounds {high low : UInt8} : c.pos + 1 < c.stop → m[c.pos]? = some high → 192 ≤ high.toNat →
      m[c.pos + 1]? = some low → cap < off + (low.toNat + high.toNat % 64 * 256) + (off + c.limit) →
      Finds m off cap c .throws
  | lengthBehind : c.pos < c.stop → m.length ≤ c.pos → Finds m off cap c .strays
  | contentBehind {x : UInt8} : c.pos < c.stop → m[c.pos]? = some x → x ≠ 0 → x.toNat < 192 →
      m.length < min (c.pos + 1 + x.toNat) c.stop → Finds m off cap c .strays
  | lowBehind {high : UInt8} : c.pos + 1 < c.stop → m[c.pos]? = some high → 192 ≤ high.toNat →
      m.length = c.pos + 1 → Finds m off cap c .strays

theorem finds (m : Bytes) (off cap : Nat) (c : Cursor) : Finds m off cap c (round m off cap c) := by
  unfold round
  split
  · exact .limit ‹_›
  rename_i hstop
  have hstop := Nat.lt_of_not_le hstop
  split
  · exact .lengthBehind hstop (List.getElem?_eq_none_iff.1 ‹_›)
  rename_i x hx
  split
  · rename_i hzero
    subst hzero
    exact .zero hstop hx
  rename_i hzero
  split
  · rename_i hge
    split
    · exact .underflow hstop hx hge ‹_›
    rename_i hstop
    have hstop := Nat.lt_of_not_le hstop
    split
    · have hle := List.getElem?_eq_none_iff.1 ‹_›
      have hlt := (List.getElem?_eq_some_iff.1 hx).1
      exact .lowBehind hstop hx hge (by omega)
    rename_i low hlow
    dsimp only
    split
    · exact .pointer hstop hx hge hlow ‹_›
    · exact .outOfBounds hstop hx hge hlow (Nat.lt_of_not_le ‹_›)
  · rename_i hlt
    have hlt := Nat.lt_of_not_le hlt
    dsimp only
    split
    · exact .label hstop hx hzero hlt ‹_›
    · exact .contentBehind hstop hx hzero hlt (Nat.lt_of_not_le ‹_›)

/-- A walk does not both end and stray. -/
theorem Ends.not_strays (h : Ends m off cap c pos) : ¬ Strays m off cap c := by
  induction h with
  | ends hr =>
      intro hs
      cases hs with
      | strays hr' => cases hr.symm.trans hr'
      | label hr' _ => cases hr.symm.trans hr'
      | pointer hr' _ => cases hr.symm.trans hr'
  | label hr _ ih =>
      intro hs
      cases hs with
      | strays hr' => cases hr.symm.trans hr'
      | label hr' hs =>
          cases hr.symm.trans hr'
          exact ih hs
      | pointer hr' _ => cases hr.symm.trans hr'
  | pointer hr _ ih =>
      intro hs
      cases hs with
      | strays hr' => cases hr.symm.trans hr'
      | label hr' _ => cases hr.symm.trans hr'
      | pointer hr' hs =>
          cases hr.symm.trans hr'
          exact ih hs

theorem Ends.unique (h : Ends m off cap c pos) (h' : Ends m off cap c k) : k = pos := by
  induction h generalizing k with
  | ends hr =>
      cases h' with
      | ends hr' =>
          cases hr.symm.trans hr'
          rfl
      | label hr' _ => cases hr.symm.trans hr'
      | pointer hr' _ => cases hr.symm.trans hr'
  | label hr _ ih =>
      cases h' with
      | ends hr' => cases hr.symm.trans hr'
      | label hr' h' =>
          cases hr.symm.trans hr'
          exact ih h'
      | pointer hr' _ => cases hr.symm.trans hr'
  | pointer hr _ _ =>
      cases h' with
      | ends hr' => cases hr.symm.trans hr'
      | label hr' _ => cases hr.symm.trans hr'
      | pointer _ _ => rfl

/-! ## Buffers -/

/-- The buffer is where the cursor is, on an array of `cap` bytes with the message at `off`. -/
structure At (m : Bytes) (off cap : Nat) (c : Cursor) (b : ByteBuffer) : Prop where
  reads : Reads m off c.pos b
  stop : b.arrayOffset + b.limit = off + c.stop
  limit : b.limit = c.limit
  arrayOffset : b.arrayOffset ≤ off
  array : b.array.length = cap

theorem At.onward (h : At m off cap c b) (ho : Onward b b') (hr : Reads m off pos b') :
    At m off cap { c with pos := pos } b' where
  reads := hr
  stop := by rw [ho.arrayOffset, ho.limit, h.stop]
  limit := by rw [ho.limit, h.limit]
  arrayOffset := by rw [ho.arrayOffset]; exact h.arrayOffset
  array := by rw [ho.array, h.array]

theorem At.remaining (h : At m off cap c b) : b.remaining = c.stop - c.pos := by
  have hs := h.stop
  have hp := h.reads.position
  have hle := b.position_le
  rw [ByteBuffer.remaining]
  omega

theorem At.length_le (h : At m off cap c b) : m.length ≤ c.stop := by
  have hl := h.reads.limit
  have hs := h.stop
  omega

/-- The bytes from the offset of the slice to the limit. -/
def ByteBuffer.message (b : ByteBuffer) : Bytes := slice b.arrayOffset b.limit b.array

theorem ByteBuffer.length_message (b : ByteBuffer) : b.message.length = b.limit := length_slice b.limit_le

theorem ByteBuffer.at_start (hb : b.position = 0) :
    At b.message b.arrayOffset b.array.length (.start b.message 0) b := by
  have hlen := b.length_message
  refine ⟨⟨?_, by rw [hlen], by rw [hb]; rfl⟩, by rw [Cursor.start, hlen], by rw [Cursor.start, hlen],
    Nat.le_refl _, rfl⟩
  intro i hi
  rw [ByteBuffer.message, getElem?_slice, if_pos (by omega)]

/-- The whole inner loop: it ends with the label or with the buffer. -/
theorem readLabel_eq (len : Nat) (sb : List Char) (b : ByteBuffer) :
    ∃ b', readLabel len sb b = .ok (len - min len b.remaining,
        sb ++ chars (slice (b.arrayOffset + b.position) (min len b.remaining) b.array)) b' ∧
      Onward b b' ∧ b'.position = b.position + min len b.remaining := by
  induction len generalizing sb b with
  | zero =>
      refine ⟨b, ?_, .refl b, by rw [Nat.zero_min, Nat.add_zero]⟩
      rw [Nat.zero_min, slice, List.take_zero, chars, List.map_nil, List.append_nil]
      rfl
  | succ len ih =>
      by_cases hrem : b.remaining = 0
      · refine ⟨b, ?_, .refl b, by rw [hrem, Nat.min_zero, Nat.add_zero]⟩
        rw [readLabel_end hrem, hrem, Nat.min_zero, slice, List.take_zero, chars, List.map_nil, List.append_nil]
        rfl
      · have hlt := position_lt hrem
        obtain ⟨x, hx, hget⟩ := getByte_room hlt
        obtain ⟨b', hb', ho, hp⟩ := ih (sb ++ [Char.ofNat x.toNat]) (b.skip 1 hlt)
        have hrem' : (b.skip 1 hlt).remaining = b.remaining - 1 := by
          simp only [ByteBuffer.remaining, ByteBuffer.skip]
          omega
        have hmin : min (len + 1) b.remaining = 1 + min len (b.remaining - 1) := by omega
        have hslice : slice (b.arrayOffset + b.position) 1 b.array = [x] := by
          apply List.ext_getElem?
          intro i
          rw [getElem?_slice]
          cases i with
          | zero => rw [if_pos Nat.one_pos, Nat.add_zero, hx]; rfl
          | succ i => rw [if_neg (by omega)]; rfl
        rw [hrem'] at hb' hp
        refine ⟨b', ?_, (onward_skip hlt).trans ho, ?_⟩
        · rw [readLabel_succ hget, hb', hmin, slice_add, hslice, chars, chars, List.map_append, List.append_assoc,
            show len + 1 - (1 + min len (b.remaining - 1)) = len - min len (b.remaining - 1) by omega]
          rfl
        · rw [hp, hmin, ← Nat.add_assoc]
          rfl

/-! ## Rounds of the loop -/

theorem At.getByte (h : At m off cap c b) (hx : m[c.pos]? = some x) :
    ∃ b', getByte b = .ok x b' ∧ Onward b b' ∧ At m off cap { c with pos := c.pos + 1 } b' := by
  obtain ⟨b', hb, ho, hr⟩ := decodes_getByte h.reads hx
  exact ⟨b', hb, ho, h.onward ho hr⟩

/-- Whatever the bytes are, there is one at the cursor. -/
theorem At.byte (h : At m off cap c b) (hlt : c.pos < c.stop) :
    ∃ x b', b.array[off + c.pos]? = some x ∧ ByteBuffer.getByte b = .ok x b' ∧ Onward b b' ∧
      b'.position = b.position + 1 := by
  have hp := h.reads.position
  have hs := h.stop
  have hn : b.position + 1 ≤ b.limit := by omega
  obtain ⟨x, hx, hget⟩ := getByte_room hn
  exact ⟨x, _, by rw [← hp, hx], hget, onward_skip hn, rfl⟩

theorem loop_ends (h : round m off cap c = .ends pos) (hn : c.stop - c.pos ≤ n) (len : Nat) (sb : List Char) :
    ∃ s, ∀ depth b, At m off cap c b → Decodes m off (nameLoop off depth c.limit n len sb) s pos b := by
  have hf := finds m off cap c
  rw [h] at hf
  cases hf with
  | limit hle =>
      refine ⟨if len = 0 then sb.dropLast else sb, fun depth b hb => ⟨b, ?_, .refl b, hb.reads⟩⟩
      exact readLabels_end (by rw [hb.remaining]; omega) _ _ _
  | zero hlt hx =>
      refine ⟨sb.dropLast, fun depth b hb => ?_⟩
      obtain ⟨b', hb', ho, ha⟩ := hb.getByte hx
      obtain ⟨k, rfl, -⟩ := rounds_getByte hb' (hb.remaining.le.trans hn)
      refine ⟨b', ?_, ho, ha.reads⟩
      rw [nameLoop, readLabels_succ hb', if_pos rfl]

theorem ne_zero_of_pointer {high : UInt8} (h : 192 ≤ high.toNat) : high ≠ 0 := by
  rintro rfl
  simp at h

theorem loop_throws (h : round m off cap c = .throws) (hn : c.stop - c.pos ≤ n) :
    ∃ e, ∀ depth len sb b, At m off cap c b → ∃ b', nameLoop off depth c.limit n len sb b = .error e b' := by
  have hf := finds m off cap c
  rw [h] at hf
  cases hf with
  | @underflow high hlt hx hge hstop =>
      refine ⟨.bufferUnderflow, fun depth len sb b hb => ?_⟩
      obtain ⟨b₁, h₁, ho₁, ha₁⟩ := hb.getByte hx
      obtain ⟨k, rfl, -⟩ := rounds_getByte h₁ (hb.remaining.le.trans hn)
      have hne := ne_zero_of_pointer hge
      have hend : getByte b₁ = .error .bufferUnderflow b₁ := by
        have hs := ha₁.stop
        have hp := ha₁.reads.position
        dsimp only at hs hp
        rw [ByteBuffer.getByte, dif_neg (by omega)]
      refine ⟨b₁, ?_⟩
      rw [nameLoop, readLabels_succ h₁, if_neg hne, if_pos hge]
      exact bind_of_error hend
  | @outOfBounds high low hlt hx hge hy hlong =>
      refine ⟨.indexOutOfBounds, fun depth len sb b hb => ?_⟩
      obtain ⟨b₁, h₁, ho₁, ha₁⟩ := hb.getByte hx
      obtain ⟨b₂, h₂, ho₂, ha₂⟩ := ha₁.getByte hy
      obtain ⟨k, rfl, -⟩ := rounds_getByte h₁ (hb.remaining.le.trans hn)
      have hne := ne_zero_of_pointer hge
      have hw : ByteBuffer.wrap b₂.array (off + (low.toNat + high.toNat % 64 * 256)) (off + c.limit) = none := by
        rw [ByteBuffer.wrap, dif_neg (by rw [ha₂.array]; omega)]
      refine ⟨b₂, ?_⟩
      rw [nameLoop, readLabels_succ h₁, if_neg hne, if_pos hge]
      refine (bind_of_ok h₂).trans (bind_of_error ?_)
      rw [readWrapped, hw]

/-- A label of the message, or its beginning where the buffer ends. -/
theorem loop_label (h : round m off cap c = .label next) (hn : c.stop - c.pos ≤ n) (sb : List Char) :
    ∃ k len bytes, n = k + 1 ∧ c.stop - next ≤ k ∧ ∀ depth l b, At m off cap c b → ∃ b',
      nameLoop off depth c.limit n l sb b = nameLoop off depth c.limit k len (sb ++ chars bytes ++ ['.']) b' ∧
        Onward b b' ∧ At m off cap { c with pos := next } b' := by
  have hf := finds m off cap c
  rw [h] at hf
  cases hf with
  | @label x hlt hx hzero hlt' hnext =>
      have hmin : min x.toNat (c.stop - (c.pos + 1)) = min (c.pos + 1 + x.toNat) c.stop - (c.pos + 1) := by omega
      refine ⟨n - 1, x.toNat - min x.toNat (c.stop - (c.pos + 1)),
        slice (c.pos + 1) (min x.toNat (c.stop - (c.pos + 1))) m, by omega, ?_, fun depth l b hb => ?_⟩
      · have : 0 < x.toNat := Nat.pos_of_ne_zero fun h => hzero (UInt8.toNat_inj.1 h)
        omega
      · obtain ⟨b₁, h₁, ho₁, ha₁⟩ := hb.getByte hx
        obtain ⟨k, rfl, hk⟩ := rounds_getByte h₁ (hb.remaining.le.trans hn)
        obtain ⟨b₂, h₂, ho₂, hp₂⟩ := readLabel_eq x.toNat sb b₁
        rw [ha₁.remaining] at h₂ hp₂
        dsimp only at h₂ hp₂
        rw [ha₁.reads.slice (by dsimp only; omega)] at h₂
        refine ⟨b₂, ?_, ho₁.trans ho₂, hb.onward (ho₁.trans ho₂) ⟨?_, ?_, ?_⟩⟩
        · rw [nameLoop, readLabels_succ h₁, if_neg hzero, if_neg (by omega)]
          exact bind_of_ok h₂
        · rw [(ho₁.trans ho₂).array]
          exact hb.reads.bytes
        · rw [(ho₁.trans ho₂).arrayOffset, (ho₁.trans ho₂).limit]
          exact hb.reads.limit
        · have hp := ha₁.reads.position
          have hao := ho₂.arrayOffset
          dsimp only at hp
          omega

theorem wrap_some {array : Bytes} {offset length : Nat} (h : offset + length ≤ array.length) :
    ∃ new, ByteBuffer.wrap array offset length = some new ∧ new.array = array ∧ new.arrayOffset = 0 ∧
      new.position = offset ∧ new.limit = offset + length :=
  ⟨_, dif_pos h, rfl, rfl, rfl, rfl⟩

/-- The name at the target of a pointer is read in a buffer of its own. -/
theorem loop_pointer (h : round m off cap c = .pointer c') (hn : c.stop - c.pos ≤ n) (hb : At m off cap c b) :
    ∃ b₂ new, Onward b b₂ ∧ At m off cap { c with pos := c.pos + 2 } b₂ ∧ At m off cap c' new ∧
      new.array = b.array ∧ ∀ depth len sb, nameLoop off depth c.limit n len sb b =
        match readDomain off depth new with
        | .ok s _ => .ok (sb ++ s) b₂
        | .error e _ => .error e b₂ := by
  have hf := finds m off cap c
  rw [h] at hf
  cases hf with
  | @pointer high low hlt hx hge hy hfit =>
      obtain ⟨b₁, h₁, ho₁, ha₁⟩ := hb.getByte hx
      obtain ⟨b₂, h₂, ho₂, ha₂⟩ := ha₁.getByte hy
      obtain ⟨k, rfl, -⟩ := rounds_getByte h₁ (hb.remaining.le.trans hn)
      have hne := ne_zero_of_pointer hge
      generalize ht : low.toNat + high.toNat % 64 * 256 = target at *
      have harr := (ho₁.trans ho₂).array
      obtain ⟨new, hw, hna, hno, hnp, hnl⟩ :=
        wrap_some (show off + target + (off + c.limit) ≤ b₂.array.length by rw [ha₂.array]; exact hfit)
      have hnew :
        At m off cap { pos := target, stop := target + (off + c.limit), limit := off + target + (off + c.limit) }
          new := by
        refine ⟨⟨by rw [hna]; exact ha₂.reads.bytes, ?_, by rw [hno, hnp, Nat.zero_add]⟩, ?_, hnl, by omega,
          by rw [hna, ha₂.array]⟩
        · have hs := hb.stop
          have ho := hb.arrayOffset
          have hl := hb.limit
          have := hb.length_le
          omega
        · dsimp only
          omega
      refine ⟨b₂, new, ho₁.trans ho₂, ha₂, hnew, hna.trans harr, fun depth len sb => ?_⟩
      rw [nameLoop, readLabels_succ h₁, if_neg hne, if_pos hge]
      refine (bind_of_ok h₂).trans ?_
      cases hd : readDomain off depth new with
      | ok s new' =>
          have hr : readWrapped (readDomain off depth) (off + target) (off + c.limit) b₂ = .ok s b₂ :=
            readWrapped_ok.2 ⟨rfl, new, new', hw, hd⟩
          rw [← ht] at hr
          exact bind_of_ok hr
      | error e new' =>
          have hr : readWrapped (readDomain off depth) (off + target) (off + c.limit) b₂ = .error e b₂ := by
            simp only [readWrapped, hw, hd]
          rw [← ht] at hr
          exact bind_of_error hr

end TunProxy.Dns
