import TunProxy.Dns.Lemmas.Differ

/-!
# What lies behind the message

The outcome of the decoder depends on the message alone as long as no name leads behind it.
-/

namespace TunProxy.Dns

open Native (Bytes)
open Lib Lib.Bytes
open ByteBuffer Name

variable {m : Bytes} {b b' : ByteBuffer}

/-! ## The outcome -/

/-- The buffers have the same message in the same place of arrays of the same length. -/
structure SameMessage (b b' : ByteBuffer) : Prop where
  arrayOffset : b'.arrayOffset = b.arrayOffset
  position : b'.position = b.position
  limit : b'.limit = b.limit
  length : b'.array.length = b.array.length
  message : b'.message = b.message

/-- The decoder looks at a byte behind the message in the buffer. -/
def ByteBuffer.Strays (b : ByteBuffer) : Prop := MessageStrays b.message b.arrayOffset b.array.length

theorem SameMessage.at (h : SameMessage b b') (hb : b.position = 0) :
    At b.message b.arrayOffset b.array.length (.start b.message 0) b' := by
  have hlen := b.length_message
  refine ⟨⟨?_, ?_, ?_⟩, ?_, ?_, h.arrayOffset.le, h.length⟩
  · intro i hi
    rw [← h.message, ByteBuffer.message, getElem?_slice, h.arrayOffset, if_pos (by rw [h.limit]; omega)]
  · rw [h.arrayOffset, h.limit, hlen]
  · rw [h.arrayOffset, h.position, hb]
    rfl
  · rw [h.arrayOffset, h.limit, Cursor.start, hlen]
  · rw [h.limit, Cursor.start, hlen]

theorem SameMessage.refl (b : ByteBuffer) : SameMessage b b := ⟨rfl, rfl, rfl, rfl, rfl⟩

/-- A buffer on each array that holds the message. -/
theorem Holds.buffer {a : Bytes} (h : Holds b.message b.arrayOffset b.array.length a) :
    ∃ b', SameMessage b b' ∧ b'.array = a := by
  have hlen := b.length_message
  refine ⟨{ b with array := a, limit_le := by rw [h.length]; exact b.limit_le }, ⟨rfl, rfl, rfl, h.length, ?_⟩, rfl⟩
  apply List.ext_getElem?
  intro i
  rw [ByteBuffer.message, getElem?_slice]
  split
  · exact h.bytes i (by dsimp only at *; omega)
  · rw [List.getElem?_eq_none (by dsimp only at *; omega)]

/-- Without a look behind the message its outcome is the same on every array; with one it is not, if there is an array
on which it is a packet. -/
theorem fromBytes_same_iff (hb : b.position = 0) :
    (¬ b.Strays → ∀ b', SameMessage b b' → DnsPacket.fromBytes b' = DnsPacket.fromBytes b) ∧
    ((∃ b' p, SameMessage b b' ∧ DnsPacket.fromBytes b' = .ok (some p)) →
      ((∀ b', SameMessage b b' → DnsPacket.fromBytes b' = DnsPacket.fromBytes b) ↔ ¬ b.Strays)) := by
  have hsame : ¬ b.Strays → ∀ b', SameMessage b b' → DnsPacket.fromBytes b' = DnsPacket.fromBytes b := by
    intro hns b' hb'
    unfold DnsPacket.fromBytes
    rcases read_agree hns (hb'.at hb) ((SameMessage.refl b).at hb) with ⟨p, _, b₁, b₁', h, h', -⟩ | ⟨e, b₁, b₁', h, h'⟩
    · rw [h, h']
    · rw [h, h']
  refine ⟨hsame, ?_⟩
  rintro ⟨b₀, p, hb₀, hp⟩
  refine ⟨fun hall hs => ?_, hsame⟩
  have hread : ∀ b', SameMessage b b' → ∃ b₁, DnsPacket.read b' = .ok (some p) b₁ := by
    intro b' hb'
    have h := (hall b' hb').trans ((hall b₀ hb₀).symm.trans hp)
    unfold DnsPacket.fromBytes at h
    split at h
    · rename_i b₁ hr
      cases h
      exact ⟨b₁, hr⟩
    · cases h
  have hholds : Holds b.message b.arrayOffset b.array.length b.array :=
    ⟨rfl, ((SameMessage.refl b).at hb).reads.bytes⟩
  obtain ⟨a₁, a₂, h₁, h₂, hd⟩ := message_differs hs hholds
  obtain ⟨b₁, hs₁, ha₁⟩ := h₁.buffer
  obtain ⟨b₂, hs₂, ha₂⟩ := h₂.buffer
  obtain ⟨_, hr₁⟩ := hread b₁ hs₁
  obtain ⟨_, hr₂⟩ := hread b₂ hs₂
  exact hd b₁ b₂ p p _ _ (hs₁.at hb) (hs₂.at hb) ha₁ ha₂ hr₁ hr₂ rfl

/-! ## A name that is cut off -/

/-- The only question has a pointer to its last byte, which is the length of a label. -/
def straySample : Bytes := [0, 7, 1, 0, 0, 1, 0, 0, 0, 0, 0, 0, 192, 17, 0, 1, 0, 1]

/-- The byte `x` of an earlier packet lies behind the question. -/
def strayBuffer (x : UInt8) : ByteBuffer where
  array := List.replicate 28 0 ++ straySample ++ ([x] ++ List.replicate 1953 0)
  arrayOffset := 28
  position := 0
  limit := 18
  limit_le := by
    simp only [List.length_append, List.length_replicate, straySample, List.length_cons, List.length_nil]
    omega

theorem message_strayBuffer (x : UInt8) : (strayBuffer x).message = straySample := by
  have h := (bytesAt_mid (List.replicate 28 0) straySample ([x] ++ List.replicate 1953 0)).2
  rwa [List.length_replicate] at h

theorem strayBuffer_same (x y : UInt8) : SameMessage (strayBuffer x) (strayBuffer y) := by
  refine ⟨rfl, rfl, rfl, ?_, (message_strayBuffer y).trans (message_strayBuffer x).symm⟩
  simp only [strayBuffer, List.length_append, List.length_singleton]

theorem strayBuffer_strays (x : UInt8) : (strayBuffer x).Strays := by
  have hlen : (strayBuffer x).array.length = 2000 := by
    simp only [strayBuffer, straySample, List.length_append, List.length_replicate, List.length_cons, List.length_nil]
  have hround :
    round straySample 28 2000 (.start straySample 12) = .pointer { pos := 17, stop := 63, limit := 91 } := by
    decide
  rw [ByteBuffer.Strays, hlen, message_strayBuffer]
  refine ⟨⟨by decide, by decide, by decide, by decide, by decide, by decide⟩, .here (.pointer hround (.strays ?_))⟩
  exact (by decide : round straySample 28 2000 { pos := 17, stop := 63, limit := 91 } = .strays)

/-- A query for `ab`, and a byte of an earlier packet behind it. -/
def plainBuffer : ByteBuffer where
  array := List.replicate 28 0 ++ [0, 7, 1, 0, 0, 1, 0, 0, 0, 0, 0, 0, 2, 97, 98, 0, 0, 1, 0, 1] ++
    ([99] ++ List.replicate 1951 0)
  arrayOffset := 28
  position := 0
  limit := 20
  limit_le := by
    simp only [List.length_append, List.length_replicate, List.length_cons, List.length_nil]
    omega

/-- The name of the query ends within the message. -/
theorem not_strays_plainBuffer : ¬ plainBuffer.Strays := by
  have hlen : plainBuffer.array.length = 2000 := by
    simp only [plainBuffer, List.length_append, List.length_replicate, List.length_cons, List.length_nil]
  have hmessage : plainBuffer.message = [0, 7, 1, 0, 0, 1, 0, 0, 0, 0, 0, 0, 2, 97, 98, 0, 0, 1, 0, 1] := by
    have h := (bytesAt_mid (List.replicate 28 0) [0, 7, 1, 0, 0, 1, 0, 0, 0, 0, 0, 0, 2, 97, 98, 0, 0, 1, 0, 1]
      ([99] ++ List.replicate 1951 0)).2
    rwa [List.length_replicate] at h
  rw [ByteBuffer.Strays, hlen, hmessage]
  rintro ⟨-, hrecords⟩
  cases hrecords with
  | here hname =>
      cases hname with
      | strays h => cases h
      | pointer h _ => cases h
      | label h hrest =>
          cases h
          cases hrest with
          | strays h => cases h
          | label h _ => cases h
          | pointer h _ => cases h
  | later _ _ hrest => cases hrest

/-- Of the buffer with the stray name, another array has another outcome, and of the one with the query none. -/
theorem fromBytes_same_iff_stray :
    (¬ ∀ b', SameMessage (strayBuffer 97) b' → DnsPacket.fromBytes b' = DnsPacket.fromBytes (strayBuffer 97)) ∧
      ∀ b', SameMessage plainBuffer b' → DnsPacket.fromBytes b' = DnsPacket.fromBytes plainBuffer := by
  have hp : ((DnsPacket.fromBytes (strayBuffer 97)).toOption.bind id).isSome = true := by decide +kernel
  obtain ⟨p, hp⟩ := Option.isSome_iff_exists.1 hp
  have hp : DnsPacket.fromBytes (strayBuffer 97) = .ok (some p) := by
    cases h : DnsPacket.fromBytes (strayBuffer 97) with
    | error e => rw [h] at hp; cases hp
    | ok q => rw [h] at hp; exact congrArg Except.ok hp
  refine ⟨fun hall => ?_, (fromBytes_same_iff rfl).1 not_strays_plainBuffer⟩
  exact ((fromBytes_same_iff rfl).2 ⟨_, p, strayBuffer_same 97 97, hp⟩).1 hall (strayBuffer_strays 97)

/-- The byte behind the message is the name of the question. -/
theorem stale_byte_decoded :
    SameMessage (strayBuffer 97) (strayBuffer 98) ∧
      (DnsPacket.fromBytes (strayBuffer 97)).map (·.map (·.questions.map (·.domain))) = .ok (some [['a']]) ∧
      (DnsPacket.fromBytes (strayBuffer 98)).map (·.map (·.questions.map (·.domain))) = .ok (some [['b']]) :=
  ⟨strayBuffer_same 97 98, by decide +kernel, by decide +kernel⟩

end TunProxy.Dns
