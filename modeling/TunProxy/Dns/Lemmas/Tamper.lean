import TunProxy.Dns.Lemmas.Walk
import TunProxy.Dns.Lemmas.Packet
import TunProxy.Dns.Proxy
import TunProxy.Vpn.Lemmas.Packet

/-!
# The array with a fake answer

What `tamperDnsResponse` writes, as two ranges of the array: the counts, and the record behind the first question.
-/

namespace TunProxy.Dns

open Native (Bytes)
open Lib Lib.Bytes
open ByteBuffer Vpn Vpn.CommonMethods

variable {config : Config} {b : ByteBuffer} {p p' : DnsPacket} {q : Question} {qs : List Question} {newIP : BitVec 32}
  {array raw : Bytes} {off : Nat}

/-! ## What is written -/

/-- The record: its name is a pointer to the first question. -/
def answerRecord (config : Config) (q : Question) (newIP : BitVec 32) : Bytes :=
  toBE 2 0xC00C ++ toBE 2 q.type.toNat ++ toBE 2 q.cls.toNat ++ toBE 4 config.dnsTTL.toNat ++ toBE 2 4 ++
    toBE 4 newIP.toNat

/-- The counts behind the one of the questions: one answer and nothing else. -/
def answerCounts : Bytes := toBE 2 1 ++ toBE 2 0 ++ toBE 2 0

/-- The size of the message with the fake answer. -/
def answeredSize (q : Question) : Nat := 12 + q.length + 16

/-- The array, where the message lies at `off`. -/
def answered (config : Config) (array : Bytes) (off : Nat) (q : Question) (newIP : BitVec 32) : Bytes :=
  patch (off + 12 + q.length) (answerRecord config q newIP) (patch (off + 6) answerCounts array)

@[simp] theorem length_answerRecord : (answerRecord config q newIP).length = 16 := by simp [answerRecord]

@[simp] theorem length_answerCounts : answerCounts.length = 6 := by simp [answerCounts]

theorem length_answered (config : Config) (newIP : BitVec 32) (h : off + answeredSize q ≤ array.length) :
    (answered config array off q newIP).length = array.length := by
  unfold answeredSize at h
  have hl : (patch (off + 6) answerCounts array).length = array.length :=
    length_patch (by rw [length_answerCounts]; omega)
  rw [answered, length_patch, hl]
  rw [length_answerRecord, hl]
  omega

/-- The setters of the counts write one range, each behind the one before. -/
theorem counts_eq {header : DnsHeader} (array : Bytes) (h : off + 12 ≤ array.length) (ho : header.offset = off) :
    header.setResourceCount array 1 = some (patch (off + 6) (toBE 2 1) array) ∧
      header.setAResourceCount (patch (off + 6) (toBE 2 1) array) 0 =
        some (patch (off + 6) (toBE 2 1 ++ toBE 2 0) array) ∧
      header.setEResourceCount (patch (off + 6) (toBE 2 1 ++ toBE 2 0) array) 0 =
        some (patch (off + 6) answerCounts array) := by
  have h₁ : (patch (off + 6) (toBE 2 1) array).length = array.length := length_patch (by rw [length_toBE]; omega)
  have h₂ : (patch (off + 6) (toBE 2 1 ++ toBE 2 0) array).length = array.length := length_patch (by simp; omega)
  refine ⟨?_, ?_, ?_⟩
  · rw [DnsHeader.setResourceCount, ho]
    exact writeShort_eq (by omega)
  · rw [DnsHeader.setAResourceCount, ho, writeShort_zero (by omega)]
    exact congrArg some (patch_append (by simp) (by simp; omega))
  · rw [DnsHeader.setEResourceCount, ho, writeShort_zero (by omega)]
    exact congrArg some (patch_append (by simp) (by simp; omega))

/-- The setters of the record write one range. -/
theorem pointer_eq {i : Nat} (h : i + 16 ≤ array.length) :
    ResourcePointer.set array i 0xC00C q.type q.cls config.dnsTTL 4 newIP =
      some (patch i (answerRecord config q newIP) array) := by
  have hlen (l : Bytes) (hl : l.length ≤ 16) : (patch i l array).length = array.length := length_patch (by omega)
  have hshort (l : Bytes) (n : Nat) (v : BitVec 16) (hn : n = i + l.length) (hl : l.length ≤ 14) :
      writeShort (patch i l array) n v = some (patch i (l ++ toBE 2 v.toNat) array) := by
    rw [writeShort_eq (by rw [hlen l (by omega)]; omega), hn]
    exact congrArg some (patch_append rfl (by simp; omega))
  have hint (l : Bytes) (n : Nat) (v : BitVec 32) (hn : n = i + l.length) (hl : l.length ≤ 12) :
      writeInt (patch i l array) n v = some (patch i (l ++ toBE 4 v.toNat) array) := by
    rw [writeInt_eq (by rw [hlen l (by omega)]; omega), hn]
    exact congrArg some (patch_append rfl (by simp; omega))
  rw [ResourcePointer.set, writeShort_eq (by omega)]
  simp only [Option.bind_eq_bind, Option.bind_some]
  rw [hshort _ (i + 2) _ (by simp) (by simp), Option.bind_some, hshort _ (i + 4) _ (by simp) (by simp),
    Option.bind_some,
    hint _ (i + 6) _ (by simp) (by simp), Option.bind_some, hshort _ (i + 10) _ (by simp) (by simp), Option.bind_some,
    hint _ (i + 12) _ (by simp) (by simp)]
  rfl

/-- The question lies behind a header at `off`. -/
structure AtHeader (p : DnsPacket) (q : Question) (off : Nat) : Prop where
  header : p.header.offset = off
  question : p.questions.head? = some q
  offset : q.offset = off + 12

theorem tamper_eq (ha : AtHeader p q off) (h : off + answeredSize q ≤ array.length) :
    tamperDnsResponse config array p newIP =
      some (answered config array off q newIP, { p with size := answeredSize q }) := by
  unfold answeredSize at h
  have hl : (patch (off + 6) answerCounts array).length = array.length :=
    length_patch (by rw [length_answerCounts]; omega)
  obtain ⟨h₁, h₂, h₃⟩ := counts_eq array (by omega) ha.header
  simp only [tamperDnsResponse, ha.question, Option.bind_eq_bind, Option.bind_some, h₁, h₂, h₃, ha.offset]
  rw [pointer_eq (by omega), Option.bind_some]
  rfl

theorem length_of_writeShort {d : Bytes} {i : Nat} {v : BitVec 16} (h : writeShort array i v = some d) :
    d.length = array.length := by
  obtain ⟨hi, rfl⟩ := writeShort_some h
  exact length_patch (by rw [length_toBE]; omega)

theorem length_of_writeInt {d : Bytes} {i : Nat} {v : BitVec 32} (h : writeInt array i v = some d) :
    d.length = array.length := by
  obtain ⟨hi, rfl⟩ := writeInt_some h
  exact length_patch (by rw [length_toBE]; omega)

theorem pointer_some {d : Bytes} {i : Nat} {domain type cls dataLength : BitVec 16} {ttl ip : BitVec 32}
    (h : ResourcePointer.set array i domain type cls ttl dataLength ip = some d) : i + 16 ≤ array.length := by
  simp only [ResourcePointer.set, Option.bind_eq_bind, Option.bind_eq_some_iff] at h
  obtain ⟨d₁, h₁, d₂, h₂, d₃, h₃, d₄, h₄, d₅, h₅, h₆⟩ := h
  obtain ⟨hlast, -⟩ := writeInt_some h₆
  rw [length_of_writeShort h₅, length_of_writeInt h₄, length_of_writeShort h₃, length_of_writeShort h₂,
    length_of_writeShort h₁] at hlast
  omega

/-- Where the array is too short for the record, writing it fails. -/
theorem tamper_some (ha : AtHeader p q off) (h : tamperDnsResponse config array p newIP = some (raw, p')) :
    off + answeredSize q ≤ array.length := by
  simp only [tamperDnsResponse, ha.question, Option.bind_eq_bind, Option.bind_some, Option.bind_eq_some_iff] at h
  obtain ⟨d₁, h₁, d₂, h₂, d₃, h₃, d₄, h₄, -⟩ := h
  have hroom := pointer_some h₄
  rw [length_of_writeShort h₃, length_of_writeShort h₂, length_of_writeShort h₁, ha.offset] at hroom
  unfold answeredSize
  omega

/-! ## What is read -/

/-- A range that is not written to: in front of the counts, or in the question. -/
theorem slice_answered {i n : Nat} (h : off + answeredSize q ≤ array.length)
    (hi : i + n ≤ off + 6 ∨ off + 12 ≤ i ∧ i + n ≤ off + 12 + q.length) :
    slice i n (answered config array off q newIP) = slice i n array := by
  unfold answeredSize at h
  have hl : (patch (off + 6) answerCounts array).length = array.length :=
    length_patch (by rw [length_answerCounts]; omega)
  rw [answered, slice_patch_of_disjoint (by rw [length_answerRecord, hl]; omega) (by omega),
    slice_patch_of_disjoint (by rw [length_answerCounts]; omega) (by rw [length_answerCounts]; omega)]

theorem getElem?_answered {i : Nat} (h : off + answeredSize q ≤ array.length)
    (hi : i < off + 6 ∨ off + 12 ≤ i ∧ i < off + 12 + q.length) :
    (answered config array off q newIP)[i]? = array[i]? := by
  have hs := congrArg (·[0]?) (@slice_answered config q newIP array off i 1 h (by omega))
  simpa [getElem?_slice] using hs

theorem bytesAt_counts (config : Config) (newIP : BitVec 32) (h : off + answeredSize q ≤ array.length) :
    BytesAt (answered config array off q newIP) (off + 6) answerCounts := by
  have hlen := length_answered config newIP h
  unfold answeredSize at h
  have hl : (patch (off + 6) answerCounts array).length = array.length :=
    length_patch (by rw [length_answerCounts]; omega)
  constructor
  · rw [hlen, length_answerCounts]
    omega
  · rw [answered, slice_patch_of_disjoint (by rw [length_answerRecord, hl]; omega) (by rw [length_answerCounts]; omega)]
    exact slice_patch_self (by rw [length_answerCounts]; omega)

theorem bytesAt_record (config : Config) (newIP : BitVec 32) (h : off + answeredSize q ≤ array.length) :
    BytesAt (answered config array off q newIP) (off + 12 + q.length) (answerRecord config q newIP) := by
  have hlen := length_answered config newIP h
  unfold answeredSize at h
  have hl : (patch (off + 6) answerCounts array).length = array.length :=
    length_patch (by rw [length_answerCounts]; omega)
  constructor
  · rw [hlen, length_answerRecord]
    omega
  · rw [answered]
    exact slice_patch_self (by rw [length_answerRecord, hl]; omega)

theorem shortAt_of_bytesAt {i k : Nat} {v : BitVec 16} (h : BytesAt b.array k (toBE 2 v.toNat))
    (hk : k = b.arrayOffset + (b.position + i)) : shortAt b i = v := by
  have hs := h.2
  rw [length_toBE] at hs
  rw [shortAt, ← hk, hs, ofBE_toBE, Nat.mod_eq_of_lt (show v.toNat < 256 ^ 2 from v.isLt), BitVec.ofNat_toNat,
    BitVec.setWidth_eq]

theorem intAt_of_bytesAt {i k : Nat} {v : BitVec 32} (h : BytesAt b.array k (toBE 4 v.toNat))
    (hk : k = b.arrayOffset + (b.position + i)) : intAt b i = v := by
  have hs := h.2
  rw [length_toBE] at hs
  rw [intAt, ← hk, hs, ofBE_toBE, Nat.mod_eq_of_lt (show v.toNat < 256 ^ 4 from v.isLt), BitVec.ofNat_toNat,
    BitVec.setWidth_eq]

/-! ## Names without a pointer -/

/-- The labels of a name without a pointer, each with a dot, up to the zero byte. -/
inductive PlainAt (m : Bytes) : Nat → List Char → Nat → Prop
  | root {pos : Nat} : m[pos]? = some 0 → PlainAt m pos [] (pos + 1)
  | label {pos stop : Nat} {len : UInt8} {bytes : Bytes} {text : List Char} : m[pos]? = some len → len ≠ 0 →
      len.toNat < 192 → bytes.length = len.toNat → BytesAt m (pos + 1) bytes →
      PlainAt m (pos + 1 + bytes.length) text stop → PlainAt m pos (Name.chars bytes ++ ['.'] ++ text) stop

variable {m m' : Bytes} {pos stop n : Nat} {text s : List Char} {c c' : ByteBuffer}

theorem PlainAt.lt (h : PlainAt m pos text stop) : pos < stop := by
  induction h with
  | root _ => exact Nat.lt_succ_self _
  | label _ _ _ _ _ _ ih => omega

/-! ## Names with their pointers -/

/-- The labels of a name and of those that its pointers lead to, at the places `kept` alone. `limit` is the highest that
a buffer has in which the name is read: with each pointer it grows, and there are `size` bytes in the array. -/
inductive TextAt (m : Bytes) (kept : Nat → Prop) (off size : Nat) : Nat → Nat → Nat → List Char → Nat → Prop
  | root {limit pos : Nat} : m[pos]? = some 0 → kept pos → TextAt m kept off size limit 0 pos [] (pos + 1)
  | label {limit depth pos stop : Nat} {len : UInt8} {bytes : Bytes} {text : List Char} : m[pos]? = some len →
      len ≠ 0 → len.toNat < 192 → bytes.length = len.toNat → BytesAt m (pos + 1) bytes →
      (∀ i, pos ≤ i → i < pos + 1 + bytes.length → kept i) →
      TextAt m kept off size limit depth (pos + 1 + bytes.length) text stop →
      TextAt m kept off size limit depth pos (Name.chars bytes ++ ['.'] ++ text) stop
  | pointer {limit depth pos target stop : Nat} {high low : UInt8} {text : List Char} : m[pos]? = some high →
      192 ≤ high.toNat → m[pos + 1]? = some low → kept pos → kept (pos + 1) →
      target = low.toNat + high.toNat % 64 * 256 → off + target + (off + limit) ≤ size →
      TextAt m kept off size (off + target + (off + limit)) depth target text stop →
      TextAt m kept off size limit (depth + 1) pos (text.dropLast ++ ['.']) (pos + 2)

variable {kept : Nat → Prop} {size limit depth d : Nat} {cur : Cursor}

theorem PlainAt.textAt (h : PlainAt m pos text stop) (hkept : ∀ i, pos ≤ i → i < stop → kept i) :
    TextAt m kept off size limit 0 pos text stop := by
  induction h with
  | root hb => exact .root hb (hkept _ (Nat.le_refl _) (Nat.lt_succ_self _))
  | label hb h0 h192 hlen hbytes hrest ih =>
      have hlt := hrest.lt
      exact .label hb h0 h192 hlen hbytes (fun i hi hs => hkept i hi (by omega))
        (ih fun i hi hs => hkept i (by omega) hs)

/-- Each pointer takes twice the offset of the array's bytes. -/
theorem TextAt.depth_le (h : TextAt m kept off size limit depth pos text stop) :
    depth = 0 ∨ 2 * off * depth + limit ≤ size := by
  induction h with
  | root _ _ => exact .inl rfl
  | label _ _ _ _ _ _ _ ih => exact ih
  | @pointer limit depth pos target stop high low text _ _ _ _ _ _ hfit _ ih =>
      right
      rw [Nat.mul_succ]
      rcases ih with rfl | ih
      · omega
      · omega

/-- No more of them follow each other than the decoder makes calls. -/
theorem TextAt.depth_lt (h : TextAt m kept off size limit depth pos text stop) (hoff : depth = 0 ∨ 0 < off)
    (hsize : 0 < size) : depth + 2 ≤ 2 * size := by
  rcases hoff with rfl | hoff
  · omega
  rcases h.depth_le with rfl | hle
  · omega
  · have hdepth := Nat.le_mul_of_pos_left depth hoff
    rw [Nat.mul_assoc] at hle
    omega

/-- The name is the same in another message with the same bytes at these places. -/
theorem TextAt.congr (h : TextAt m kept off size limit depth pos text stop) (hm : ∀ i, kept i → m'[i]? = m[i]?) :
    TextAt m' kept off size limit depth pos text stop := by
  induction h with
  | @root limit pos hb hk => exact .root ((hm pos hk).trans hb) hk
  | @label limit depth pos stop len bytes text hb h0 h192 hlen hbytes hk hrest ih =>
      refine .label ((hm pos (hk pos (Nat.le_refl _) (by omega))).trans hb) h0 h192 hlen ?_ hk ih
      have hsl : slice (pos + 1) bytes.length m' = bytes := by
        rw [← hbytes.2]
        apply List.ext_getElem?
        intro i
        rw [getElem?_slice, getElem?_slice, length_slice hbytes.1]
        split
        · exact hm _ (hk _ (by omega) (by omega))
        · rfl
      refine ⟨?_, hsl⟩
      by_contra hlong
      have hpos : len.toNat ≠ 0 := fun h => h0 (UInt8.toNat_inj.1 h)
      have := congrArg List.length hsl
      rw [slice, List.length_take, List.length_drop] at this
      omega
  | pointer hb hge hlow hk hk' ht hfit _ ih =>
      exact .pointer ((hm _ hk).trans hb) hge ((hm _ hk').trans hlow) hk hk' ht hfit ih

/-- The loop reads the name, in every buffer that is not longer. -/
theorem TextAt.loop (h : TextAt m kept off size limit depth pos text stop) (hb : At m off size cur c)
    (hpos : cur.pos = pos) (hl : cur.limit ≤ limit) (hn : cur.stop - cur.pos ≤ n) (hd : depth ≤ d) (len : Nat)
    (sb : List Char) : Decodes m off (nameLoop off d cur.limit n len sb) (sb ++ text).dropLast stop c := by
  induction h generalizing c cur d n len sb with
  | root hx _ =>
      subst hpos
      obtain ⟨c₁, h₁, ho₁, ha₁⟩ := hb.getByte hx
      obtain ⟨k, rfl, -⟩ := rounds_getByte h₁ (hb.remaining.le.trans hn)
      refine ⟨c₁, ?_, ho₁, ha₁.reads⟩
      rw [nameLoop, readLabels_succ h₁, if_pos rfl, List.append_nil]
  | @label limit depth pos stop len bytes text hx h0 h192 hlen hbytes _ hrest ih =>
      subst hpos
      obtain ⟨c₁, h₁, ho₁, ha₁⟩ := hb.getByte hx
      obtain ⟨k, rfl, hk⟩ := rounds_getByte h₁ (hb.remaining.le.trans hn)
      obtain ⟨c₂, h₂, ho₂, hr₂⟩ := decodes_readLabel ha₁.reads hbytes sb
      have ha₂ := ha₁.onward ho₂ hr₂
      obtain ⟨c₃, h₃, ho₃, hr₃⟩ := ih ha₂ rfl hl (ha₂.remaining.ge.trans (ho₂.remaining_le.trans hk)) hd 0
        (sb ++ Name.chars bytes ++ ['.'])
      refine ⟨c₃, ?_, (ho₁.trans ho₂).trans ho₃, hr₃⟩
      rw [nameLoop, readLabels_succ h₁, if_neg h0, if_neg (by omega), ← hlen]
      refine (bind_of_ok h₂).trans (h₃.trans ?_)
      simp only [List.append_assoc]
  | @pointer limit depth pos target stop high low text hx hge hlow _ _ ht hfit _ ih =>
      subst hpos ht
      obtain ⟨d, rfl⟩ : ∃ k, d = k + 1 := ⟨d - 1, by omega⟩
      have hlong := hb.length_le
      have hlt := (List.getElem?_eq_some_iff.1 hlow).1
      have hround : round m off size cur = .pointer {
          pos := low.toNat + high.toNat % 64 * 256
          stop := low.toNat + high.toNat % 64 * 256 + (off + cur.limit)
          limit := off + (low.toNat + high.toNat % 64 * 256) + (off + cur.limit) } := by
        rw [round, if_neg (by omega), hx]
        dsimp only
        rw [if_neg (ne_zero_of_pointer hge), if_pos hge, if_neg (by omega), hlow]
        exact if_pos (by omega)
      obtain ⟨c₂, new, ho, ha, hnew, -, heq⟩ := loop_pointer hround hn hb
      obtain ⟨new', hread, -⟩ := ih hnew rfl (by dsimp only; omega) (Nat.le_refl _) (Nat.le_of_succ_le_succ hd) 0 []
      rw [← hnew.remaining, ← hnew.limit, ← readDomain_succ] at hread
      refine ⟨c₂, ?_, ho, ha.reads⟩
      rw [heq, hread, ← List.append_assoc, List.dropLast_concat, List.nil_append]

theorem TextAt.readDomain (h : TextAt m kept off size limit depth pos text stop) (hb : At m off size cur c)
    (hpos : cur.pos = pos) (hl : cur.limit ≤ limit) (hd : depth ≤ d) :
    Decodes m off (readDomain off (d + 1)) text.dropLast stop c := by
  have hread := h.loop hb hpos hl (Nat.le_refl _) hd 0 []
  rw [← hb.remaining, ← hb.limit] at hread
  exact hread

/-- A buffer reads what is in its array from `off` on. -/
theorem reads_slice {size : Nat} (h : off + size ≤ c.array.length) (hl : off + size ≤ c.arrayOffset + c.limit)
    (hp : c.arrayOffset + c.position = off + pos) : Reads (slice off size c.array) off pos c where
  bytes := by
    intro i hi
    rw [length_slice h] at hi
    rw [getElem?_slice, if_pos hi]
  limit := by
    rw [length_slice h]
    exact hl
  position := hp

/-- A buffer that was read from is known by its position. -/
theorem Onward.eq {b₁ b₂ : ByteBuffer} (h₁ : Onward b b₁) (h₂ : Onward b b₂)
    (h : b₁.position = b₂.position) : b₁ = b₂ := by
  have harray := h₁.array.trans h₂.array.symm
  have hoffset := h₁.arrayOffset.trans h₂.arrayOffset.symm
  have hlimit := h₁.limit.trans h₂.limit.symm
  cases b₁
  cases b₂
  cases harray
  cases hoffset
  cases hlimit
  cases h
  rfl

theorem exists_maxDepth (c : ByteBuffer) (h : 0 < c.array.length) : ∃ depth, maxDepth c = depth + 2 :=
  ⟨2 * c.array.length - 2, by unfold maxDepth; omega⟩

/-- Where there is a byte, it is read. -/
theorem readName_lt (hlt : c.position < c.limit) (h : readName c = .ok s c') : c.position < c'.position := by
  have hle := c.limit_le
  obtain ⟨depth, hd⟩ := exists_maxDepth c (by omega)
  obtain ⟨x, -, hget⟩ := getByte_room hlt
  obtain ⟨k, hk, -⟩ := rounds_getByte hget (Nat.le_refl _)
  have hname : readName c = nameLoop c.arrayOffset (depth + 1) c.limit (k + 1) 0 [] c := by
    rw [← hk, ← readDomain_succ, ← hd]
    rfl
  have hfollow : ∀ pointer, Forward (readWrapped (readDomain c.arrayOffset (depth + 1)) (c.arrayOffset + pointer)
      (c.arrayOffset + c.limit)) := by
    intro pointer b₁ t b₂ h
    obtain ⟨rfl, -⟩ := readWrapped_ok.1 h
    exact .refl _
  rw [hname, nameLoop, readLabels_succ hget] at h
  have hon : Onward (c.skip 1 hlt) c' := by
    split at h
    · cases h
      exact .refl _
    · split at h
      · exact (Forward.bind forward_getByte fun _ => .bind (hfollow _) fun _ => .pure _) _ _ _ h
      · exact (Forward.bind (forward_readLabel _ _) fun _ => forward_readLabels hfollow _ _ _) _ _ _ h
  exact Nat.lt_of_lt_of_le (Nat.lt_succ_self _) hon.position

/-- A pointer to the first question is followed in a buffer with a higher limit. -/
theorem readName_pointer (h : c.position + 2 ≤ c.limit) (h₁ : c.array[c.arrayOffset + c.position]? = some 0xC0)
    (h₂ : c.array[c.arrayOffset + c.position + 1]? = some 0x0C) : readName c = .ok s c' ↔
      c' = c.skip 2 h ∧ ∃ new new', wrap c.array (c.arrayOffset + 12) (c.arrayOffset + c.limit) = some new ∧
        readDomain c.arrayOffset (maxDepth c - 1) new = .ok s new' := by
  have hle := c.limit_le
  obtain ⟨depth, hd⟩ := exists_maxDepth c (by omega)
  have hg₁ : getByte c = .ok 0xC0 (c.skip 1 (by omega)) := getByte_ok.2 ⟨by omega, h₁, rfl⟩
  have hg₂ : getByte (c.skip 1 (by omega)) = .ok 0x0C (c.skip 2 h) := getByte_ok.2 ⟨h, h₂, rfl⟩
  obtain ⟨k, hk, -⟩ := rounds_getByte hg₁ (Nat.le_refl _)
  have hread : readName c =
      (do return [] ++ (← readWrapped (readDomain c.arrayOffset (depth + 1)) (c.arrayOffset + 12)
        (c.arrayOffset + c.limit))) (c.skip 2 h) := by
    have hname : readName c = readDomain c.arrayOffset (depth + 2) c := by
      rw [← hd]
      rfl
    rw [hname, readDomain_succ, nameLoop, hk, readLabels_succ hg₁]
    exact bind_of_ok hg₂
  rw [hread, hd, bind_ok]
  constructor
  · rintro ⟨t, c₁, hw, hp⟩
    obtain ⟨rfl, new, new', hnew, hr⟩ := readWrapped_ok.1 hw
    obtain ⟨rfl, rfl⟩ := pure_ok.1 hp
    exact ⟨rfl, new, new', hnew, hr⟩
  · rintro ⟨rfl, new, new', hnew, hr⟩
    exact ⟨s, _, readWrapped_ok.2 ⟨rfl, new, new', hnew, hr⟩, rfl⟩

end TunProxy.Dns
