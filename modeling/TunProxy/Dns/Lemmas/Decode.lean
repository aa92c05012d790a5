import TunProxy.Dns.Lemmas.Read
import TunProxy.Dns.Message

/-!
# Decoding what is well formed

What the decoder makes of a name, of a record and of a section of a message.
-/

namespace TunProxy.Dns

open Native (Bytes)
open Lib Lib.Bytes
open ByteBuffer Name

variable {α β : Type} {m : Bytes} {off pos stop start n : Nat} {b b' : ByteBuffer} {x : UInt8} {len depth : Nat}
  {sb : List Char} {name : Name} {msg : Message}

/-- The buffer is at the position `pos` of the message `m`, which lies at `off` of the array. -/
structure Reads (m : Bytes) (off pos : Nat) (b : ByteBuffer) : Prop where
  bytes : ∀ i, i < m.length → b.array[off + i]? = m[i]?
  limit : off + m.length ≤ b.arrayOffset + b.limit
  position : b.arrayOffset + b.position = off + pos

/-- The method returns `a` and leads to the position `stop`. -/
def Decodes (m : Bytes) (off : Nat) (x : Read α) (a : α) (stop : Nat) (b : ByteBuffer) : Prop :=
  ∃ b', x b = .ok a b' ∧ Onward b b' ∧ Reads m off stop b'

theorem Reads.skip (h : Reads m off pos b) (hn : b.position + n ≤ b.limit) : Reads m off (pos + n) (b.skip n hn) where
  bytes := h.bytes
  limit := h.limit
  position := by
    have := h.position
    simp only [ByteBuffer.skip]
    omega

theorem Reads.slice (h : Reads m off pos b) (hn : pos + n ≤ m.length) :
    slice (b.arrayOffset + b.position) n b.array = slice pos n m := by
  apply List.ext_getElem?
  intro i
  rw [getElem?_slice, getElem?_slice]
  split
  · rw [h.position, Nat.add_assoc, h.bytes _ (by omega)]
  · rfl

theorem Reads.remaining (h : Reads m off pos b) : m.length - pos ≤ b.remaining := by
  have hl := h.limit
  have hp := h.position
  rw [ByteBuffer.remaining]
  omega

/-! ## Flags -/

/-- The fields that the decoder reads, in terms of the two bytes. -/
theorem parse_bytes {flags : BitVec 16} {h l : Nat} (hv : flags.toNat = 256 * h + l) (hl : l < 256) :
    DnsFlags.parse flags = {
      qr := l / 128 = 1, opCode := BitVec.ofNat 32 (l / 8 % 16), aa := l / 4 % 2 = 1, tc := l / 2 % 2 = 1
      rd := l % 2 = 1, ra := h / 128 = 1, zero := BitVec.ofNat 32 (h / 16 % 8),
      rcode := BitVec.ofNat 32 (h % 16) } := by
  simp only [DnsFlags.parse, hv, Nat.reducePow, DnsFlags.mk.injEq, decide_eq_decide]
  refine ⟨by omega, ?_, by omega, by omega, by omega, by omega, ?_, ?_⟩
  · congr 1
    omega
  · congr 1
    omega
  · congr 1
    omega

/-! ## Reads of a fixed size -/

theorem decodes_getBytes (h : Reads m off pos b) (hn : pos + n ≤ m.length) :
    Decodes m off (getBytes n) (slice pos n m) (pos + n) b := by
  have hl := h.limit
  have hp := h.position
  have hle : b.position + n ≤ b.limit := by omega
  exact ⟨_, getBytes_ok.2 ⟨hle, (h.slice hn).symm, rfl⟩, onward_skip hle, h.skip hle⟩

theorem decodes_getByte (h : Reads m off pos b) (hx : m[pos]? = some x) :
    Decodes m off getByte x (pos + 1) b := by
  have hlt : pos < m.length := (List.getElem?_eq_some_iff.1 hx).1
  have hl := h.limit
  have hp := h.position
  have hle : b.position + 1 ≤ b.limit := by omega
  exact ⟨_, getByte_ok.2 ⟨hle, by rw [hp, h.bytes pos hlt, hx], rfl⟩, onward_skip hle, h.skip hle⟩

theorem decodes_getShort {v : BitVec 16} (h : Reads m off pos b) (hv : BytesAt m pos (toBE 2 v.toNat)) :
    Decodes m off getShort v (pos + 2) b := by
  obtain ⟨hle, hs⟩ := hv
  rw [length_toBE] at hle hs
  obtain ⟨b', hb, ho, hr⟩ := decodes_getBytes h hle
  refine ⟨b', ?_, ho, hr⟩
  unfold getShort
  rw [bind_of_ok hb, hs, ofBE_toBE, Nat.mod_eq_of_lt (show v.toNat < 256 ^ 2 from v.isLt), BitVec.ofNat_toNat,
    BitVec.setWidth_eq]
  rfl

theorem decodes_getInt {v : BitVec 32} (h : Reads m off pos b) (hv : BytesAt m pos (toBE 4 v.toNat)) :
    Decodes m off getInt v (pos + 4) b := by
  obtain ⟨hle, hs⟩ := hv
  rw [length_toBE] at hle hs
  obtain ⟨b', hb, ho, hr⟩ := decodes_getBytes h hle
  refine ⟨b', ?_, ho, hr⟩
  unfold getInt
  rw [bind_of_ok hb, hs, ofBE_toBE, Nat.mod_eq_of_lt (show v.toNat < 256 ^ 4 from v.isLt), BitVec.ofNat_toNat,
    BitVec.setWidth_eq]
  rfl

/-! ## Labels -/

theorem decodes_readLabel {bytes : Bytes} (h : Reads m off pos b) (hb : BytesAt m pos bytes) (sb : List Char) :
    Decodes m off (readLabel bytes.length sb) (0, sb ++ chars bytes) (pos + bytes.length) b := by
  induction bytes generalizing pos b sb with
  | nil => exact ⟨b, by rw [chars, List.map_nil, List.append_nil]; rfl, .refl b, h⟩
  | cons x bytes ih =>
      obtain ⟨hx, hrest⟩ := bytesAt_append (a := [x]).1 hb
      have hx' : m[pos]? = some x := by
        have hx := congrArg (·[0]?) hx.2
        simpa [getElem?_slice] using hx
      obtain ⟨b₁, h₁, ho₁, hr₁⟩ := decodes_getByte h hx'
      obtain ⟨b₂, h₂, ho₂, hr₂⟩ := ih hr₁ hrest (sb ++ [Char.ofNat x.toNat])
      refine ⟨b₂, ?_, ho₁.trans ho₂, ?_⟩
      · rw [List.length_cons, readLabel_succ h₁, h₂, chars, chars, List.map_cons, List.append_assoc]
        rfl
      · rw [List.length_cons, Nat.add_comm bytes.length, ← Nat.add_assoc]
        exact hr₂

/-! ## Names -/

/-- What `ReadDomain` makes of a name, in the round in which the string is `sb`. -/
def Name.read : Name → List Char → List Char
  | root, sb => sb.dropLast
  | label bytes rest, sb => rest.read (sb ++ chars bytes ++ ['.'])
  | pointer _ rest, sb => sb ++ rest.read []

/-- The loop, for a name in a buffer with the limit `limit`. -/
def nameLoop (off depth limit n len : Nat) (sb : List Char) : Read (List Char) :=
  readLabels (fun pointer => readWrapped (readDomain off depth) (off + pointer) (off + limit)) n len sb

theorem readDomain_succ (off depth : Nat) (b : ByteBuffer) :
    readDomain off (depth + 1) b = nameLoop off depth b.limit b.remaining 0 [] b := rfl

theorem rounds_getByte (h : getByte b = .ok x b') (hn : b.remaining ≤ n) : ∃ k, n = k + 1 ∧ b'.remaining ≤ k := by
  obtain ⟨hle, -, rfl⟩ := getByte_ok.1 h
  simp only [ByteBuffer.remaining, ByteBuffer.skip] at hn ⊢
  exact ⟨n - 1, by omega, by omega⟩

theorem Onward.remaining_le (h : Onward b b') : b'.remaining ≤ b.remaining := by
  have hp := h.position
  have hl := h.limit
  simp only [ByteBuffer.remaining]
  omega

theorem ofNat_ne_zero {k : Nat} (h : k < 256) (hpos : 0 < k) : UInt8.ofNat k ≠ 0 := by
  intro hzero
  have hk := congrArg UInt8.toNat hzero
  rw [UInt8.toNat_ofNat_of_lt' h] at hk
  exact absurd hk (Nat.ne_of_gt hpos)

/-- The round for a label. -/
theorem nameLoop_label {bytes : Bytes} {sb : List Char} {limit k : Nat} {b₁ b₂ : ByteBuffer}
    (hpos : 1 ≤ bytes.length) (hle : bytes.length ≤ 63) (h₁ : getByte b = .ok (.ofNat bytes.length) b₁)
    (h₂ : readLabel bytes.length sb b₁ = .ok (0, sb ++ chars bytes) b₂) :
    nameLoop off depth limit (k + 1) len sb b = nameLoop off depth limit k 0 (sb ++ chars bytes ++ ['.']) b₂ := by
  have hlen := UInt8.toNat_ofNat_of_lt' (show bytes.length < 256 by omega)
  rw [nameLoop, readLabels_succ h₁, if_neg (ofNat_ne_zero (by omega) hpos), if_neg (by omega), hlen]
  exact bind_of_ok h₂

/-- The round for a pointer. -/
theorem nameLoop_pointer {target limit k : Nat} {sb : List Char} {b₁ b₂ : ByteBuffer} (ht : target < 2 ^ 14)
    (h₁ : getByte b = .ok (.ofNat (192 + target / 256)) b₁) (h₂ : getByte b₁ = .ok (.ofNat (target % 256)) b₂) :
    nameLoop off depth limit (k + 1) len sb b =
      (do return sb ++ (← readWrapped (readDomain off depth) (off + target) (off + limit))) b₂ := by
  have hhigh := UInt8.toNat_ofNat_of_lt' (show 192 + target / 256 < 256 by omega)
  have hlow := UInt8.toNat_ofNat_of_lt' (show target % 256 < 256 by omega)
  have htarget : target % 256 + (192 + target / 256) % 64 * 256 = target := by omega
  rw [nameLoop, readLabels_succ h₁, if_neg (ofNat_ne_zero (by omega) (by omega)), if_pos (by omega), hhigh]
  refine (bind_of_ok h₂).trans ?_
  rw [hlow, htarget]

/-- The buffer for the target of a pointer. -/
theorem wrap_reads (target : Nat) {limit : Nat} (hb : Reads m off pos b) (hlimit : b.limit = limit)
    (ho : b.arrayOffset ≤ off) (hw : off + target + (off + limit) ≤ b.array.length) :
    ∃ new, ByteBuffer.wrap b.array (off + target) (off + limit) = some new ∧ Reads m off target new ∧
      new.arrayOffset = 0 ∧ new.limit = off + target + (off + limit) ∧ new.array = b.array := by
  have hm := hb.limit
  rw [ByteBuffer.wrap, dif_pos hw]
  refine ⟨_, rfl, ⟨hb.bytes, ?_, Nat.zero_add _⟩, rfl, rfl, rfl⟩
  dsimp only
  omega

/-- The name is read, or a pointer in it leads to a buffer that is longer than the array. -/
theorem readLabels_name {limit : Nat} (len : Nat) (sb : List Char) (h : NameAt m start pos name stop)
    (hb : Reads m off pos b)
    (ho : b.arrayOffset ≤ off) (hL : b.limit = limit) (hn : b.remaining ≤ n) (hd : name.targets.length ≤ depth) :
    (limit + name.reach off ≤ b.array.length →
      Decodes m off (nameLoop off depth limit n len sb) (name.read sb) stop b) ∧
    (b.array.length < limit + name.reach off →
      ∃ b', nameLoop off depth limit n len sb b = .error .indexOutOfBounds b') := by
  induction h generalizing b limit n len sb depth with
  | root hx =>
      obtain ⟨b₁, h₁, ho₁, hr₁⟩ := decodes_getByte hb hx
      obtain ⟨k, rfl, -⟩ := rounds_getByte h₁ hn
      constructor
      · intro _
        refine ⟨b₁, ?_, ho₁, hr₁⟩
        rw [nameLoop, readLabels_succ h₁, if_pos rfl]
        rfl
      · intro hlt
        have hle := b.limit_le
        simp only [Name.reach] at hlt
        omega
  | @label start pos stop bytes rest hl₁ hl₂ _ hx hle hs hrest ih =>
      obtain ⟨b₁, h₁, ho₁, hr₁⟩ := decodes_getByte hb hx
      obtain ⟨k, rfl, hk⟩ := rounds_getByte h₁ hn
      obtain ⟨b₂, h₂, ho₂, hr₂⟩ := decodes_readLabel hr₁ ⟨hle, hs⟩ sb
      have ho₁₂ := ho₁.trans ho₂
      have hih := ih 0 (sb ++ chars bytes ++ ['.']) hr₂ (ho₁₂.arrayOffset ▸ ho) (ho₁₂.limit.trans hL)
        (ho₂.remaining_le.trans hk) hd
      rw [ho₁₂.array] at hih
      rw [Decodes, nameLoop_label hl₁ hl₂ h₁ h₂]
      constructor
      · intro hfit
        obtain ⟨b₃, h₃, ho₃, hr₃⟩ := hih.1 hfit
        exact ⟨b₃, h₃, ho₁₂.trans ho₃, hr₃⟩
      · exact hih.2
  | @pointer start pos target stop rest _ ht hx hy hrest ih =>
      obtain ⟨b₁, h₁, ho₁, hr₁⟩ := decodes_getByte hb hx
      obtain ⟨k, rfl, hk⟩ := rounds_getByte h₁ hn
      obtain ⟨b₂, h₂, ho₂, hr₂⟩ := decodes_getByte hr₁ hy
      have ho₁₂ := ho₁.trans ho₂
      obtain ⟨depth, rfl⟩ : ∃ d, depth = d + 1 := by
        simp only [Name.targets, List.length_cons] at hd
        exact ⟨depth - 1, by omega⟩
      rw [Decodes, nameLoop_pointer ht h₁ h₂]
      simp only [Name.reach]
      by_cases hw : off + target + (off + limit) ≤ b.array.length
      · -- the buffer for the target, and the name there
        obtain ⟨new, hwrap, hnew, hoff, hlim, harr⟩ :=
          wrap_reads target hr₂ (ho₁₂.limit.trans hL) (ho₁₂.arrayOffset ▸ ho) (by rwa [ho₁₂.array])
        have hih := ih 0 [] hnew (hoff ▸ Nat.zero_le _) hlim (Nat.le_refl _)
          (show rest.targets.length ≤ depth by simpa [Name.targets] using hd)
        rw [harr, ho₁₂.array] at hih
        constructor
        · intro hfit
          obtain ⟨new', hn', -, -⟩ := hih.1 (by omega)
          refine ⟨b₂, ?_, ho₁₂, hr₂⟩
          have hr : readWrapped (readDomain off (depth + 1)) (off + target) (off + limit) b₂ =
            .ok (rest.read []) b₂ := by
            refine readWrapped_ok.2 ⟨rfl, new, new', hwrap, ?_⟩
            rw [readDomain_succ, hlim]
            exact hn'
          exact (bind_of_ok hr).trans rfl
        · intro hlt
          obtain ⟨new', hn'⟩ := hih.2 (by omega)
          refine ⟨b₂, bind_of_error ?_⟩
          rw [readWrapped, hwrap]
          dsimp only
          rw [readDomain_succ, hlim, hn']
      · have hw' : ByteBuffer.wrap b₂.array (off + target) (off + limit) = none := by
          rw [ho₁₂.array, ByteBuffer.wrap, dif_neg hw]
        constructor
        · intro hfit
          omega
        · intro _
          exact ⟨b₂, bind_of_error (by rw [readWrapped, hw'])⟩

theorem NameAt.targets_length_le (h : NameAt m start pos name stop) : name.targets.length ≤ start := by
  induction h with
  | root _ => exact Nat.zero_le _
  | label _ _ _ _ _ _ _ ih => exact ih
  | pointer ht _ _ _ _ ih =>
      simp only [Name.targets, List.length_cons]
      omega

theorem NameAt.pos_lt (h : NameAt m start pos name stop) : pos < m.length := by
  cases h with
  | root hx => exact (List.getElem?_eq_some_iff.1 hx).1
  | label _ _ _ hx _ _ _ => exact (List.getElem?_eq_some_iff.1 hx).1
  | pointer _ _ hx _ _ => exact (List.getElem?_eq_some_iff.1 hx).1

/-- Every pointer of the name can be followed. -/
def Fits (off : Nat) (b : ByteBuffer) (name : Name) : Prop := b.limit + name.reach off ≤ b.array.length

theorem decodes_readName (h : NameAt m pos pos name stop) (hb : Reads m off pos b) (ho : b.arrayOffset = off) :
    (Fits off b name → Decodes m off readName (name.read []) stop b) ∧
    (¬ Fits off b name → ∃ b', readName b = .error .indexOutOfBounds b') := by
  have hdepth := h.targets_length_le
  have hpos := h.pos_lt
  have hlim := hb.limit
  have hle := b.limit_le
  obtain ⟨d, hd⟩ : ∃ d, maxDepth b = d + 1 := ⟨maxDepth b - 1, by rw [maxDepth]; omega⟩
  have hr : readName b = nameLoop off d b.limit b.remaining 0 [] b := by
    unfold readName
    rw [bind_of_ok (get_ok.2 ⟨rfl, rfl⟩), hd, ho, readDomain_succ]
  have hl := readLabels_name 0 [] h hb ho.le rfl (Nat.le_refl _)
    (show name.targets.length ≤ d by rw [maxDepth] at hd; omega)
  rw [Decodes, hr]
  exact ⟨hl.1, fun hf => hl.2 (Nat.lt_of_not_le hf)⟩

/-! ## Records -/

/-- What a question says, and what the record says that it is decoded from. -/
def Question.content (q : Question) : List Char × BitVec 16 × BitVec 16 := (q.domain, q.type, q.cls)

def QuestionRecord.content (q : QuestionRecord) : List Char × BitVec 16 × BitVec 16 := (q.name.text, q.type, q.cls)

def Resource.content (r : Resource) : List Char × BitVec 16 × BitVec 16 × BitVec 32 × Bytes :=
  (r.domain, r.type, r.cls, r.ttl, r.data)

def ResourceRecord.content (r : ResourceRecord) : List Char × BitVec 16 × BitVec 16 × BitVec 32 × Bytes :=
  (r.name.text, r.type, r.cls, r.ttl, r.data)

/-- The decoder's name of a record, and the other fields as they are encoded. -/
structure Question.Reads (q : QuestionRecord) (y : Question) : Prop where
  domain : y.domain = q.name.read []
  type : y.type = q.type
  cls : y.cls = q.cls

structure Resource.Reads (r : ResourceRecord) (y : Resource) : Prop where
  domain : y.domain = r.name.read []
  type : y.type = r.type
  cls : y.cls = r.cls
  ttl : y.ttl = r.ttl
  dataLength : y.dataLength.toNat = r.data.length
  data : y.data = r.data

theorem decodes_question {q : QuestionRecord} (h : QuestionAt m pos q stop) (hb : Reads m off pos b)
    (ho : b.arrayOffset = off) :
    (Fits off b q.name → ∃ y, Decodes m off Question.fromBytes y stop b ∧ Question.Reads q y) ∧
    (¬ Fits off b q.name → ∃ b', Question.fromBytes b = .error .indexOutOfBounds b') := by
  obtain ⟨k, hname, hfields, rfl⟩ := h
  obtain ⟨hok, herr⟩ := decodes_readName hname hb ho
  constructor
  · intro hf
    obtain ⟨ht, hc⟩ := bytesAt_append.1 hfields
    rw [length_toBE] at hc
    obtain ⟨b₁, h₁, ho₁, hr₁⟩ := hok hf
    obtain ⟨b₂, h₂, ho₂, hr₂⟩ := decodes_getShort hr₁ ht
    obtain ⟨b₃, h₃, ho₃, hr₃⟩ := decodes_getShort hr₂ hc
    refine ⟨{ domain := q.name.read [], type := q.type, cls := q.cls, offset := b.arrayOffset + b.position
              length := b₃.arrayOffset + b₃.position - (b.arrayOffset + b.position) },
      ⟨b₃, ?_, (ho₁.trans ho₂).trans ho₃, hr₃⟩, rfl, rfl, rfl⟩
    unfold Question.fromBytes
    rw [bind_of_ok (get_ok.2 ⟨rfl, rfl⟩), bind_of_ok (get_ok.2 ⟨rfl, rfl⟩), bind_of_ok h₁, bind_of_ok h₂,
      bind_of_ok h₃, bind_of_ok (get_ok.2 ⟨rfl, rfl⟩), bind_of_ok (get_ok.2 ⟨rfl, rfl⟩)]
    exact pure_ok.2 ⟨rfl, rfl⟩
  · intro hf
    obtain ⟨b', hb'⟩ := herr hf
    refine ⟨b', ?_⟩
    unfold Question.fromBytes
    rw [bind_of_ok (get_ok.2 ⟨rfl, rfl⟩), bind_of_ok (get_ok.2 ⟨rfl, rfl⟩), bind_of_error hb']

theorem decodes_resource {r : ResourceRecord} (h : ResourceAt m pos r stop) (hb : Reads m off pos b)
    (ho : b.arrayOffset = off) :
    (Fits off b r.name → ∃ y, Decodes m off Resource.fromBytes y stop b ∧ Resource.Reads r y) ∧
    (¬ Fits off b r.name → ∃ b', Resource.fromBytes b = .error .indexOutOfBounds b') := by
  obtain ⟨k, hname, hfields, hlen, rfl⟩ := h
  obtain ⟨hok, herr⟩ := decodes_readName hname hb ho
  constructor
  · intro hf
    have hlen' : (BitVec.ofNat 16 r.data.length).toNat = r.data.length := by
      rw [BitVec.toNat_ofNat]
      omega
    obtain ⟨hfields, hdata⟩ := bytesAt_append.1 hfields
    obtain ⟨hfields, hd⟩ := bytesAt_append.1 hfields
    obtain ⟨hfields, hi⟩ := bytesAt_append.1 hfields
    obtain ⟨ht, hc⟩ := bytesAt_append.1 hfields
    simp only [ResourceRecord.fields, List.length_append, length_toBE] at hc hi hd hdata
    rw [← hlen'] at hd
    obtain ⟨b₁, h₁, ho₁, hr₁⟩ := hok hf
    obtain ⟨b₂, h₂, ho₂, hr₂⟩ := decodes_getShort hr₁ ht
    obtain ⟨b₃, h₃, ho₃, hr₃⟩ := decodes_getShort hr₂ hc
    obtain ⟨b₄, h₄, ho₄, hr₄⟩ := decodes_getInt hr₃ hi
    obtain ⟨b₅, h₅, ho₅, hr₅⟩ := decodes_getShort hr₄ hd
    obtain ⟨b₆, h₆, ho₆, hr₆⟩ := decodes_getBytes hr₅ hdata.1
    refine ⟨{ domain := r.name.read [], type := r.type, cls := r.cls, ttl := r.ttl
              dataLength := BitVec.ofNat 16 r.data.length, data := r.data, offset := b.arrayOffset + b.position
              length := b₆.arrayOffset + b₆.position - (b.arrayOffset + b.position) },
      ⟨b₆, ?_, ((((ho₁.trans ho₂).trans ho₃).trans ho₄).trans ho₅).trans ho₆, hr₆⟩, rfl, rfl, rfl, rfl, hlen', rfl⟩
    rw [hdata.2, ← hlen'] at h₆
    unfold Resource.fromBytes
    rw [bind_of_ok (get_ok.2 ⟨rfl, rfl⟩), bind_of_ok (get_ok.2 ⟨rfl, rfl⟩), bind_of_ok h₁, bind_of_ok h₂,
      bind_of_ok h₃, bind_of_ok h₄, bind_of_ok h₅, bind_of_ok h₆, bind_of_ok (get_ok.2 ⟨rfl, rfl⟩),
      bind_of_ok (get_ok.2 ⟨rfl, rfl⟩)]
    exact pure_ok.2 ⟨rfl, rfl⟩
  · intro hf
    obtain ⟨b', hb'⟩ := herr hf
    refine ⟨b', ?_⟩
    unfold Resource.fromBytes
    rw [bind_of_ok (get_ok.2 ⟨rfl, rfl⟩), bind_of_ok (get_ok.2 ⟨rfl, rfl⟩), bind_of_error hb']

/-! ## Sections -/

/-- A section is decoded record by record, up to the first that is not. -/
theorem decodes_section {b₀ : ByteBuffer} {recordAt : Nat → α → Nat → Prop} {read : Read β} {ok : α → Prop}
    {reads : α → β → Prop} {e : Thrown} {xs : List α}
    (hrec : ∀ b pos x stop, Onward b₀ b → Reads m off pos b → recordAt pos x stop →
      (ok x → ∃ y, Decodes m off read y stop b ∧ reads x y) ∧ (¬ ok x → ∃ b', read b = .error e b'))
    (h : SectionAt recordAt pos xs stop) (ho : Onward b₀ b) (hb : Reads m off pos b) :
    ((∀ x ∈ xs, ok x) → ∃ ys, Decodes m off (readArray read xs.length) ys stop b ∧ List.Forall₂ reads xs ys) ∧
    ((∃ x ∈ xs, ¬ ok x) → ∃ b', readArray read xs.length b = .error e b') := by
  induction h generalizing b with
  | nil =>
      refine ⟨fun _ => ⟨[], ⟨b, rfl, .refl b, hb⟩, .nil⟩, ?_⟩
      rintro ⟨x, hx, -⟩
      cases hx
  | @cons pos mid stop x xs hx hxs ih =>
      obtain ⟨hok, herr⟩ := hrec b pos x mid ho hb hx
      by_cases hxok : ok x
      · obtain ⟨y, ⟨b₁, h₁, ho₁, hr₁⟩, hy⟩ := hok hxok
        obtain ⟨ihok, iherr⟩ := ih (ho.trans ho₁) hr₁
        constructor
        · intro hall
          obtain ⟨ys, ⟨b₂, h₂, ho₂, hr₂⟩, hys⟩ := ihok fun x hx => hall x (List.mem_cons_of_mem _ hx)
          exact ⟨y :: ys, ⟨b₂, (bind_of_ok h₁).trans ((bind_of_ok h₂).trans rfl), ho₁.trans ho₂, hr₂⟩, .cons hy hys⟩
        · rintro ⟨x', hx', hno⟩
          rcases List.mem_cons.1 hx' with rfl | hx'
          · exact absurd hxok hno
          · obtain ⟨b', hb'⟩ := iherr ⟨x', hx', hno⟩
            exact ⟨b', (bind_of_ok h₁).trans (bind_of_error hb')⟩
      · constructor
        · intro hall
          exact absurd (hall x List.mem_cons_self) hxok
        · intro _
          obtain ⟨b', hb'⟩ := herr hxok
          exact ⟨b', bind_of_error hb'⟩

/-! ## Messages -/

theorem Message.Encodes.counts (hm : msg.Encodes m) :
    BytesAt m 0 (toBE 2 msg.id.toNat) ∧ BytesAt m 2 (toBE 2 msg.flags.toNat) ∧
      BytesAt m 4 (toBE 2 (BitVec.ofNat 16 msg.questions.length).toNat) ∧
      BytesAt m 6 (toBE 2 (BitVec.ofNat 16 msg.answers.length).toNat) ∧
      BytesAt m 8 (toBE 2 (BitVec.ofNat 16 msg.authorities.length).toNat) ∧
      BytesAt m 10 (toBE 2 (BitVec.ofNat 16 msg.additionals.length).toNat) := by
  have hcount : ∀ {n : Nat}, n ≤ 50 → (BitVec.ofNat 16 n).toNat = n := by
    intro n hn
    rw [BitVec.toNat_ofNat]
    omega
  have hq := hm.questions_le
  rw [hcount (by omega), hcount hm.answers_le, hcount hm.authorities_le, hcount hm.additionals_le]
  have h := hm.header
  simp only [Message.header, bytesAt_append, List.length_append, length_toBE] at h
  obtain ⟨⟨⟨⟨⟨h₁, h₂⟩, h₃⟩, h₄⟩, h₅⟩, h₆⟩ := h
  exact ⟨h₁, h₂, h₃, h₄, h₅, h₆⟩

theorem decodes_header (hm : msg.Encodes m) (hb : Reads m off 0 b) :
    Decodes m off DnsHeader.fromBytes {
      id := msg.id, flags := .parse msg.flags, questionCount := BitVec.ofNat 16 msg.questions.length
      resourceCount := BitVec.ofNat 16 msg.answers.length, aResourceCount := BitVec.ofNat 16 msg.authorities.length
      eResourceCount := BitVec.ofNat 16 msg.additionals.length, offset := b.arrayOffset + b.position } 12 b := by
  obtain ⟨c₁, c₂, c₃, c₄, c₅, c₆⟩ := hm.counts
  obtain ⟨b₁, h₁, ho₁, hr₁⟩ := decodes_getShort hb c₁
  obtain ⟨b₂, h₂, ho₂, hr₂⟩ := decodes_getShort hr₁ c₂
  obtain ⟨b₃, h₃, ho₃, hr₃⟩ := decodes_getShort hr₂ c₃
  obtain ⟨b₄, h₄, ho₄, hr₄⟩ := decodes_getShort hr₃ c₄
  obtain ⟨b₅, h₅, ho₅, hr₅⟩ := decodes_getShort hr₄ c₅
  obtain ⟨b₆, h₆, ho₆, hr₆⟩ := decodes_getShort hr₅ c₆
  refine ⟨b₆, ?_, ((((ho₁.trans ho₂).trans ho₃).trans ho₄).trans ho₅).trans ho₆, hr₆⟩
  unfold DnsHeader.fromBytes
  rw [bind_of_ok (get_ok.2 ⟨rfl, rfl⟩), bind_of_ok (get_ok.2 ⟨rfl, rfl⟩), bind_of_ok h₁, bind_of_ok h₂, bind_of_ok h₃,
    bind_of_ok h₄, bind_of_ok h₅, bind_of_ok h₆]
  exact pure_ok.2 ⟨rfl, rfl⟩

/-- The packet that the decoder makes of a message: the names as it reads them. -/
structure DnsPacket.ReadsMessage (msg : Message) (p : DnsPacket) : Prop where
  id : p.header.id = msg.id
  flags : p.header.flags = .parse msg.flags
  questionCount : p.header.questionCount = BitVec.ofNat 16 msg.questions.length
  resourceCount : p.header.resourceCount = BitVec.ofNat 16 msg.answers.length
  aResourceCount : p.header.aResourceCount = BitVec.ofNat 16 msg.authorities.length
  eResourceCount : p.header.eResourceCount = BitVec.ofNat 16 msg.additionals.length
  questions : List.Forall₂ Question.Reads msg.questions p.questions
  resources : List.Forall₂ Resource.Reads msg.answers p.resources
  aResources : List.Forall₂ Resource.Reads msg.authorities p.aResources
  eResources : List.Forall₂ Resource.Reads msg.additionals p.eResources

theorem toInt_ofNat {n : Nat} (h : n ≤ 50) : (BitVec.ofNat 16 n).toInt = n := by
  have hn : (BitVec.ofNat 16 n).toNat = n := by
    rw [BitVec.toNat_ofNat]
    omega
  rw [BitVec.toInt_eq_toNat_of_lt (by omega), hn]

theorem arrayLength_ofNat {n : Nat} (h : n ≤ 50) (b : ByteBuffer) :
    DnsPacket.arrayLength (BitVec.ofNat 16 n) b = .ok n b := by
  have hn : (BitVec.ofNat 16 n).toNat = n := by
    rw [BitVec.toNat_ofNat]
    omega
  rw [DnsPacket.arrayLength, toInt_ofNat h, if_neg (by omega), hn]
  rfl

theorem Onward.fits (h : Onward b b') : Fits off b' name ↔ Fits off b name := by
  rw [Fits, Fits, h.limit, h.array]

/-- The checks on the size and on the counts let a message pass. -/
theorem read_eq_readSections {b₁ : ByteBuffer} (hm : msg.Encodes m) (hl : b.limit = m.length)
    (h₁ : DnsHeader.fromBytes b = .ok {
      id := msg.id, flags := .parse msg.flags, questionCount := BitVec.ofNat 16 msg.questions.length
      resourceCount := BitVec.ofNat 16 msg.answers.length, aResourceCount := BitVec.ofNat 16 msg.authorities.length
      eResourceCount := BitVec.ofNat 16 msg.additionals.length, offset := b.arrayOffset + b.position } b₁) :
    DnsPacket.read b = DnsPacket.readSections {
      id := msg.id, flags := .parse msg.flags, questionCount := BitVec.ofNat 16 msg.questions.length
      resourceCount := BitVec.ofNat 16 msg.answers.length, aResourceCount := BitVec.ofNat 16 msg.authorities.length
      eResourceCount := BitVec.ofNat 16 msg.additionals.length, offset := b.arrayOffset + b.position } b.limit b₁ := by
  have hsize : 12 ≤ b.limit := by
    have := hm.header.1
    simp only [Message.header, List.length_append, length_toBE] at this
    omega
  have hle := hm.length_le
  have hq := hm.questions_le
  have ha := hm.answers_le
  have hauth := hm.authorities_le
  have hadd := hm.additionals_le
  unfold DnsPacket.read
  rw [bind_of_ok (get_ok.2 ⟨rfl, rfl⟩), if_neg (by omega), if_neg (by omega), bind_of_ok h₁, if_neg]
  rw [toInt_ofNat (by omega), toInt_ofNat ha, toInt_ofNat hauth, toInt_ofNat hadd]
  omega

theorem read_message (hm : msg.Encodes m) (hb : Reads m off 0 b) (ho : b.arrayOffset = off) (hl : b.limit = m.length) :
    ((∀ name ∈ msg.names, Fits off b name) → ∃ p b', DnsPacket.read b = .ok (some p) b' ∧ p.ReadsMessage msg) ∧
    ((∃ name ∈ msg.names, ¬ Fits off b name) → ∃ b', DnsPacket.read b = .error .indexOutOfBounds b') := by
  have hq := hm.questions_le
  obtain ⟨b₁, h₁, ho₁, hr₁⟩ := decodes_header hm hb
  obtain ⟨p₁, p₂, p₃, hs₁, hs₂, hs₃, hs₄⟩ := hm.sections
  have hquestion : ∀ b' pos x stop, Onward b b' → Reads m off pos b' → QuestionAt m pos x stop →
      (Fits off b x.name → ∃ y, Decodes m off Question.fromBytes y stop b' ∧ Question.Reads x y) ∧
        (¬ Fits off b x.name → ∃ b'', Question.fromBytes b' = .error .indexOutOfBounds b'') := by
    intro b' pos x stop hon hr hx
    rw [← hon.fits]
    exact decodes_question hx hr (hon.arrayOffset.trans ho)
  have hresource : ∀ b' pos x stop, Onward b b' → Reads m off pos b' → ResourceAt m pos x stop →
      (Fits off b x.name → ∃ y, Decodes m off Resource.fromBytes y stop b' ∧ Resource.Reads x y) ∧
        (¬ Fits off b x.name → ∃ b'', Resource.fromBytes b' = .error .indexOutOfBounds b'') := by
    intro b' pos x stop hon hr hx
    rw [← hon.fits]
    exact decodes_resource hx hr (hon.arrayOffset.trans ho)
  rw [read_eq_readSections hm hl h₁, DnsPacket.readSections, bind_of_ok (arrayLength_ofNat (by omega) _),
    bind_of_ok (arrayLength_ofNat hm.answers_le _), bind_of_ok (arrayLength_ofNat hm.authorities_le _),
    bind_of_ok (arrayLength_ofNat hm.additionals_le _)]
  obtain ⟨ok₁, err₁⟩ := decodes_section hquestion hs₁ ho₁ hr₁
  by_cases hf₁ : ∀ q ∈ msg.questions, Fits off b q.name
  · obtain ⟨questions, ⟨b₂, h₂, ho₂, hr₂⟩, hy₁⟩ := ok₁ hf₁
    have ho₂ := ho₁.trans ho₂
    rw [bind_of_ok h₂]
    obtain ⟨ok₂, err₂⟩ := decodes_section hresource hs₂ ho₂ hr₂
    by_cases hf₂ : ∀ r ∈ msg.answers, Fits off b r.name
    · obtain ⟨resources, ⟨b₃, h₃, ho₃, hr₃⟩, hy₂⟩ := ok₂ hf₂
      have ho₃ := ho₂.trans ho₃
      rw [bind_of_ok h₃]
      obtain ⟨ok₃, err₃⟩ := decodes_section hresource hs₃ ho₃ hr₃
      by_cases hf₃ : ∀ r ∈ msg.authorities, Fits off b r.name
      · obtain ⟨aResources, ⟨b₄, h₄, ho₄, hr₄⟩, hy₃⟩ := ok₃ hf₃
        have ho₄ := ho₃.trans ho₄
        rw [bind_of_ok h₄]
        obtain ⟨ok₄, err₄⟩ := decodes_section hresource hs₄ ho₄ hr₄
        by_cases hf₄ : ∀ r ∈ msg.additionals, Fits off b r.name
        · obtain ⟨eResources, ⟨b₅, h₅, ho₅, hr₅⟩, hy₄⟩ := ok₄ hf₄
          rw [bind_of_ok h₅]
          refine ⟨fun _ => ⟨_, b₅, rfl, rfl, rfl, rfl, rfl, rfl, rfl, hy₁, hy₂, hy₃, hy₄⟩, ?_⟩
          rintro ⟨name, hn, hno⟩
          rcases Message.mem_names.1 hn with ⟨q, hq, rfl⟩ | ⟨r, hr, rfl⟩ | ⟨r, hr, rfl⟩ | ⟨r, hr, rfl⟩
          · exact absurd (hf₁ q hq) hno
          · exact absurd (hf₂ r hr) hno
          · exact absurd (hf₃ r hr) hno
          · exact absurd (hf₄ r hr) hno
        · push Not at hf₄
          obtain ⟨r, hr, hno⟩ := hf₄
          obtain ⟨b', hb'⟩ := err₄ ⟨r, hr, hno⟩
          exact ⟨fun hall => absurd (hall _ (Message.mem_names.2 (.inr (.inr (.inr ⟨r, hr, rfl⟩))))) hno,
            fun _ => ⟨b', bind_of_error hb'⟩⟩
      · push Not at hf₃
        obtain ⟨r, hr, hno⟩ := hf₃
        obtain ⟨b', hb'⟩ := err₃ ⟨r, hr, hno⟩
        exact ⟨fun hall => absurd (hall _ (Message.mem_names.2 (.inr (.inr (.inl ⟨r, hr, rfl⟩))))) hno,
          fun _ => ⟨b', bind_of_error hb'⟩⟩
    · push Not at hf₂
      obtain ⟨r, hr, hno⟩ := hf₂
      obtain ⟨b', hb'⟩ := err₂ ⟨r, hr, hno⟩
      exact ⟨fun hall => absurd (hall _ (Message.mem_names.2 (.inr (.inl ⟨r, hr, rfl⟩)))) hno,
        fun _ => ⟨b', bind_of_error hb'⟩⟩
  · push Not at hf₁
    obtain ⟨q, hq, hno⟩ := hf₁
    obtain ⟨b', hb'⟩ := err₁ ⟨q, hq, hno⟩
    exact ⟨fun hall => absurd (hall _ (Message.mem_names.2 (.inl ⟨q, hq, rfl⟩))) hno, fun _ => ⟨b', bind_of_error hb'⟩⟩

end TunProxy.Dns
