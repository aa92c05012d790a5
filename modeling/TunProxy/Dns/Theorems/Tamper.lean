import TunProxy.Dns.Lemmas.Tamper

/-!
# Fake answers

When a response with a fake address is decoded to the answer it should give. The count of the questions stays what it
was, so that there must be one question.
-/

namespace TunProxy.Dns

open Native (Bytes)
open Lib Lib.Bytes
open ByteBuffer Vpn Vpn.CommonMethods

variable {config : Config} {b c c' : ByteBuffer} {p p' d : DnsPacket} {q : Question} {qs : List Question}
    {newIP : BitVec 32}
  {raw : Bytes}

/-! ## The property, and when it holds -/

/-- The packet is the answer to the question `q` of `p`. -/
structure FakeAnswer (config : Config) (p : DnsPacket) (q : Question) (newIP : BitVec 32) (d : DnsPacket) : Prop where
  id : d.header.id = p.header.id
  question : d.questions.head? = some q
  answer : ∃ r, d.resources = [r] ∧ r.domain = q.domain ∧ r.type = q.type ∧ r.cls = q.cls ∧ r.ttl = config.dnsTTL ∧
    r.data = toBE 4 newIP.toNat
  authorities : d.aResources = []
  additionals : d.eResources = []

/-- After `tamperDnsResponse` the first bytes of the message are decoded, all of them, to the fake answer. -/
def TamperDecodes (config : Config) (b : ByteBuffer) (p : DnsPacket) (q : Question) (newIP : BitVec 32) : Prop :=
  ∃ raw p' c d c', tamperDnsResponse config b.array p newIP = some (raw, p') ∧
    ofSlice raw b.arrayOffset p'.size = some c ∧ DnsPacket.read c = .ok (some d) c' ∧
    FakeAnswer config p q newIP d ∧ c'.position = c'.limit

/-- The buffer with the message that has the fake answer. -/
structure Opened (config : Config) (b : ByteBuffer) (q : Question) (newIP : BitVec 32) (c : ByteBuffer) : Prop where
  array : c.array = answered config b.array b.arrayOffset q newIP
  arrayOffset : c.arrayOffset = b.arrayOffset
  position : c.position = 0
  limit : c.limit = answeredSize q

/-- `ReadDomain` reads the name of the question at its place, to its end, and from the record behind. -/
structure NamesRead (c : ByteBuffer) (q : Question) : Prop where
  question : ∃ (h : c.position + 12 ≤ c.limit) (n : ByteBuffer), readName (c.skip 12 h) = .ok q.domain n ∧
    n.position = 8 + q.length
  answer : ∃ (h : c.position + (12 + q.length) ≤ c.limit) (n : ByteBuffer),
    readName (c.skip (12 + q.length) h) = .ok q.domain n

/-- The first question of the message has a name without pointers. -/
def PlainName (b : ByteBuffer) : Prop := ∃ text stop, PlainAt (slice b.arrayOffset b.limit b.array) 12 text stop

/-- Where the name has pointers: they still lead to the same name. It may be led to what was written and be the same, so
that it is read there; `nameKept_of_keptText` is about the old bytes alone. -/
def NameKept (config : Config) (b : ByteBuffer) (q : Question) (newIP : BitVec 32) : Prop :=
  ∃ c, Opened config b q newIP c ∧ NamesRead c q

/-! ## The packet that was read -/

/-- A packet that the decoder accepted, with its first question. -/
structure Accepted (b : ByteBuffer) (p : DnsPacket) (q : Question) (qs : List Question) : Prop where
  position : b.position = 0
  read : DnsPacket.fromBytes b = .ok (some p)
  questions : p.questions = q :: qs

/-- What is known of it. -/
structure Known (b : ByteBuffer) (p : DnsPacket) (q : Question) (qs : List Question) : Prop where
  header : p.header = headerAt b
  accepted : p.header.Accepted
  count : p.header.questionCount.toNat = qs.length + 1
  place : AtHeader p q b.arrayOffset
  four : 4 ≤ q.length
  name : ∃ (h : b.position + 12 ≤ b.limit) (n : ByteBuffer), readName (b.skip 12 h) = .ok q.domain n ∧
    n.position = 8 + q.length ∧ q.type = shortAt n 0 ∧ q.cls = shortAt n 2 ∧ n.position + 4 ≤ b.limit

theorem readArray_length {α : Type} {read : Read α} {n : Nat} {xs : List α} (h : readArray read n b = .ok xs c) :
    xs.length = n := by
  induction n generalizing b c xs with
  | zero =>
      obtain ⟨rfl, -⟩ := pure_ok.1 h
      rfl
  | succ n ih =>
      obtain ⟨x, b₁, -, h₁⟩ := bind_ok.1 h
      obtain ⟨ys, b₂, h₂, h₃⟩ := bind_ok.1 h₁
      obtain ⟨rfl, -⟩ := pure_ok.1 h₃
      rw [List.length_cons, ih h₂]

theorem readArray_cons {α : Type} {read : Read α} {n : Nat} {x : α} {xs : List α} :
    readArray read (n + 1) b = .ok (x :: xs) c ↔ ∃ b₁, read b = .ok x b₁ ∧ readArray read n b₁ = .ok xs c := by
  constructor
  · intro h
    obtain ⟨y, b₁, h₁, h₂⟩ := bind_ok.1 h
    obtain ⟨ys, b₂, h₃, h₄⟩ := bind_ok.1 h₂
    obtain ⟨he, rfl⟩ := pure_ok.1 h₄
    cases he
    exact ⟨b₁, h₁, h₃⟩
  · rintro ⟨b₁, h₁, h₂⟩
    rw [readArray, bind_of_ok h₁, bind_of_ok h₂]
    rfl

theorem readArray_nil {α : Type} {read : Read α} {xs : List α} : readArray read 0 b = .ok xs c ↔ xs = [] ∧ c = b := by
  rw [readArray, pure_ok]
  exact and_congr eq_comm eq_comm

/-- The end of the name of a question. -/
theorem question_name {b₁ : ByteBuffer} (h : Question.fromBytes b = .ok q b₁) : ∃ n, readName b = .ok q.domain n ∧
    n.position + 4 = b.position + q.length ∧ q.type = shortAt n 0 ∧ q.cls = shortAt n 2 ∧ n.position + 4 ≤ n.limit ∧
    b₁.position = n.position + 4 ∧ q.offset = b.arrayOffset + b.position := by
  obtain ⟨n, hn, hname, rfl, hq⟩ := question_iff.1 h
  have ho := forward_readName _ _ _ hname
  have hlen := congrArg Question.length hq
  have harr := ho.arrayOffset
  have hpos := ho.position
  dsimp only at hlen
  refine ⟨n, hname, by omega, ?_, ?_, hn, rfl, ?_⟩
  · exact congrArg Question.type hq
  · exact congrArg Question.cls hq
  · exact congrArg Question.offset hq

theorem Accepted.known (h : Accepted b p q qs) : Known b p q qs := by
  obtain ⟨b', hr⟩ := DnsPacket.fromBytes_some h.read
  obtain ⟨-, hheader, -, hacc, hn, b₁, b₂, b₃, h₁, -, -, -⟩ := read_iff.1 hr
  have hlen := readArray_length h₁
  rw [h.questions] at h₁ hlen
  rw [← hlen, List.length_cons] at h₁
  obtain ⟨c, hq, -⟩ := readArray_cons.1 h₁
  obtain ⟨n, hname, hend, htype, hcls, hlim, -, hoff⟩ := question_name hq
  have ho := forward_readName _ _ _ hname
  have hpos := h.position
  have hskip : (b.skip 12 hn).position = b.position + 12 := rfl
  have hle := ho.position
  refine ⟨hheader, hacc, hlen.symm, ⟨?_, ?_, ?_⟩, by omega, hn, n, hname, by omega, htype, hcls, ?_⟩
  · rw [hheader]
    show b.arrayOffset + b.position = b.arrayOffset
    omega
  · rw [h.questions]
    rfl
  · rw [hoff]
    show b.arrayOffset + (b.position + 12) = b.arrayOffset + 12
    omega
  · have hl : n.limit = b.limit := ho.limit
    omega

/-! ## The message with the fake answer -/

section Opened

variable {n : ByteBuffer}

theorem shortAt_congr {i : Nat} (ha : c.arrayOffset + c.position = b.arrayOffset + b.position)
    (h : slice (b.arrayOffset + (b.position + i)) 2 c.array = slice (b.arrayOffset + (b.position + i)) 2 b.array) :
    shortAt c i = shortAt b i := by
  have heq : c.arrayOffset + (c.position + i) = b.arrayOffset + (b.position + i) := by omega
  rw [shortAt, shortAt, heq, h]

theorem Opened.header (ho : Opened config b q newIP c) (hroom : b.arrayOffset + answeredSize q ≤ b.array.length)
    (hb : b.position = 0) :
    headerAt c = { headerAt b with resourceCount := 1, aResourceCount := 0, eResourceCount := 0 } := by
  have hcounts := bytesAt_counts config newIP hroom
  rw [← ho.array, answerCounts, bytesAt_append, bytesAt_append] at hcounts
  simp only [List.length_append, length_toBE] at hcounts
  obtain ⟨⟨h₆, h₈⟩, h₁₀⟩ := hcounts
  have hoff := ho.arrayOffset
  have hpos := ho.position
  have hsame : ∀ i, i + 2 ≤ 6 → shortAt c i = shortAt b i := by
    intro i hi
    refine shortAt_congr (by omega) ?_
    rw [ho.array]
    exact slice_answered hroom (.inl (by omega))
  have hres : shortAt c 6 = 1 := shortAt_of_bytesAt (v := 1) h₆ (by omega)
  have hares : shortAt c 8 = 0 := shortAt_of_bytesAt (v := 0) h₈ (by omega)
  have heres : shortAt c 10 = 0 := shortAt_of_bytesAt (v := 0) h₁₀ (by omega)
  have hplace : c.arrayOffset + c.position = b.arrayOffset + b.position := by omega
  simp only [headerAt, hsame 0 (by omega), hsame 2 (by omega), hsame 4 (by omega), hres, hares, heres, hplace]

/-- Behind the name of the question. -/
theorem Opened.question_fields (ho : Opened config b q newIP c)
    (hroom : b.arrayOffset + answeredSize q ≤ b.array.length)
    (hk : Known b p q qs) (h : c.position + 12 ≤ c.limit) (hn : Onward (c.skip 12 h) n)
    (hpos : n.position = 8 + q.length) :
    shortAt n 0 = q.type ∧ shortAt n 2 = q.cls := by
  obtain ⟨h₀, n₀, hname, hpos₀, htype, hcls, -⟩ := hk.name
  have hon := forward_readName _ _ _ hname
  have hoff : n.arrayOffset = b.arrayOffset := hn.arrayOffset.trans ho.arrayOffset
  have hoff₀ : n₀.arrayOffset = b.arrayOffset := hon.arrayOffset
  have harr : n.array = answered config b.array b.arrayOffset q newIP := hn.array.trans ho.array
  have harr₀ : n₀.array = b.array := hon.array
  have hfour := hk.four
  rw [htype, hcls]
  constructor
  · refine shortAt_congr (by omega) ?_
    rw [harr, harr₀]
    exact slice_answered hroom (.inr (by omega))
  · refine shortAt_congr (by omega) ?_
    rw [harr, harr₀]
    exact slice_answered hroom (.inr (by omega))

/-- The fields of the record, behind its name. -/
structure RecordRead (config : Config) (q : Question) (newIP : BitVec 32) (n : ByteBuffer) : Prop where
  type : shortAt n 0 = q.type
  cls : shortAt n 2 = q.cls
  ttl : intAt n 4 = config.dnsTTL
  dataLength : shortAt n 8 = 4
  data : slice (n.arrayOffset + (n.position + 10)) 4 n.array = toBE 4 newIP.toNat

theorem Opened.record_fields (ho : Opened config b q newIP c) (hroom : b.arrayOffset + answeredSize q ≤ b.array.length)
    (hc : n.array = c.array) (hoff : n.arrayOffset = b.arrayOffset) (hpos : n.position = 14 + q.length) :
    RecordRead config q newIP n := by
  have hrec := bytesAt_record config newIP hroom
  rw [← ho.array, ← hc, answerRecord, bytesAt_append, bytesAt_append, bytesAt_append, bytesAt_append,
    bytesAt_append] at hrec
  simp only [List.length_append, length_toBE] at hrec
  obtain ⟨⟨⟨⟨⟨-, h₂⟩, h₄⟩, h₆⟩, h₁₀⟩, h₁₂⟩ := hrec
  refine ⟨shortAt_of_bytesAt h₂ (by omega), shortAt_of_bytesAt h₄ (by omega), intAt_of_bytesAt h₆ (by omega),
    shortAt_of_bytesAt (v := 4) h₁₀ (by omega), ?_⟩
  have hs := h₁₂.2
  rw [length_toBE] at hs
  rw [← hs]
  congr 1
  omega

theorem Opened.pointer (ho : Opened config b q newIP c) (hroom : b.arrayOffset + answeredSize q ≤ b.array.length) :
    c.array[c.arrayOffset + (12 + q.length)]? = some 0xC0 ∧
    c.array[c.arrayOffset + (12 + q.length) + 1]? = some 0x0C := by
  have hrec := bytesAt_record config newIP hroom
  rw [← ho.array, ← ho.arrayOffset, Nat.add_assoc] at hrec
  exact ⟨hrec.getElem? (i := 0) (by simp), hrec.getElem? (i := 1) (by simp)⟩

/-- The name of the record. -/
theorem Opened.answer_name {m : ByteBuffer} {s : List Char} (ho : Opened config b q newIP c)
    (hroom : b.arrayOffset + answeredSize q ≤ b.array.length) (hm : Onward c m) (hpos : m.position = 12 + q.length)
    (h : readName m = .ok s n) :
    n.position = 14 + q.length ∧ Onward c n ∧ 2 * b.arrayOffset + 40 + q.length ≤ b.array.length := by
  have hlen := length_answered config newIP hroom
  obtain ⟨h₁, h₂⟩ := ho.pointer hroom
  have hoff := ho.arrayOffset
  have hlimit := hm.limit.trans ho.limit
  have harr := hm.array
  unfold answeredSize at hlimit hroom
  have hle : m.position + 2 ≤ m.limit := by omega
  rw [← harr, ← hm.arrayOffset, ← hpos] at h₁ h₂
  obtain ⟨rfl, new, new', hwrap, -⟩ := (readName_pointer hle h₁ h₂).1 h
  refine ⟨?_, hm.trans (onward_skip hle), ?_⟩
  · show m.position + 2 = 14 + q.length
    omega
  · unfold ByteBuffer.wrap at hwrap
    split at hwrap
    · rename_i hfit
      rw [harr, ho.array, hlen] at hfit
      have := hm.arrayOffset
      omega
    · cases hwrap

/-- A second question is read from the record, and the answer does not fit behind it. -/
theorem Opened.one_question {m m₁ m₂ : ByteBuffer} {k : Nat} {questions : List Question} {r : Resource}
    (ho : Opened config b q newIP c) (hroom : b.arrayOffset + answeredSize q ≤ b.array.length) (hm : Onward c m)
    (hpos : m.position = 12 + q.length) (hq : readArray Question.fromBytes k m = .ok questions m₁)
    (hr : Resource.fromBytes m₁ = .ok r m₂) : k = 0 := by
  cases k with
  | zero => rfl
  | succ k =>
      obtain ⟨q₂, rest, rfl⟩ : ∃ q₂ rest, questions = q₂ :: rest :=
        List.exists_cons_of_length_eq_add_one (readArray_length hq)
      obtain ⟨m', hq₂, hrest⟩ := readArray_cons.1 hq
      obtain ⟨n, hname, -, -, -, -, hend, -⟩ := question_name hq₂
      obtain ⟨hn, hon, -⟩ := ho.answer_name hroom hm hpos hname
      have hon' : Onward m' m₁ := forward_readArray forward_question k _ _ _ hrest
      have hpos' := hon'.position
      obtain ⟨n₂, h₁₀, -, hname₂, -, -⟩ := resource_iff.1 hr
      have ho₂ := forward_readName _ _ _ hname₂
      have hlim : m₁.limit = answeredSize q := by
        rw [hon'.limit, ← ho.limit, ← hm.limit]
        exact (forward_question _ _ _ hq₂).limit
      have hlim₂ : n₂.limit = answeredSize q := ho₂.limit.trans hlim
      unfold answeredSize at hlim hlim₂
      have hle := ho₂.position
      have hlt := readName_lt (by omega) hname₂
      omega

end Opened

/-! ## Exactly when the fake answer is decoded -/

theorem decodes_conditions (hk : Known b p q qs) (hb : b.position = 0) (ho : Opened config b q newIP c)
    (hroom : b.arrayOffset + answeredSize q ≤ b.array.length) (hr : DnsPacket.read c = .ok (some d) c')
    (hf : FakeAnswer config p q newIP d) :
    qs = [] ∧ q.length + 28 ≤ 512 ∧ 2 * b.arrayOffset + 40 + q.length ≤ b.array.length ∧ NamesRead c q := by
  obtain ⟨⟨-, hmax, -⟩, hheader, -, -, h₁₂, c₁, c₂, c₃, hq, hres, -, -⟩ := read_iff.1 hr
  have hhead := ho.header hroom hb
  have hlimit := ho.limit
  have hcpos := ho.position
  unfold answeredSize at hlimit
  have hqc : d.header.questionCount.toNat = qs.length + 1 := by
    rw [hheader, hhead, ← hk.count, hk.header]
  have hrc : d.header.resourceCount.toNat = 1 := by
    rw [hheader, hhead]
    rfl
  rw [hqc] at hq
  rw [hrc] at hres
  obtain ⟨q₁, rest, hqs⟩ := List.exists_cons_of_length_eq_add_one (readArray_length hq)
  have hq₁ : q₁ = q := by
    have := hf.question
    rw [hqs] at this
    exact Option.some.inj this
  rw [hqs, hq₁] at hq
  obtain ⟨m, hfirst, hmore⟩ := readArray_cons.1 hq
  obtain ⟨n, hname, hend, -, -, -, hm, -⟩ := question_name hfirst
  have hskip : (c.skip 12 h₁₂).position = c.position + 12 := rfl
  have hcm : Onward c m := (onward_skip h₁₂).trans (forward_question _ _ _ hfirst)
  have hmpos : m.position = 12 + q.length := by omega
  obtain ⟨r, hr₁, hdomain, -⟩ := hf.answer
  rw [hr₁] at hres
  obtain ⟨m₂, hrec, -⟩ := readArray_cons.1 hres
  have hnil := ho.one_question hroom hcm hmpos hmore hrec
  rw [hnil] at hmore
  obtain ⟨-, hlast₁⟩ := readArray_nil.1 hmore
  rw [hlast₁] at hrec
  obtain ⟨n₂, -, -, hname₂, -, -⟩ := resource_iff.1 hrec
  rw [hdomain] at hname₂
  obtain ⟨-, -, hfit⟩ := ho.answer_name hroom hcm hmpos hname₂
  have hlast : c.position + (12 + q.length) ≤ c.limit := by omega
  have hmc : m = c.skip (12 + q.length) hlast := by
    refine hcm.eq (onward_skip hlast) ?_
    show m.position = c.position + (12 + q.length)
    omega
  rw [hmc] at hname₂
  exact ⟨List.eq_nil_of_length_eq_zero hnil, by omega, hfit, ⟨h₁₂, n, hname, by omega⟩, hlast, n₂, hname₂⟩

/-- The question is read as it was. -/
theorem Opened.question_read {n : ByteBuffer} (ho : Opened config b q newIP c)
    (hroom : b.arrayOffset + answeredSize q ≤ b.array.length) (hk : Known b p q qs) (h₁₂ : c.position + 12 ≤ c.limit)
    (hlast : c.position + (12 + q.length) ≤ c.limit) (hname : readName (c.skip 12 h₁₂) = .ok q.domain n)
    (hpos : n.position = 8 + q.length) :
    Question.fromBytes (c.skip 12 h₁₂) = .ok q (c.skip (12 + q.length) hlast) := by
  have hcpos := ho.position
  have hfour := hk.four
  have hon := forward_readName _ _ _ hname
  have hlimit : n.limit = c.limit := hon.limit
  have hoff : n.arrayOffset = c.arrayOffset := hon.arrayOffset
  have hn₄ : n.position + 4 ≤ n.limit := by omega
  obtain ⟨htype, hcls⟩ := ho.question_fields hroom hk h₁₂ hon hpos
  refine question_iff.2 ⟨n, hn₄, hname, ?_, ?_⟩
  · refine (onward_skip hlast).eq ((onward_skip h₁₂).trans (hon.trans (onward_skip hn₄))) ?_
    show c.position + (12 + q.length) = n.position + 4
    omega
  · have hstart : (c.skip 12 h₁₂).arrayOffset + (c.skip 12 h₁₂).position = q.offset := by
      rw [hk.place.offset, ← ho.arrayOffset]
      show c.arrayOffset + (c.position + 12) = c.arrayOffset + 12
      omega
    have hlength : n.arrayOffset + (n.position + 4) - q.offset = q.length := by
      rw [hk.place.offset, hoff, ho.arrayOffset]
      omega
    rw [htype, hcls, hstart, hlength]

/-- The record is read, to the end of the message. -/
theorem Opened.answer_read {n : ByteBuffer} (ho : Opened config b q newIP c)
    (hroom : b.arrayOffset + answeredSize q ≤ b.array.length) (hlast : c.position + (12 + q.length) ≤ c.limit)
    (hname : readName (c.skip (12 + q.length) hlast) = .ok q.domain n) :
    ∃ r c', Resource.fromBytes (c.skip (12 + q.length) hlast) = .ok r c' ∧ (r.domain = q.domain ∧ r.type = q.type ∧
      r.cls = q.cls ∧ r.ttl = config.dnsTTL ∧ r.data = toBE 4 newIP.toNat) ∧ c'.position = c'.limit := by
  have hcpos := ho.position
  have hclimit := ho.limit
  unfold answeredSize at hclimit
  have hpos' : (c.skip (12 + q.length) hlast).position = 12 + q.length := by
    show c.position + (12 + q.length) = 12 + q.length
    omega
  obtain ⟨hpos, hon, -⟩ := ho.answer_name hroom (onward_skip hlast) hpos' hname
  have hlimit := hon.limit
  have hf := ho.record_fields hroom hon.array (hon.arrayOffset.trans ho.arrayOffset) hpos
  have h₄ : (shortAt n 8).toNat = 4 := by
    rw [hf.dataLength]
    rfl
  have h₁₀ : n.position + 10 ≤ n.limit := by omega
  have hend : n.position + 10 + (shortAt n 8).toNat ≤ n.limit := by omega
  refine ⟨_, _, resource_of_name hname h₁₀ hend, ⟨rfl, hf.type, hf.cls, hf.ttl, ?_⟩, ?_⟩
  · show slice (n.arrayOffset + (n.position + 10)) (shortAt n 8).toNat n.array = toBE 4 newIP.toNat
    rw [h₄, hf.data]
  · show n.position + 10 + (shortAt n 8).toNat = n.limit
    omega

/-- What `FromBytes` makes of the message. -/
theorem conditions_decode (hk : Known b p q []) (hb : b.position = 0) (ho : Opened config b q newIP c)
    (hroom : b.arrayOffset + answeredSize q ≤ b.array.length) (hsize : q.length + 28 ≤ 512) (hn : NamesRead c q) :
    ∃ d c', DnsPacket.read c = .ok (some d) c' ∧ FakeAnswer config p q newIP d ∧ c'.position = c'.limit := by
  obtain ⟨h₁₂, n, hname, hpos⟩ := hn.question
  obtain ⟨hlast, n₂, hname₂⟩ := hn.answer
  have hhead := ho.header hroom hb
  have hlimit := ho.limit
  unfold answeredSize at hlimit
  have hquestion := ho.question_read hroom hk h₁₂ hlast hname hpos
  obtain ⟨r, c', hresource, hr, hend⟩ := ho.answer_read hroom hlast hname₂
  have hcount : (headerAt c).questionCount = (headerAt b).questionCount := by rw [hhead]
  have hqc : (headerAt c).questionCount.toNat = 1 := by
    rw [hcount, ← hk.header]
    exact hk.count
  have hrc : (headerAt c).resourceCount = 1 := by rw [hhead]
  have hac : (headerAt c).aResourceCount = 0 := by rw [hhead]
  have hec : (headerAt c).eResourceCount = 0 := by rw [hhead]
  have hacc := hk.accepted.questions
  rw [hk.header, ← hcount] at hacc
  refine ⟨⟨headerAt c, [q], [r], [], [], c.limit⟩, c', ?_, ?_, hend⟩
  · refine read_iff.2 ⟨⟨by omega, by omega, h₁₂⟩, rfl, rfl, ⟨hacc, ?_, ?_, ?_⟩, h₁₂,
      c.skip (12 + q.length) hlast, c', c',
      ?_, ?_, ?_, ?_⟩
    · rw [hrc]
      decide
    · rw [hac]
      decide
    · rw [hec]
      decide
    · rw [hqc]
      exact readArray_cons.2 ⟨_, hquestion, readArray_nil.2 ⟨rfl, rfl⟩⟩
    · rw [hrc]
      exact readArray_cons.2 ⟨_, hresource, readArray_nil.2 ⟨rfl, rfl⟩⟩
    · rw [hac]
      exact readArray_nil.2 ⟨rfl, rfl⟩
    · rw [hec]
      exact readArray_nil.2 ⟨rfl, rfl⟩
  · have hid : (headerAt c).id = p.header.id := by rw [hhead, hk.header]
    exact ⟨hid, rfl, ⟨r, rfl, hr⟩, rfl, rfl⟩

/-! ## Names that are kept -/

theorem Opened.eq (h : Opened config b q newIP c) (h' : Opened config b q newIP c') : c = c' := by
  refine Onward.eq (b := c) (.refl c) ⟨?_, ?_, ?_, ?_⟩ ?_
  · rw [h.array, h'.array]
  · rw [h.arrayOffset, h'.arrayOffset]
  · rw [h.limit, h'.limit]
  · rw [h.position, h'.position]
  · rw [h.position, h'.position]

/-- The places that are not written to, in front of the counts and in the question. -/
def Unwritten (q : Question) (i : Nat) : Prop := i < 6 ∨ 12 ≤ i ∧ i < 12 + q.length

/-- In the message as it came, the name of the first question and what its pointers lead to lie at such places, and
there is room for the buffers in which the pointers are followed. -/
def KeptText (b : ByteBuffer) (q : Question) : Prop :=
  ∃ depth text stop, (depth = 0 ∨ 0 < b.arrayOffset) ∧
    TextAt (slice b.arrayOffset b.limit b.array) (Unwritten q) b.arrayOffset b.array.length
      (max b.limit (2 * b.arrayOffset + 12 + answeredSize q)) depth 12 text stop

/-- The beginning of the name, in the buffer of the message or in that of a pointer. -/
theorem at_question (c : ByteBuffer) (off size : Nat) (hc : off + size ≤ c.arrayOffset + c.limit)
    (hp : c.arrayOffset + c.position = off + 12) (ho : c.arrayOffset ≤ off) (ha : off + size ≤ c.array.length) :
    At (slice off size c.array) off c.array.length
      { pos := 12, stop := c.arrayOffset + c.limit - off, limit := c.limit } c where
  reads := reads_slice ha hc hp
  stop := by
    dsimp only
    omega
  limit := rfl
  arrayOffset := ho
  array := rfl

/-- What the decoder has read is the text. -/
theorem Known.text (hk : Known b p q qs) (hb : b.position = 0) {kept : Nat → Prop} {limit depth stop : Nat}
    {text : List Char}
    (h : TextAt (slice b.arrayOffset b.limit b.array) kept b.arrayOffset b.array.length limit depth 12 text stop)
    (hl : b.limit ≤ limit) (hd : depth < maxDepth b) : stop = 8 + q.length ∧ q.domain = text.dropLast := by
  obtain ⟨h₁₂, n, hname, hpos, -⟩ := hk.name
  obtain ⟨d, hmax⟩ : ∃ d, maxDepth b = d + 1 := ⟨maxDepth b - 1, by omega⟩
  have hat := at_question (b.skip 12 h₁₂) b.arrayOffset b.limit (Nat.le_refl _)
    (by show b.arrayOffset + (b.position + 12) = _; omega) (Nat.le_refl _) b.limit_le
  obtain ⟨n', hn', hon, hr⟩ := h.readDomain (d := d) hat rfl hl (by omega)
  have hread : readName (b.skip 12 h₁₂) = readDomain b.arrayOffset (d + 1) (b.skip 12 h₁₂) := by
    rw [← hmax]
    rfl
  injection (hread.symm.trans hname).symm.trans hn' with htext hnn
  have hoff : n'.arrayOffset = b.arrayOffset := hon.arrayOffset
  have hstop := hr.position
  rw [← hnn] at hstop hoff
  exact ⟨by omega, htext⟩

theorem PlainName.keptText (hk : Known b p q qs) (hb : b.position = 0) (hp : PlainName b) : KeptText b q := by
  obtain ⟨text, stop, hp⟩ := hp
  obtain ⟨h₁₂, -⟩ := hk.name
  have hle := b.limit_le
  have htext : TextAt (slice b.arrayOffset b.limit b.array) (fun _ => True) b.arrayOffset b.array.length b.limit 0 12
      text stop := hp.textAt fun _ _ _ => trivial
  obtain ⟨hstop, -⟩ := hk.text hb htext (Nat.le_refl _) (by unfold maxDepth; omega)
  exact ⟨0, text, stop, .inl rfl, hp.textAt fun i hi his => .inr ⟨hi, by omega⟩⟩

/-- A name that is kept has the same bytes in the new message. -/
theorem Opened.textAt {limit depth stop : Nat} {text : List Char} (ho : Opened config b q newIP c)
    (hroom : b.arrayOffset + answeredSize q ≤ b.array.length) (hk : Known b p q qs)
    (h : TextAt (slice b.arrayOffset b.limit b.array) (Unwritten q) b.arrayOffset b.array.length limit depth 12 text
      stop) :
    TextAt (slice c.arrayOffset (answeredSize q) c.array) (Unwritten q) c.arrayOffset c.array.length limit depth 12 text
      stop := by
  obtain ⟨-, n, -, hn, -, -, hend⟩ := hk.name
  rw [ho.arrayOffset, ho.array, length_answered config newIP hroom]
  refine h.congr fun i hi => ?_
  have hi : i < 6 ∨ 12 ≤ i ∧ i < 12 + q.length := hi
  rw [getElem?_slice, getElem?_slice, if_pos (by unfold answeredSize; omega), if_pos (by omega)]
  exact getElem?_answered hroom (by omega)

/-- There it is read, and again from the record. -/
theorem Opened.kept_read (ho : Opened config b q newIP c) (hroom : 2 * b.arrayOffset + 40 + q.length ≤ b.array.length)
    (hk : Known b p q qs) (hb : b.position = 0) (hp : KeptText b q) : NamesRead c q := by
  obtain ⟨depth, text, stop, hdepth, hp⟩ := hp
  have hroom' : b.arrayOffset + answeredSize q ≤ b.array.length := by
    unfold answeredSize
    omega
  have hbelow : depth + 2 ≤ maxDepth b := hp.depth_lt hdepth (by omega)
  obtain ⟨rfl, htext⟩ := hk.text hb hp (Nat.le_max_left _ _) (by omega)
  have hnew := ho.textAt hroom' hk hp
  have hcpos := ho.position
  have hcoff := ho.arrayOffset
  have hclimit := ho.limit
  have hclen : c.array.length = b.array.length := by rw [ho.array, length_answered config newIP hroom']
  have hmax : maxDepth c = maxDepth b := by rw [maxDepth, maxDepth, hclen]
  unfold answeredSize at hnew hclimit
  have h₁₂ : c.position + 12 ≤ c.limit := by omega
  have hlast : c.position + (12 + q.length) ≤ c.limit := by omega
  have hsize : c.arrayOffset + (12 + q.length + 16) ≤ c.array.length := by omega
  obtain ⟨d, hd⟩ : ∃ d, maxDepth c = d + 2 := ⟨maxDepth c - 2, by omega⟩
  constructor
  · -- at its place
    have hat := at_question (c.skip 12 h₁₂) c.arrayOffset (12 + q.length + 16)
      (by show _ ≤ c.arrayOffset + c.limit; omega) (by show c.arrayOffset + (c.position + 12) = _; omega)
      (Nat.le_refl _) hsize
    obtain ⟨n, hn, hon, hr⟩ := hnew.readDomain (d := d + 1) hat rfl (by show c.limit ≤ _; omega) (by omega)
    have hread : readName (c.skip 12 h₁₂) = readDomain c.arrayOffset (d + 2) (c.skip 12 h₁₂) := by
      rw [← hd]
      rfl
    have hoff : n.arrayOffset = c.arrayOffset := hon.arrayOffset
    have := hr.position
    exact ⟨h₁₂, n, htext ▸ hread.trans hn, by omega⟩
  · -- through the pointer of the record
    have hfit : c.arrayOffset + 12 + (c.arrayOffset + c.limit) ≤ c.array.length := by omega
    obtain ⟨new, hwrap, hna, hno, hnp, hnl⟩ := wrap_some hfit
    have hat := at_question new c.arrayOffset (12 + q.length + 16) (by omega) (by omega) (by omega)
      (by rw [hna]; exact hsize)
    rw [hna] at hat
    obtain ⟨new', hread, -⟩ := hnew.readDomain (d := d) hat rfl (by show new.limit ≤ _; omega) (by omega)
    obtain ⟨h₁, h₂⟩ := ho.pointer hroom'
    have hpos : c.position + (12 + q.length) = 12 + q.length := by omega
    have hle : c.position + (12 + q.length) + 2 ≤ c.limit := by omega
    rw [← hpos] at h₁ h₂
    refine ⟨hlast, _, (readName_pointer (c := c.skip (12 + q.length) hlast) hle h₁ h₂).2 ⟨rfl, new, new', hwrap, ?_⟩⟩
    show readDomain c.arrayOffset (maxDepth c - 1) new = _
    rw [hd, htext]
    exact hread

/-! ## The response -/

theorem ofSlice_eq (config : Config) (newIP : BitVec 32) (h : b.arrayOffset + answeredSize q ≤ b.array.length) : ∃ c,
    ofSlice (answered config b.array b.arrayOffset q newIP) b.arrayOffset (answeredSize q) = some c ∧
      Opened config b q newIP c := by
  rw [← length_answered config newIP h] at h
  exact ⟨_, dif_pos h, rfl, rfl, rfl, rfl⟩

/-- A name is kept if nothing was written where it lay. -/
theorem nameKept_of_keptText (config : Config) (newIP : BitVec 32) (h : Accepted b p q qs) (hp : KeptText b q)
    (hroom : 2 * b.arrayOffset + 40 + q.length ≤ b.array.length) : NameKept config b q newIP := by
  have hroom' : b.arrayOffset + answeredSize q ≤ b.array.length := by
    unfold answeredSize
    omega
  obtain ⟨c, -, ho⟩ := ofSlice_eq config newIP hroom'
  exact ⟨c, ho, ho.kept_read hroom h.known h.position hp⟩

theorem TamperDecodes.conditions (h : Accepted b p q qs) (ht : TamperDecodes config b p q newIP) :
    qs = [] ∧ q.length + 28 ≤ 512 ∧ 2 * b.arrayOffset + 40 + q.length ≤ b.array.length ∧ NameKept config b q newIP := by
  obtain ⟨raw, p', c, d, c', htamper, hslice, hread, hf, -⟩ := ht
  have hk := h.known
  have hroom := tamper_some hk.place htamper
  rw [tamper_eq hk.place hroom] at htamper
  cases htamper
  obtain ⟨c₁, hc₁, ho⟩ := ofSlice_eq config newIP hroom
  cases hc₁.symm.trans hslice
  obtain ⟨hqs, hsize, hfit, hnames⟩ := decodes_conditions hk h.position ho hroom hread hf
  exact ⟨hqs, hsize, hfit, c, ho, hnames⟩

/-- The fake answer is decoded exactly where there is one question, the message with the record is not too long for the
decoder, the array has room for the buffer in which the pointer to the question is followed, and the name of the
question has no pointer or one that is not led astray by what was written. -/
theorem tampered_decodes_iff (h : Accepted b p q qs) : TamperDecodes config b p q newIP ↔
    qs = [] ∧ q.length + 28 ≤ 512 ∧ 2 * b.arrayOffset + 40 + q.length ≤ b.array.length ∧
      (PlainName b ∨ NameKept config b q newIP) := by
  constructor
  · intro ht
    obtain ⟨hqs, hsize, hfit, hkept⟩ := ht.conditions h
    exact ⟨hqs, hsize, hfit, .inr hkept⟩
  · rintro ⟨rfl, hsize, hfit, hnames⟩
    have hk := h.known
    have hb := h.position
    have hroom : b.arrayOffset + answeredSize q ≤ b.array.length := by
      unfold answeredSize
      omega
    obtain ⟨c, hslice, ho⟩ := ofSlice_eq config newIP hroom
    have hread : NamesRead c q := by
      obtain hp | ⟨c₁, ho₁, hread⟩ := hnames
      · exact ho.kept_read hfit hk hb (hp.keptText hk hb)
      · exact ho₁.eq ho ▸ hread
    obtain ⟨d, c', hd, hf, hend⟩ := conditions_decode hk hb ho hroom hsize hread
    exact ⟨_, _, c, d, c', tamper_eq hk.place hroom, hslice, hd, hf, hend⟩

/-- A query for the address of `a`, in the array of the proxy. -/
def oneQuestion : ByteBuffer where
  array := List.replicate 28 0 ++ [18, 52, 1, 0, 0, 1, 0, 0, 0, 0, 0, 0, 1, 97, 0, 0, 1, 0, 1] ++ List.replicate 1953 0
  arrayOffset := 28
  position := 0
  limit := 19
  limit_le := by
    simp only [List.length_append, List.length_replicate]
    decide

/-- The same with another question for `b`. -/
def twoQuestions : ByteBuffer where
  array := List.replicate 28 0 ++
    [18, 52, 1, 0, 0, 2, 0, 0, 0, 0, 0, 0, 1, 97, 0, 0, 1, 0, 1, 1, 98, 0, 0, 1, 0, 1] ++ List.replicate 1946 0
  arrayOffset := 28
  position := 0
  limit := 26
  limit_le := by
    simp only [List.length_append, List.length_replicate]
    decide

def askedFor (c : Char) (offset : Nat) : Question := { domain := [c], type := 1, cls := 1, offset, length := 7 }

def packetOf (questions : List Question) (size : Nat) : DnsPacket where
  header :=
    { id := 0x1234, flags := .parse 0x0100, questionCount := BitVec.ofNat 16 questions.length,
      resourceCount := 0, aResourceCount := 0, eResourceCount := 0, offset := 28 }
  questions := questions
  resources := []
  aResources := []
  eResources := []
  size := size

def proxied : Config where
  needProxy := fun _ _ => true
  dnsTTL := 30
  hashCode := fun _ => 0

theorem tampered_decodes_iff_one :
    TamperDecodes proxied oneQuestion (packetOf [askedFor 'a' 40] 19) (askedFor 'a' 40) 0x0A080001 := by
  have haccepted : Accepted oneQuestion (packetOf [askedFor 'a' 40] 19) (askedFor 'a' 40) [] :=
    ⟨rfl, by decide +kernel, rfl⟩
  have hname : PlainAt (slice 28 19 oneQuestion.array) 12 ['a', '.'] 15 :=
    @PlainAt.label _ _ _ 1 [97] _ rfl (by decide) (by decide) rfl ⟨by decide +kernel, rfl⟩ (.root rfl)
  exact (tampered_decodes_iff haccepted).2 ⟨rfl, by decide, by decide +kernel, .inl ⟨_, _, hname⟩⟩

/-- The count of the questions is still two, so that the second one is read from the record. -/
theorem tampered_not_decoded :
    Accepted twoQuestions (packetOf [askedFor 'a' 40, askedFor 'b' 47] 26) (askedFor 'a' 40) [askedFor 'b' 47] ∧
      (askedFor 'a' 40).type = 1 ∧
      ¬ TamperDecodes proxied twoQuestions (packetOf [askedFor 'a' 40, askedFor 'b' 47] 26)
      (askedFor 'a' 40) 0x0A080001 := by
  have haccepted :
      Accepted twoQuestions (packetOf [askedFor 'a' 40, askedFor 'b' 47] 26) (askedFor 'a' 40) [askedFor 'b' 47] :=
    ⟨rfl, by decide +kernel, rfl⟩
  exact ⟨haccepted, rfl, fun h => List.cons_ne_nil _ _ (h.conditions haccepted).1⟩

end TunProxy.Dns
