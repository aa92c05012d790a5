import TunProxy.Native.Lemmas.DnsName

/-!
# The answers of well-formed responses

`parse_dns_response` goes from answer to answer by the places that `get_qname` returns, and skips one question.
-/

namespace TunProxy.Native

open Lib.Bytes

variable {m : Bytes} {heap : Nat → UInt8} {pos off stop rounds : Nat} {name : Dns.Name}

/-! ## Responses -/

def QuestionIn (m : Bytes) (pos : Nat) (q : Dns.QuestionRecord) (stop : Nat) : Prop :=
  NameIn m pos q.name ∧ BytesAt m (pos + nameSize q.name) q.fields ∧ stop = pos + nameSize q.name + 4

def ResourceIn (m : Bytes) (pos : Nat) (r : Dns.ResourceRecord) (stop : Nat) : Prop :=
  NameIn m pos r.name ∧ BytesAt m (pos + nameSize r.name) (r.fields ++ r.data) ∧ r.data.length < 2 ^ 16 ∧
    stop = pos + nameSize r.name + 10 + r.data.length

/-- The byte string is a well-formed response, no longer than a datagram. -/
structure ResponseAt (m : Bytes) (msg : Dns.Message) : Prop where
  length_lt : m.length < 2 ^ 16
  qr : 2 ^ 15 ≤ msg.flags.toNat
  questions_lt : msg.questions.length < 2 ^ 16
  answers_lt : msg.answers.length < 2 ^ 16
  header : BytesAt m 0 msg.header
  sections : ∃ p₁ p₂ p₃, Dns.SectionAt (QuestionIn m) 12 msg.questions p₁ ∧
    Dns.SectionAt (ResourceIn m) p₁ msg.answers p₂ ∧ Dns.SectionAt (ResourceIn m) p₂ msg.authorities p₃ ∧
    Dns.SectionAt (ResourceIn m) p₃ msg.additionals m.length

/-- The answers, as the walk should come across them from `pos` on. -/
def answersSeen : Nat → List Dns.ResourceRecord → List DnsAnswer
  | _, [] => []
  | pos, r :: rs =>
      { off := pos
        name := (dotted r.name).takeWhile (· ≠ 0)
        qtype := r.type
        qclass := r.cls
        ttl := r.ttl
        rdlength := BitVec.ofNat 16 r.data.length
        rd := pos + nameSize r.name + 10 } :: answersSeen (pos + nameSize r.name + 10 + r.data.length) rs

/-- Where the answers begin. -/
def answersStart (questions : List Dns.QuestionRecord) : Nat :=
  questions.foldl (fun pos q => pos + nameSize q.name + 4) 12

/-- `parse_dns_response` walks all answers in step. -/
def InStep (m : Bytes) (msg : Dns.Message) : Prop :=
  ∀ heap name, ∃ rounds seen, parseDnsResponse (memAt m heap) m.length rounds name = some seen ∧
    seen.answers = answersSeen (answersStart msg.questions) msg.answers

/-! ## Fields -/

section Fields

variable {k : Nat} {v : BitVec 16} {x : U32}

theorem ntohs_of_bytesAt (h : BytesAt m k (toBE 2 v.toNat)) : ntohs (memAt m heap) k = v := by
  refine ntohs_of_toBE ?_
  rw [← h.2, length_toBE]
  exact bytesAt_memAt (by simpa using h.1)

theorem ntohl_of_bytesAt (h : BytesAt m k (toBE 4 x.toNat)) : ntohl (memAt m heap) k = x := by
  refine ntohl_of_toBE ?_
  rw [← h.2, length_toBE]
  exact bytesAt_memAt (by simpa using h.1)

/-- A number of 16 bits that is given as one of the natural numbers. -/
theorem ntohs_of_length {n : Nat} (hn : n < 2 ^ 16) (h : BytesAt m k (toBE 2 n)) :
    ntohs (memAt m heap) k = BitVec.ofNat 16 n := by
  refine ntohs_of_bytesAt ?_
  rwa [BitVec.toNat_ofNat, Nat.mod_eq_of_lt hn]

theorem takeWhile_zero (t rest : Bytes) : (t ++ 0 :: rest).takeWhile (· ≠ 0) = t.takeWhile (· ≠ 0) := by
  induction t with
  | nil => simp
  | cons y t ih =>
      rw [List.cons_append, List.takeWhile_cons, List.takeWhile_cons, ih]

theorem cString_eq {out : Nat → UInt8} {t : Bytes} (ht : t.length ≤ DNS_QNAME_MAX)
    (h : bytesAt out 0 (t.length + 1) = t ++ [0]) : cString out = t.takeWhile (· ≠ 0) := by
  have hsplit : DNS_QNAME_MAX + 1 = t.length + 1 + (DNS_QNAME_MAX - t.length) := by omega
  rw [cString, hsplit, bytesAt_add, h, List.append_assoc, List.singleton_append, takeWhile_zero]

theorem NameIn.dotted_le (h : NameIn m pos name) (hl : name.labels ≠ []) : (dotted name).length ≤ DNS_QNAME_MAX := by
  have hsize := h.size
  have hw := length_written name
  rw [written_eq hl, List.length_append, List.length_singleton] at hw
  unfold DNS_QNAME_MAX
  omega

end Fields

/-! ## The answers -/

section Answers

variable {r : Dns.ResourceRecord} {rs : List Dns.ResourceRecord} {data : Nat → UInt8} {datalen count : Nat}
  {a : DnsAnswer} {answers : List DnsAnswer} {buffer out : Nat → UInt8}

/-- What the loop does up to the first answer that it comes across. -/
theorem parseAnswers_cons (h : parseAnswers data datalen rounds (count + 1) off buffer = some (a :: answers)) :
    ∃ fields out, getQname data datalen rounds (off % 2 ^ 16) buffer = some (some fields, out) ∧ a.off = off ∧
      a.rd = fields + 10 ∧
      parseAnswers data datalen rounds count (fields + 10 + a.rdlength.toNat) out = some answers := by
  rw [parseAnswers] at h
  split at h
  · cases h
  · cases h
  · rename_i fields out hq
    split at h
    · dsimp only at h
      split at h
      · obtain ⟨l, hl, hcons⟩ := Option.map_eq_some_iff.1 h
        cases hcons
        exact ⟨fields, out, hq, rfl, rfl, hl⟩
      · cases h
    · cases h

/-- The loop goes over one answer with a good name. -/
theorem parseAnswers_next (h : ResourceIn m pos r stop)
    (hq : getQname (memAt m heap) m.length rounds pos buffer = some (some (pos + nameSize r.name), out))
    (ht : bytesAt out 0 ((dotted r.name).length + 1) = dotted r.name ++ [0]) (hl : r.name.labels ≠ []) :
    parseAnswers (memAt m heap) m.length rounds (count + 1) pos buffer =
      (parseAnswers (memAt m heap) m.length rounds count stop out).map (answersSeen pos [r] ++ ·) := by
  obtain ⟨hname, hb, hdata, rfl⟩ := h
  have hlt : pos < 2 ^ 16 := Nat.lt_trans hname.wire.pos_lt hname.length_lt
  have hle := hb.1
  have hfields : r.fields.length = 10 := by simp [Dns.ResourceRecord.fields]
  rw [List.length_append, hfields] at hle
  have hall := (bytesAt_append.1 hb).1
  rw [Dns.ResourceRecord.fields, bytesAt_append, bytesAt_append, bytesAt_append] at hall
  simp only [List.length_append, length_toBE] at hall
  obtain ⟨⟨⟨htype, hcls⟩, httl⟩, hlength⟩ := hall
  have hlength : ntohs (memAt m heap) _ = BitVec.ofNat 16 r.data.length := ntohs_of_length hdata hlength
  have hrd : (BitVec.ofNat 16 r.data.length).toNat = r.data.length := by
    rw [BitVec.toNat_ofNat]
    exact Nat.mod_eq_of_lt hdata
  have hpos := nameSize_pos r.name
  have hfirst : pos + nameSize r.name > 0 ∧ pos + nameSize r.name + 10 ≤ m.length := by omega
  have hfit : pos + nameSize r.name + 10 + r.data.length ≤ m.length := by omega
  rw [parseAnswers, Nat.mod_eq_of_lt hlt, hq]
  simp only [hfirst, and_self, ↓reduceIte, ntohs_of_bytesAt htype, ntohs_of_bytesAt hcls,
    ntohl_of_bytesAt httl, hlength,
    hrd, hfit, cString_eq (hname.dotted_le hl) ht, answersSeen, List.singleton_append]

theorem parseAnswers_of_good (hs : Dns.SectionAt (ResourceIn m) pos rs stop)
    (hgood : ∀ r ∈ rs, GoodName r.name) (heap buffer : Nat → UInt8) :
    ∃ k, ∀ rounds ≥ k, parseAnswers (memAt m heap) m.length rounds rs.length pos buffer =
      some (answersSeen pos rs) := by
  induction hs generalizing buffer with
  | nil => exact ⟨0, fun _ _ => rfl⟩
  | @cons pos mid stop r rs hr hs ih =>
      obtain ⟨hg, hgs⟩ := List.forall_mem_cons.1 hgood
      obtain ⟨k, out, hk, ht⟩ := getQname_name hr.1 heap buffer
      rw [qnameResult_iff.2 hg] at hk
      obtain ⟨k', hk'⟩ := ih hgs out
      refine ⟨max k k', fun rounds hle => ?_⟩
      rw [List.length_cons, parseAnswers_next hr (getQname_mono hk (by omega)) (ht hg.labels) hg.labels,
        hk' rounds (by omega)]
      rw [hr.2.2.2]
      rfl

theorem good_of_parseAnswers (hs : Dns.SectionAt (ResourceIn m) pos rs stop)
    (h : parseAnswers (memAt m heap) m.length rounds rs.length pos buffer = some (answersSeen pos rs)) :
    ∀ r ∈ rs, GoodName r.name := by
  induction hs generalizing buffer with
  | nil => simp
  | @cons pos mid stop r rs hr hs ih =>
      obtain ⟨fields, out, hq, -, hrd, hrest⟩ := parseAnswers_cons h
      rw [Nat.mod_eq_of_lt (Nat.lt_trans hr.1.wire.pos_lt hr.1.length_lt)] at hq
      have hfields : fields = pos + nameSize r.name := Nat.add_right_cancel hrd.symm
      have hres := (getQname_unique hr.1 hq).1
      rw [hfields] at hres
      refine List.forall_mem_cons.2 ⟨qnameResult_iff.1 hres.symm, @ih out ?_⟩
      have hdata : (BitVec.ofNat 16 r.data.length).toNat = r.data.length := by
        rw [BitVec.toNat_ofNat]
        exact Nat.mod_eq_of_lt hr.2.2.1
      rw [hfields, hdata, ← hr.2.2.2] at hrest
      rw [hrest, hr.2.2.2]

end Answers

/-! ## The response -/

section Response

variable {msg : Dns.Message} {q : Dns.QuestionRecord} {qs : List Dns.QuestionRecord} {data buffer : Nat → UInt8}
  {datalen : Nat} {seen : DnsSeen}

/-- What the header of a well-formed response says. -/
structure HeaderSays (data : Nat → UInt8) (msg : Dns.Message) : Prop where
  qr : dnsQr data = 1
  opcode : dnsOpcode data = msg.flags.toNat / 2 ^ 11 % 16
  qcount : (ntohs data 4).toNat = msg.questions.length
  acount : (ntohs data 6).toNat = msg.answers.length

theorem ResponseAt.header_says (h : ResponseAt m msg) (heap : Nat → UInt8) : HeaderSays (memAt m heap) msg := by
  have hb := h.header
  simp only [Dns.Message.header, bytesAt_append, List.length_append, length_toBE, Nat.zero_add, Nat.reduceAdd] at hb
  obtain ⟨⟨⟨⟨⟨-, hflags⟩, hq⟩, ha⟩, -⟩, -⟩ := hb
  have hbyte : memAt m heap 2 = UInt8.ofNat (msg.flags.toNat / 256) :=
    memAt_of_getElem? (hflags.getElem? (i := 0) (by simp))
  have hnat : (memAt m heap 2).toNat = msg.flags.toNat / 256 := by
    have := msg.flags.isLt
    rw [hbyte, UInt8.toNat_ofNat']
    omega
  have hqr := h.qr
  have hlt := msg.flags.isLt
  refine ⟨?_, ?_, ?_, ?_⟩
  · rw [dnsQr, hnat]
    omega
  · rw [dnsOpcode, hnat]
    omega
  · rw [ntohs_of_length h.questions_lt hq, BitVec.toNat_ofNat]
    exact Nat.mod_eq_of_lt h.questions_lt
  · rw [ntohs_of_length h.answers_lt ha, BitVec.toNat_ofNat]
    exact Nat.mod_eq_of_lt h.answers_lt

theorem sectionAt_start {k : Nat} (h : Dns.SectionAt (QuestionIn m) k qs stop) :
    stop = qs.foldl (fun pos q => pos + nameSize q.name + 4) k := by
  induction h with
  | nil => rfl
  | cons hq _ ih =>
      rw [List.foldl_cons, ← hq.2.2]
      exact ih

theorem le_foldl_nameSize (k : Nat) (qs : List Dns.QuestionRecord) :
    k + qs.length ≤ qs.foldl (fun pos q => pos + nameSize q.name + 4) k := by
  induction qs generalizing k with
  | nil => exact Nat.le_refl k
  | cons q qs ih =>
      have := ih (k + nameSize q.name + 4)
      rw [List.foldl_cons, List.length_cons]
      omega

/-- Answers are looked for behind the first question only. -/
theorem parseDnsResponse_answers (h : parseDnsResponse data datalen rounds buffer = some seen)
    (hne : seen.answers ≠ []) :
    dnsOpcode data = 0 ∧ 0 < (ntohs data 4).toNat ∧
    ∃ off out, getQname data datalen rounds 12 buffer = some (some off, out) ∧
      parseAnswers data datalen rounds (ntohs data 6).toNat (off + 4) out = some seen.answers := by
  unfold parseDnsResponse at h
  split at h
  · cases h
    exact absurd rfl hne
  · dsimp only at h
    split at h
    · rename_i hstd
      split at h
      · cases h
      · cases h
        exact absurd rfl hne
      · rename_i off out hq
        split at h
        · obtain ⟨answers, ha, rfl⟩ := Option.map_eq_some_iff.1 h
          exact ⟨hstd.2.1, hstd.2.2.1, off, out, hq, ha⟩
        · cases h
          exact absurd rfl hne
    · cases h
      exact absurd rfl hne

theorem parseDnsResponse_found {out : Nat → UInt8} {answers : List DnsAnswer} (hlong : ¬datalen < dnsHeaderSize + 1)
    (hstd : dnsQr data = 1 ∧ dnsOpcode data = 0 ∧ (ntohs data 4).toNat > 0 ∧ (ntohs data 6).toNat > 0)
    (hq : getQname data datalen rounds 12 buffer = some (some off, out)) (hin : off > 0 ∧ off + 4 ≤ datalen)
    (ha : parseAnswers data datalen rounds (ntohs data 6).toNat (off + 4) out = some answers) :
    ∃ seen, parseDnsResponse data datalen rounds buffer = some seen ∧ seen.answers = answers := by
  refine ⟨{ question := some ⟨cString out, ntohs data off, ntohs data (off + 2)⟩, answers }, ?_, rfl⟩
  rw [parseDnsResponse, if_neg hlong]
  dsimp only
  rw [if_pos hstd, dnsHeaderSize, hq]
  dsimp only
  rw [if_pos hin, ha, Option.map_some]

/-- The offset behind the question is that of the answers only for one question, with a good name. -/
theorem good_of_start {off : Nat} (hr : qnameResult 12 q.name = some off)
    (hstart : answersStart (q :: qs) = off + 4) : qs = [] ∧ GoodName q.name := by
  have hle := le_foldl_nameSize (12 + nameSize q.name + 4) qs
  have hfold :
    answersStart (q :: qs) = qs.foldl (fun pos q => pos + nameSize q.name + 4) (12 + nameSize q.name + 4) := rfl
  rw [← hfold, hstart] at hle
  have hoff : off ≤ 12 + nameSize q.name := by
    have hroot : q.name ≠ .root := by
      intro hn
      rw [hn] at hr
      cases hr
    have := two_le_nameSize hroot
    rw [qnameResult] at hr
    split at hr
    · cases hr
    · split at hr
      · cases hr
        exact Nat.le_refl _
      · cases hr
        omega
  have heq : off = 12 + nameSize q.name := by omega
  exact ⟨List.eq_nil_of_length_eq_zero (by omega), qnameResult_iff.1 (heq ▸ hr)⟩

/-- The names of a response that the walk does not get wrong. -/
structure GoodResponse (msg : Dns.Message) : Prop where
  opcode : msg.flags.toNat / 2 ^ 11 % 16 = 0
  questions : msg.questions.length = 1
  questionNames : ∀ q ∈ msg.questions, GoodName q.name
  answerNames : ∀ r ∈ msg.answers, GoodName r.name

theorem good_of_inStep (h : ResponseAt m msg) (hne : msg.answers ≠ []) (hin : InStep m msg) : GoodResponse msg := by
  obtain ⟨p₁, p₂, p₃, hqs, hrs, -, -⟩ := h.sections
  have hp₁ : p₁ = answersStart msg.questions := sectionAt_start hqs
  obtain ⟨rounds, seen, hparse, hseen⟩ := hin (fun _ => 0) (fun _ => 0)
  have hmatch := h.header_says fun _ => 0
  have hcons : ∃ r rs, msg.answers = r :: rs := List.exists_cons_of_ne_nil hne
  obtain ⟨r, rs, hans⟩ := hcons
  have hsome : seen.answers ≠ [] := by
    rw [hseen, hans]
    exact List.cons_ne_nil _ _
  obtain ⟨hop, hqc, off, out, hq, ha⟩ := parseDnsResponse_answers hparse hsome
  rw [hmatch.opcode] at hop
  rw [hmatch.qcount] at hqc
  rw [hmatch.acount, hseen] at ha
  have hstart : answersStart msg.questions = off + 4 := by
    rw [hans] at ha
    obtain ⟨_, _, _, hoff, -⟩ := parseAnswers_cons ha
    exact hoff
  obtain ⟨q, qs, hquest⟩ := List.exists_cons_of_length_pos hqc
  rw [hquest] at hqs hstart
  cases hqs with
  | cons hq₁ _ =>
      have hres := (getQname_unique hq₁.1 hq).1
      obtain ⟨rfl, hgood⟩ := good_of_start hres.symm hstart
      refine ⟨hop, by rw [hquest]; rfl, ?_, ?_⟩
      · rw [hquest]
        exact List.forall_mem_singleton.2 hgood
      · rw [← hstart, ← hquest, ← hp₁] at ha
        exact good_of_parseAnswers hrs ha

theorem inStep_of_good (h : ResponseAt m msg) (hne : msg.answers ≠ []) (hgood : GoodResponse msg) : InStep m msg := by
  intro heap buffer
  obtain ⟨p₁, p₂, p₃, hqs, hrs, -, -⟩ := h.sections
  have hmatch := h.header_says heap
  obtain ⟨q, hquest⟩ := List.length_eq_one_iff.1 hgood.questions
  have hpos := List.length_pos_iff.2 hne
  have hp₁ : p₁ = answersStart msg.questions := sectionAt_start hqs
  rw [hquest] at hqs
  cases hqs with
  | cons hq hnil =>
      cases hnil
      have hstop := hq.2.2
      have hle := hq.2.1.1
      have hfields : q.fields.length = 4 := by simp [Dns.QuestionRecord.fields]
      rw [hfields] at hle
      have hres : qnameResult 12 q.name = some (12 + nameSize q.name) := by
        refine qnameResult_iff.2 (hgood.questionNames q ?_)
        rw [hquest]
        exact List.mem_singleton_self q
      obtain ⟨k, out, hk, -⟩ := getQname_name hq.1 heap buffer
      rw [hres] at hk
      obtain ⟨k', hk'⟩ := parseAnswers_of_good hrs hgood.answerNames heap out
      have hlong : ¬m.length < dnsHeaderSize + 1 := by
        unfold dnsHeaderSize
        omega
      have hstd : dnsQr (memAt m heap) = 1 ∧ dnsOpcode (memAt m heap) = 0 ∧ (ntohs (memAt m heap) 4).toNat > 0 ∧
          (ntohs (memAt m heap) 6).toNat > 0 := by
        rw [hmatch.qr, hmatch.opcode, hgood.opcode, hmatch.qcount, hgood.questions, hmatch.acount]
        exact ⟨rfl, rfl, Nat.one_pos, hpos⟩
      have hin : 12 + nameSize q.name > 0 ∧ 12 + nameSize q.name + 4 ≤ m.length := by omega
      have hans := hk' (max k k') (Nat.le_max_right k k')
      rw [← hmatch.acount, hstop] at hans
      obtain ⟨seen, hparse, hseen⟩ :=
        parseDnsResponse_found hlong hstd (getQname_mono hk (Nat.le_max_left k k')) hin hans
      refine ⟨max k k', seen, hparse, ?_⟩
      rw [hseen, ← hstop, hp₁, hquest]

/-- A response without answers is left alone. -/
theorem inStep_of_nil (h : ResponseAt m msg) (hnil : msg.answers = []) : InStep m msg := by
  intro heap buffer
  have hcount := (h.header_says heap).acount
  rw [hnil, List.length_nil] at hcount
  refine ⟨0, {}, ?_, by rw [hnil]; rfl⟩
  unfold parseDnsResponse
  split
  · rfl
  · dsimp only
    rw [if_neg]
    rintro ⟨-, -, -, hpos⟩
    omega

theorem inStep_iff (h : ResponseAt m msg) : InStep m msg ↔ msg.answers = [] ∨ GoodResponse msg := by
  constructor
  · intro hin
    by_cases hnil : msg.answers = []
    · exact .inl hnil
    · exact .inr (good_of_inStep h hnil hin)
  · intro hor
    by_cases hnil : msg.answers = []
    · exact inStep_of_nil h hnil
    · exact inStep_of_good h hnil (hor.resolve_left hnil)

end Response

/-! ## Exactly when names and answers are decoded -/

/-- `get_qname` decodes exactly the well-formed names that have a label, and no label in front of a pointer. The answers
of a well-formed response are walked in step exactly when there are none, or when it is a standard one to one question,
with such names only. -/
theorem dns_decoded_iff (m : Bytes) :
    (∀ pos name, NameIn m pos name → (QnameDecoded m pos name ↔ GoodName name)) ∧
      ∀ msg, ResponseAt m msg → (InStep m msg ↔ msg.answers = [] ∨ GoodResponse msg) :=
  ⟨fun _ _ h => qnameDecoded_iff h, fun _ h => inStep_iff h⟩

/-- The response to a question for the address of `b`, with an answer whose name is the given one. -/
def sampleResponse (name : Bytes) : Bytes :=
  [0, 1, 0x81, 0x80, 0, 1, 0, 1, 0, 0, 0, 0, 1, 98, 0, 0, 1, 0, 1] ++ name ++
    [0, 1, 0, 1, 0, 0, 0, 60, 0, 4, 10, 0, 0, 1]

def sampleMessage (name : Dns.Name) : Dns.Message where
  id := 1
  flags := 0x8180
  questions := [{ name := .label [98] .root, type := 1, cls := 1 }]
  answers := [{ name, type := 1, cls := 1, ttl := 60, data := [10, 0, 0, 1] }]
  authorities := []
  additionals := []

theorem length_sampleResponse (bytes : Bytes) : (sampleResponse bytes).length = bytes.length + 33 := by
  simp [sampleResponse]

/-- The name of the question. -/
theorem sampleResponse_question (bytes : Bytes) (h : (sampleResponse bytes).length < 2 ^ 16) :
    NameIn (sampleResponse bytes) 12 (.label [98] .root) := by
  have hlen := length_sampleResponse bytes
  refine ⟨h, ?_, by decide⟩
  exact .label (Nat.le_refl 1) (by decide) rfl ⟨by rw [List.length_singleton]; omega, rfl⟩ (.root rfl)

theorem sampleMessage_header (name : Dns.Name) :
    (sampleMessage name).header = [0, 1, 0x81, 0x80, 0, 1, 0, 1, 0, 0, 0, 0] := by
  simp only [sampleMessage, Dns.Message.header, List.length_singleton, List.length_nil]
  decide

def sampleRecord (name : Dns.Name) : Dns.ResourceRecord :=
  { name, type := 1, cls := 1, ttl := 60, data := [10, 0, 0, 1] }

theorem sampleRecord_fields (name : Dns.Name) :
    (sampleRecord name).fields ++ (sampleRecord name).data = [0, 1, 0, 1, 0, 0, 0, 60, 0, 4, 10, 0, 0, 1] := by
  simp only [sampleRecord, Dns.ResourceRecord.fields]
  decide

theorem sampleResponse_at {bytes : Bytes} (h : NameIn (sampleResponse bytes) 19 name)
    (hs : nameSize name = bytes.length) :
    ResponseAt (sampleResponse bytes) (sampleMessage name) := by
  have hlen := length_sampleResponse bytes
  have hq : QuestionIn (sampleResponse bytes) 12 { name := .label [98] .root, type := 1, cls := 1 } 19 :=
    ⟨sampleResponse_question bytes h.length_lt, ⟨by rw [hlen]; show 15 + 4 ≤ _; omega, rfl⟩, rfl⟩
  have hr : ResourceIn (sampleResponse bytes) 19 (sampleRecord name) (sampleResponse bytes).length := by
    refine ⟨h, ?_, Nat.lt_of_lt_of_le (m := 5) (Nat.lt_succ_self 4) (by decide), ?_⟩
    · have hmid := bytesAt_mid ([0, 1, 0x81, 0x80, 0, 1, 0, 1, 0, 0, 0, 0, 1, 98, 0, 0, 1, 0, 1] ++ bytes)
        [0, 1, 0, 1, 0, 0, 0, 60, 0, 4, 10, 0, 0, 1] []
      rw [List.append_nil, List.length_append, ← hs] at hmid
      rw [sampleRecord_fields]
      exact hmid
    · show _ = 19 + nameSize name + 10 + 4
      omega
  refine ⟨h.length_lt, ?_, ?_, ?_, ?_, 19, _, _, .cons hq .nil, .cons hr .nil, .nil, .nil⟩
  · show 2 ^ 15 ≤ (0x8180 : BitVec 16).toNat
    decide
  · show 1 < 2 ^ 16
    decide
  · show 1 < 2 ^ 16
    decide
  · rw [sampleMessage_header]
    exact ⟨by rw [hlen]; show 0 + 12 ≤ _; omega, rfl⟩

theorem pointerName : NameIn (sampleResponse [0xC0, 12]) 19 (.pointer 12 (.label [98] .root)) := by
  have hq := sampleResponse_question [0xC0, 12] (by decide)
  exact ⟨hq.length_lt, .pointer (by decide) (by decide) rfl rfl hq.wire, by decide⟩

/-- The answer is for `a.b`, where `b` is a pointer to the name of the question. -/
theorem labelPointerName :
    NameIn (sampleResponse [1, 97, 0xC0, 12]) 19 (.label [97] (.pointer 12 (.label [98] .root))) := by
  have hq := sampleResponse_question [1, 97, 0xC0, 12] (by decide)
  exact ⟨hq.length_lt, .label (by decide) (by decide) rfl ⟨by decide, rfl⟩
    (.pointer (by decide) (by decide) rfl rfl hq.wire), by decide⟩

theorem dns_decoded_iff_pointer : QnameDecoded (sampleResponse [0xC0, 12]) 19 (.pointer 12 (.label [98] .root)) ∧
    InStep (sampleResponse [0xC0, 12]) (sampleMessage (.pointer 12 (.label [98] .root))) := by
  have hgood : GoodName (.pointer 12 (.label [98] .root)) := ⟨by decide, .inr ⟨_, _, rfl⟩⟩
  refine ⟨((dns_decoded_iff _).1 _ _ pointerName).2 hgood,
    ((dns_decoded_iff _).2 _ (sampleResponse_at pointerName rfl)).2 ?_⟩
  refine .inr ⟨by decide, rfl, ?_, ?_⟩
  · exact List.forall_mem_singleton.2 ⟨by decide, .inl rfl⟩
  · exact List.forall_mem_singleton.2 hgood

/-- With a label in front of the pointer, the place is two bytes behind the start, and the answer is not found. -/
theorem dns_not_decoded : ∃ name, NameIn (sampleResponse [1, 97, 0xC0, 12]) 19 name ∧
    ¬QnameDecoded (sampleResponse [1, 97, 0xC0, 12]) 19 name ∧
    ResponseAt (sampleResponse [1, 97, 0xC0, 12]) (sampleMessage name) ∧
    ¬InStep (sampleResponse [1, 97, 0xC0, 12]) (sampleMessage name) := by
  have hbad : ¬GoodName (.label [97] (.pointer 12 (.label [98] .root))) := by
    rintro ⟨-, ht | ⟨_, _, ht⟩⟩
    · cases ht
    · cases ht
  refine ⟨_, labelPointerName,
    fun hd => hbad ((qnameDecoded_iff labelPointerName).1 hd), sampleResponse_at labelPointerName rfl,
    fun hin => ?_⟩
  rcases (inStep_iff (sampleResponse_at labelPointerName rfl)).1 hin with hnil | hgood
  · cases hnil
  · exact hbad (hgood.answerNames _ (List.mem_singleton_self _))

end TunProxy.Native
