import TunProxy.Dns.Lemmas.Decode

/-!
# Decoding messages

When the decoder makes the right packet of a message.
-/

namespace TunProxy.Dns

open Native (Bytes)
open Lib Lib.Bytes
open ByteBuffer

variable {m : Bytes} {msg : Message} {off : Nat} {b b' : ByteBuffer} {name : Name}

/-! ## Flags -/

/-- The meaning that RFC 1035 gives to the bits, of which 15 is the first one sent. -/
def DnsFlags.rfc1035 (flags : BitVec 16) : DnsFlags where
  qr := flags.toNat / 2 ^ 15 = 1
  opCode := BitVec.ofNat 32 (flags.toNat / 2 ^ 11 % 16)
  aa := flags.toNat / 2 ^ 10 % 2 = 1
  tc := flags.toNat / 2 ^ 9 % 2 = 1
  rd := flags.toNat / 2 ^ 8 % 2 = 1
  ra := flags.toNat / 2 ^ 7 % 2 = 1
  zero := BitVec.ofNat 32 (flags.toNat / 2 ^ 4 % 8)
  rcode := BitVec.ofNat 32 (flags.toNat % 16)

theorem rfc1035_bytes {flags : BitVec 16} {h l : Nat} (hv : flags.toNat = 256 * h + l) (hl : l < 256) :
    DnsFlags.rfc1035 flags = {
      qr := h / 128 = 1, opCode := BitVec.ofNat 32 (h / 8 % 16), aa := h / 4 % 2 = 1, tc := h / 2 % 2 = 1
      rd := h % 2 = 1, ra := l / 128 = 1, zero := BitVec.ofNat 32 (l / 16 % 8),
      rcode := BitVec.ofNat 32 (l % 16) } := by
  simp only [DnsFlags.rfc1035, hv, Nat.reducePow, DnsFlags.mk.injEq, decide_eq_decide]
  refine ⟨by omega, ?_, by omega, by omega, by omega, by omega, ?_, ?_⟩
  · congr 1
    omega
  · congr 1
    omega
  · congr 1
    omega

theorem eq_of_fields {h l : Nat} (h₁ : l / 128 = h / 128) (h₂ : l / 8 % 16 = h / 8 % 16) (h₃ : l / 4 % 2 = h / 4 % 2)
    (h₄ : l / 2 % 2 = h / 2 % 2) (h₅ : l % 2 = h % 2) : l = h := by
  have := Nat.div_add_mod l 128
  omega

theorem ofNat_inj_of_lt {x y : Nat} (hx : x < 16) (hy : y < 16)
    (h : BitVec.ofNat 32 x = BitVec.ofNat 32 y) : x = y := by
  have h := congrArg BitVec.toNat h
  rw [BitVec.toNat_ofNat, BitVec.toNat_ofNat] at h
  omega

/-- The decoder takes the second byte for the first one. -/
theorem parse_eq_rfc1035 (flags : BitVec 16) :
    DnsFlags.parse flags = .rfc1035 flags ↔ flags.toNat / 256 = flags.toNat % 256 := by
  have hlt := flags.isLt
  have hv : flags.toNat = 256 * (flags.toNat / 256) + flags.toNat % 256 := by omega
  rw [parse_bytes hv (by omega), rfc1035_bytes hv (by omega)]
  have hh : flags.toNat / 256 < 256 := by omega
  have hl : flags.toNat % 256 < 256 := by omega
  generalize flags.toNat / 256 = h, flags.toNat % 256 = l at hh hl
  clear hlt hv
  constructor
  · intro heq
    simp only [DnsFlags.mk.injEq, decide_eq_decide] at heq
    obtain ⟨h₁, h₂, h₃, h₄, h₅, -⟩ := heq
    have h₂ : l / 8 % 16 = h / 8 % 16 := ofNat_inj_of_lt (Nat.mod_lt _ (by omega)) (Nat.mod_lt _ (by omega)) h₂
    exact (eq_of_fields (by clear h₂; omega) h₂ (by clear h₂; omega) (by clear h₂; omega) (by clear h₂; omega)).symm
  · rintro rfl
    rfl

/-! ## Names -/

/-- The labels with a dot behind each of them. -/
def Name.dotted (n : Name) : List Char := n.labels.flatMap fun l => Name.chars l ++ ['.']

theorem Name.text_eq (n : Name) : n.text = n.dotted.dropLast := by
  unfold Name.text Name.dotted
  induction n.labels with
  | nil => rfl
  | cons l ls ih =>
      cases ls with
      | nil => simp [List.intercalate]
      | cons l' ls =>
          have hne : (l' :: ls).flatMap (fun l => Name.chars l ++ ['.']) ≠ [] := by simp
          rw [List.flatMap_cons, List.dropLast_append_of_ne_nil hne, ← ih]
          simp [List.intercalate]

theorem Name.dotted_eq_nil {n : Name} : n.dotted = [] ↔ n.labels = [] := by
  unfold Name.dotted
  cases n.labels with
  | nil => simp
  | cons l ls => simp

/-- Behind a last pointer the final dot stays. -/
theorem Name.read_eq (n : Name) (sb : List Char) :
    n.read sb = if n.endsByPointer then sb ++ n.dotted else (sb ++ n.dotted).dropLast := by
  induction n generalizing sb with
  | root => simp [Name.read, Name.endsByPointer, Name.dotted, Name.labels]
  | label bytes rest ih =>
      have hd : sb ++ (Name.label bytes rest).dotted = sb ++ Name.chars bytes ++ ['.'] ++ rest.dotted := by
        simp [Name.dotted, Name.labels]
      rw [Name.read, ih, hd]
      rfl
  | pointer target rest ih =>
      have hd : (Name.pointer target rest).dotted = rest.dotted := rfl
      rw [Name.read, ih, List.nil_append, hd]
      by_cases hl : rest.labels = []
      · have hn := Name.dotted_eq_nil.2 hl
        simp [Name.endsByPointer, hl, hn]
      · have hn : rest.dotted ≠ [] := fun h => hl (Name.dotted_eq_nil.1 h)
        have he : (Name.pointer target rest).endsByPointer = rest.endsByPointer := by
          simp [Name.endsByPointer, hl]
        rw [he]
        split
        · rfl
        · rw [List.dropLast_append_of_ne_nil hn]

/-- The decoder's name is the right one unless there are labels and a pointer behind them. -/
theorem Name.read_eq_text (n : Name) : n.read [] = n.text ↔ ¬ (n.endsByPointer = true ∧ n.labels ≠ []) := by
  rw [Name.read_eq, Name.text_eq, List.nil_append]
  split
  · rename_i he
    rw [← Name.dotted_eq_nil.ne]
    constructor
    · rintro h ⟨-, hne⟩
      have hl := congrArg List.length h
      rw [List.length_dropLast] at hl
      have := List.length_pos_iff.2 hne
      omega
    · intro h
      have hn : n.dotted = [] := by
        by_contra hn
        exact h ⟨he, hn⟩
      rw [hn]
      rfl
  · rename_i he
    simp [he]

/-! ## Messages -/

/-- The message lies in the array of `DnsProxy.run`. -/
structure Received (m : Bytes) (b : ByteBuffer) : Prop where
  array : b.array.length = 2000
  arrayOffset : b.arrayOffset = 28
  position : b.position = 0
  limit : b.limit = m.length
  bytes : slice 28 m.length b.array = m

theorem Received.reads (h : Received m b) : Reads m 28 0 b where
  bytes i hi := by
    have hs := congrArg (·[i]?) h.bytes
    simpa [getElem?_slice, hi] using hs
  limit := by rw [h.arrayOffset, h.limit]
  position := by rw [h.arrayOffset, h.position]

/-- The packet says what the message says. -/
structure DnsPacket.Says (msg : Message) (p : DnsPacket) : Prop where
  id : p.header.id = msg.id
  flags : p.header.flags = .rfc1035 msg.flags
  questions : p.questions.map (·.content) = msg.questions.map (·.content)
  resources : p.resources.map (·.content) = msg.answers.map (·.content)
  aResources : p.aResources.map (·.content) = msg.authorities.map (·.content)
  eResources : p.eResources.map (·.content) = msg.additionals.map (·.content)

theorem map_eq_of_forall₂ {α β γ : Type} {R : α → β → Prop} {f : α → γ} {g : β → γ} {xs : List α} {ys : List β}
    (h : List.Forall₂ R xs ys) (hR : ∀ x y, R x y → g y = f x) : ys.map g = xs.map f := by
  induction h with
  | nil => rfl
  | cons hxy _ ih => rw [List.map_cons, List.map_cons, hR _ _ hxy, ih]

theorem questions_content {qs : List QuestionRecord} {ys : List Question} (h : List.Forall₂ Question.Reads qs ys) :
    ys.map (·.content) = qs.map (·.content) ↔ ∀ q ∈ qs, q.name.read [] = q.name.text := by
  have hm : ys.map (·.content) = qs.map fun q => (q.name.read [], q.type, q.cls) :=
    map_eq_of_forall₂ h fun q y hy => by rw [Question.content, hy.domain, hy.type, hy.cls]
  rw [hm, List.map_inj_left]
  simp [QuestionRecord.content]

theorem resources_content {rs : List ResourceRecord} {ys : List Resource} (h : List.Forall₂ Resource.Reads rs ys) :
    ys.map (·.content) = rs.map (·.content) ↔ ∀ r ∈ rs, r.name.read [] = r.name.text := by
  have hm : ys.map (·.content) = rs.map fun r => (r.name.read [], r.type, r.cls, r.ttl, r.data) :=
    map_eq_of_forall₂ h fun r y hy => by rw [Resource.content, hy.domain, hy.type, hy.cls, hy.ttl, hy.data]
  rw [hm, List.map_inj_left]
  simp [ResourceRecord.content]

theorem DnsPacket.ReadsMessage.says {p : DnsPacket} (h : p.ReadsMessage msg) :
    p.Says msg ↔ msg.flags.toNat / 256 = msg.flags.toNat % 256 ∧ ∀ name ∈ msg.names, name.read [] = name.text := by
  rw [← parse_eq_rfc1035]
  constructor
  · intro hs
    refine ⟨h.flags.symm.trans hs.flags, ?_⟩
    have h₁ := (questions_content h.questions).1 hs.questions
    have h₂ := (resources_content h.resources).1 hs.resources
    have h₃ := (resources_content h.aResources).1 hs.aResources
    have h₄ := (resources_content h.eResources).1 hs.eResources
    intro name hn
    rcases Message.mem_names.1 hn with ⟨q, hq, rfl⟩ | ⟨r, hr, rfl⟩ | ⟨r, hr, rfl⟩ | ⟨r, hr, rfl⟩
    · exact h₁ q hq
    · exact h₂ r hr
    · exact h₃ r hr
    · exact h₄ r hr
  · rintro ⟨hf, hn⟩
    refine ⟨h.id, h.flags.trans hf, ?_, ?_, ?_, ?_⟩
    · exact (questions_content h.questions).2 fun q hq => hn _ (Message.mem_names.2 (.inl ⟨q, hq, rfl⟩))
    · exact (resources_content h.resources).2 fun r hr => hn _ (Message.mem_names.2 (.inr (.inl ⟨r, hr, rfl⟩)))
    · exact (resources_content h.aResources).2 fun r hr => hn _ (Message.mem_names.2 (.inr (.inr (.inl ⟨r, hr, rfl⟩))))
    · exact (resources_content h.eResources).2 fun r hr => hn _ (Message.mem_names.2 (.inr (.inr (.inr ⟨r, hr, rfl⟩))))

/-- The decoder makes a packet that says what the message says exactly when both bytes of the flags are the same, the
buffers for the pointers of every name fit into the array, and no pointer behind labels leads to the root. -/
theorem message_decoded_iff (hm : msg.Encodes m) (hb : Received m b) :
    (∃ p, DnsPacket.fromBytes b = .ok (some p) ∧ p.Says msg) ↔
      msg.flags.toNat / 256 = msg.flags.toNat % 256 ∧
        ∀ name ∈ msg.names, m.length + name.reach 28 ≤ 2000 ∧ ¬ (name.endsByPointer = true ∧ name.labels ≠ []) := by
  obtain ⟨hok, herr⟩ := read_message hm hb.reads hb.arrayOffset hb.limit
  have hfits : ∀ name, Fits 28 b name ↔ m.length + name.reach 28 ≤ 2000 := by
    intro name
    rw [Fits, hb.limit, hb.array]
  by_cases hall : ∀ name ∈ msg.names, Fits 28 b name
  · obtain ⟨p, b', hp, hr⟩ := hok hall
    have hp : DnsPacket.fromBytes b = .ok (some p) := by rw [DnsPacket.fromBytes, hp]
    have hiff : (∃ p', DnsPacket.fromBytes b = .ok (some p') ∧ p'.Says msg) ↔ p.Says msg := by
      constructor
      · rintro ⟨p', hp', hs⟩
        rw [hp] at hp'
        cases hp'
        exact hs
      · exact fun hs => ⟨p, hp, hs⟩
    rw [hiff, hr.says]
    constructor
    · rintro ⟨hf, hn⟩
      exact ⟨hf, fun name hm => ⟨(hfits name).1 (hall name hm), (Name.read_eq_text name).1 (hn name hm)⟩⟩
    · rintro ⟨hf, hn⟩
      exact ⟨hf, fun name hm => (Name.read_eq_text name).2 (hn name hm).2⟩
  · push Not at hall
    obtain ⟨name, hn, hno⟩ := hall
    obtain ⟨b', he⟩ := herr ⟨name, hn, hno⟩
    have he : DnsPacket.fromBytes b = .error .indexOutOfBounds := by rw [DnsPacket.fromBytes, he]
    constructor
    · rintro ⟨p, hp, -⟩
      rw [he] at hp
      cases hp
    · rintro ⟨-, h⟩
      exact absurd ((hfits name).2 (h name hn).1) hno

/-! ## A response with one pointer -/

/-- The answer to a question for the domain `a`, whose name is a pointer to the one of the question. -/
def answerMessage (flags : BitVec 16) : Message where
  id := 7
  flags := flags
  questions := [{ name := .label [97] .root, type := 1, cls := 1 }]
  answers := [{ name := .pointer 12 (.label [97] .root), type := 1, cls := 1, ttl := 60, data := [1, 2, 3, 4] }]
  authorities := []
  additionals := []

def answerBytes (flags : BitVec 16) : Bytes :=
  (answerMessage flags).header ++ [1, 97, 0, 0, 1, 0, 1, 192, 12, 0, 1, 0, 1, 0, 0, 0, 60, 0, 4, 1, 2, 3, 4]

theorem length_answerBytes (flags : BitVec 16) : (answerBytes flags).length = 35 := by
  simp [answerBytes, Message.header]

def answerBuffer (flags : BitVec 16) : ByteBuffer where
  array := List.replicate 28 0 ++ answerBytes flags ++ List.replicate 1937 0
  arrayOffset := 28
  position := 0
  limit := 35
  limit_le := by
    simp only [List.length_append, List.length_replicate, length_answerBytes]
    omega

theorem answerMessage_encodes (flags : BitVec 16) : (answerMessage flags).Encodes (answerBytes flags) := by
  have hheader : BytesAt (answerBytes flags) 0 (answerMessage flags).header := bytesAt_mid [] _ _
  have hname : NameAt (answerBytes flags) 12 12 (.label [97] .root) 15 :=
    .label (by decide) (by decide) (by simp) rfl (by simp [length_answerBytes]) rfl (.root rfl)
  have hpointer : NameAt (answerBytes flags) 19 19 (.pointer 12 (.label [97] .root)) 21 :=
    .pointer (by decide) (by decide) rfl rfl hname
  refine ⟨by simp [length_answerBytes], by simp [answerMessage], by simp [answerMessage], by simp [answerMessage],
    by simp [answerMessage], hheader, 19, 35, 35, ?_, ?_, ?_, ?_⟩
  · exact .cons ⟨15, hname, ⟨by simp [length_answerBytes, QuestionRecord.fields], rfl⟩, rfl⟩ .nil
  · exact .cons ⟨21, hpointer, ⟨by simp [length_answerBytes, ResourceRecord.fields], rfl⟩, by decide, rfl⟩ .nil
  · exact .nil
  · rw [length_answerBytes]
    exact .nil

theorem answerBuffer_received (flags : BitVec 16) : Received (answerBytes flags) (answerBuffer flags) where
  array := by simp only [answerBuffer, List.length_append, List.length_replicate, length_answerBytes]
  arrayOffset := rfl
  position := rfl
  limit := (length_answerBytes flags).symm
  bytes := by
    have h := (bytesAt_mid (List.replicate 28 0) (answerBytes flags) (List.replicate 1937 0)).2
    rwa [List.length_replicate] at h

theorem message_decoded_iff_answer :
    ∃ p, DnsPacket.fromBytes (answerBuffer 0x8080) = .ok (some p) ∧ p.Says (answerMessage 0x8080) :=
  (message_decoded_iff (answerMessage_encodes 0x8080) (answerBuffer_received 0x8080)).2 ⟨by decide, by decide⟩

/-- The flags of an ordinary response: a recursive server answers a query that asked for recursion. -/
theorem message_not_decoded :
    (answerMessage 0x8180).Encodes (answerBytes 0x8180) ∧ Received (answerBytes 0x8180) (answerBuffer 0x8180) ∧
      ¬ ∃ p, DnsPacket.fromBytes (answerBuffer 0x8180) = .ok (some p) ∧ p.Says (answerMessage 0x8180) := by
  refine ⟨answerMessage_encodes _, answerBuffer_received _, ?_⟩
  rintro ⟨p, hp, hs⟩
  have hflags : (DnsPacket.fromBytes (answerBuffer 0x8180)).map (·.map (·.header.flags))
      = .ok (some (DnsFlags.parse 0x8180)) := by
    decide +kernel
  rw [hp] at hflags
  have hpf : p.header.flags = DnsFlags.parse 0x8180 := by
    simpa [Except.map] using hflags
  exact absurd (hpf.symm.trans hs.flags) (by decide)

end TunProxy.Dns
