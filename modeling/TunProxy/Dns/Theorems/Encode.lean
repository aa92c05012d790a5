import TunProxy.Dns.Lemmas.Agree
import TunProxy.Dns.Lemmas.Encode

/-!
# Decoding what was encoded
-/

namespace TunProxy.Dns

open Native (Bytes)
open Lib Lib.Bytes
open ByteBuffer

variable {α : Type} {m : Bytes} {off pos position n : Nat} {b b' : ByteBuffer} {p p' : DnsPacket}

/-! ## Flags -/

/-- The numbers have no more bits than the header has for them. -/
structure DnsFlags.Fits (f : DnsFlags) : Prop where
  opCode : f.opCode.toNat < 16
  zero : f.zero.toNat < 8
  rcode : f.rcode.toNat < 16

theorem parse_toShort (f : DnsFlags) :
    DnsFlags.parse f.toShort = { f with
      opCode := BitVec.ofNat 32 (f.opCode.toNat % 16), zero := BitVec.ofNat 32 (f.zero.toNat % 8)
      rcode := BitVec.ofNat 32 (f.rcode.toNat % 16) } := by
  obtain ⟨qr, opCode, aa, tc, rd, ra, zero, rcode⟩ := f
  have ho : opCode.toNat % 16 < 16 := Nat.mod_lt _ (by omega)
  have hz : zero.toNat % 8 < 8 := Nat.mod_lt _ (by omega)
  have hr : rcode.toNat % 16 < 16 := Nat.mod_lt _ (by omega)
  have hbit : ∀ x : Bool, x.toNat < 2 := by decide
  have hv : (DnsFlags.toShort ⟨qr, opCode, aa, tc, rd, ra, zero, rcode⟩).toNat =
      256 * (ra.toNat * 128 + zero.toNat % 8 * 16 + rcode.toNat % 16)
        + (qr.toNat * 128 + opCode.toNat % 16 * 8 + aa.toNat * 4 + tc.toNat * 2 + rd.toNat) := by
    have := hbit ra
    have := hbit qr
    have := hbit aa
    have := hbit tc
    have := hbit rd
    simp only [DnsFlags.toShort, BitVec.toNat_ofNat, Nat.reducePow]
    omega
  have hl : qr.toNat * 128 + opCode.toNat % 16 * 8 + aa.toNat * 4 + tc.toNat * 2 + rd.toNat < 256 := by
    have := hbit qr
    have := hbit aa
    have := hbit tc
    have := hbit rd
    omega
  rw [parse_bytes hv hl]
  clear hv
  generalize opCode.toNat % 16 = o, zero.toNat % 8 = z, rcode.toNat % 16 = r at *
  have hqr := hbit qr
  have haa := hbit aa
  have htc := hbit tc
  have hrd := hbit rd
  have hra := hbit ra
  have heq : ∀ {n : Nat} {x : Bool}, n = x.toNat → decide (n = 1) = x := by
    rintro _ (_ | _) rfl
    · rfl
    · rfl
  simp only [DnsFlags.mk.injEq]
  refine ⟨heq (by omega), ?_, heq (by omega), heq (by omega), heq (by omega), heq (by omega), ?_, ?_⟩
  · congr 1
    omega
  · congr 1
    omega
  · congr 1
    omega

theorem parse_toShort_iff (f : DnsFlags) : DnsFlags.parse f.toShort = f ↔ f.Fits := by
  have hmod : ∀ {x : BitVec 32} {k : Nat}, k ≤ 16 → (BitVec.ofNat 32 (x.toNat % k) = x ↔ x.toNat % k = x.toNat) := by
    intro x k hk
    rw [← BitVec.toNat_inj, BitVec.toNat_ofNat]
    have := Nat.mod_le x.toNat k
    have := x.isLt
    rw [Nat.mod_eq_of_lt (by omega)]
  rw [parse_toShort]
  obtain ⟨qr, opCode, aa, tc, rd, ra, zero, rcode⟩ := f
  simp only [DnsFlags.mk.injEq, true_and]
  rw [hmod (by omega), hmod (by omega), hmod (by omega)]
  constructor
  · rintro ⟨ho, hz, hr⟩
    exact ⟨by rw [← ho]; exact Nat.mod_lt _ (by omega), by rw [← hz]; exact Nat.mod_lt _ (by omega),
      by rw [← hr]; exact Nat.mod_lt _ (by omega)⟩
  · rintro ⟨ho, hz, hr⟩
    exact ⟨Nat.mod_eq_of_lt ho, Nat.mod_eq_of_lt hz, Nat.mod_eq_of_lt hr⟩

/-! ## Records -/

/-- A record that says the same is read further than it was written. -/
theorem question_behind {q y : Question} (hw : WellNamed q.domain) (hm : BytesAt m pos (q.toBytes position).2)
    (hb : Outer m off b) (hpos : pos ≤ b.position) (h : Question.fromBytes b = .ok y b') (hy : y.content = q.content) :
    Outer m off b' ∧ pos + (q.toBytes position).2.length < b'.position := by
  have ho := hb.onward (forward_question _ _ _ h)
  obtain ⟨hm, -⟩ := bytesAt_append.1 hm
  obtain ⟨hm, -⟩ := bytesAt_append.1 hm
  obtain ⟨n, hn, hname, rfl, -⟩ := question_iff.1 h
  simp only [Question.content, Prod.mk.injEq] at hy
  rw [hy.1] at hname
  rcases readName_behind hw hm hb hpos hname with hend | hlt
  · rw [ByteBuffer.remaining] at hend
    omega
  · refine ⟨ho, ?_⟩
    simp only [Question.toBytes, List.length_append, DnsHeader.putShort, length_toBE, ByteBuffer.skip]
    omega

theorem resource_behind {r y : Resource} (hw : WellNamed r.domain) (hm : BytesAt m pos (r.toBytes position).2)
    (hb : Outer m off b) (hpos : pos ≤ b.position) (h : Resource.fromBytes b = .ok y b') (hy : y.content = r.content) :
    Outer m off b' ∧ pos + (r.toBytes position).2.length < b'.position := by
  have ho := hb.onward (forward_resource _ _ _ h)
  obtain ⟨hm, -⟩ := bytesAt_append.1 hm
  obtain ⟨hm, -⟩ := bytesAt_append.1 hm
  obtain ⟨hm, -⟩ := bytesAt_append.1 hm
  obtain ⟨hm, -⟩ := bytesAt_append.1 hm
  obtain ⟨hm, -⟩ := bytesAt_append.1 hm
  obtain ⟨n, h₁₀, hn, hname, rfl, hread⟩ := resource_iff.1 h
  simp only [Resource.content, Prod.mk.injEq] at hy
  obtain ⟨hdomain, -, -, -, hdata⟩ := hy
  rw [hdomain] at hname
  have hlen : r.data.length = (shortAt n 8).toNat := by
    have hl := n.limit_le
    rw [← hdata, hread]
    exact length_slice (by omega)
  rcases readName_behind hw hm hb hpos hname with hend | hlt
  · rw [ByteBuffer.remaining] at hend
    omega
  · refine ⟨ho, ?_⟩
    simp only [Resource.toBytes, List.length_append, DnsHeader.putShort, length_toBE, ByteBuffer.skip]
    omega

/-! ## Sections -/

theorem length_readArray {read : Read α} {ys : List α} (h : readArray read n b = .ok ys b') : ys.length = n := by
  induction n generalizing b ys with
  | zero =>
      obtain ⟨rfl, -⟩ := pure_ok.1 h
      rfl
  | succ n ih =>
      obtain ⟨y, b₁, -, h⟩ := bind_ok.1 h
      obtain ⟨ys, b₂, h₂, h⟩ := bind_ok.1 h
      obtain ⟨rfl, rfl⟩ := pure_ok.1 h
      rw [List.length_cons, ih h₂]

theorem array_behind {β : Type} (toBytes : α → Nat → α × Bytes) {read : Read α} {content : α → β} {xs ys : List α}
    (hrec : ∀ x ∈ xs, ∀ {position pos b y b'}, BytesAt m pos (toBytes x position).2 → Outer m off b →
      pos ≤ b.position → read b = .ok y b' → content y = content x →
        Outer m off b' ∧ pos + (toBytes x position).2.length < b'.position)
    (hm : BytesAt m pos (writeArray toBytes xs.length xs position).2) (hb : Outer m off b) (hpos : pos ≤ b.position)
    (h : readArray read n b = .ok ys b') (hys : ys.map content = xs.map content) :
    Outer m off b' ∧ pos + (writeArray toBytes xs.length xs position).2.length ≤ b'.position ∧
      (pos < b.position ∨ xs ≠ [] → pos + (writeArray toBytes xs.length xs position).2.length < b'.position) := by
  have hn : n = xs.length := by
    rw [← length_readArray h, ← List.length_map (f := content), hys, List.length_map]
  subst hn
  induction xs generalizing pos position b ys with
  | nil =>
      obtain ⟨-, rfl⟩ := pure_ok.1 h
      refine ⟨hb, hpos, ?_⟩
      rintro (hlt | hne)
      · exact hlt
      · exact absurd rfl hne
  | cons x xs ih =>
      obtain ⟨y, b₁, h₁, h⟩ := bind_ok.1 h
      obtain ⟨ys, b₂, h₂, h⟩ := bind_ok.1 h
      obtain ⟨rfl, rfl⟩ := pure_ok.1 h
      obtain ⟨hx, hxs⟩ := List.cons.inj hys
      obtain ⟨hm₁, hm₂⟩ := bytesAt_append.1 hm
      obtain ⟨hb₁, hlt⟩ := hrec x List.mem_cons_self hm₁ hb hpos h₁ hx
      obtain ⟨hb₂, -, hstrict⟩ := ih (fun x hx => hrec x (List.mem_cons_of_mem _ hx)) hm₂ hb₁ hlt.le hxs h₂
      have hlast := hstrict (.inl hlt)
      simp only [List.length_cons, writeArray, List.length_append] at hlast ⊢
      exact ⟨hb₂, by omega, fun _ => by omega⟩

/-! ## Packets -/

/-- The packet has no more records than the decoder takes, each with a name that can be written. -/
structure DnsPacket.WellFormed (p : DnsPacket) : Prop where
  questions_le : p.questions.length ≤ 2
  resources_le : p.resources.length ≤ 50
  aResources_le : p.aResources.length ≤ 50
  eResources_le : p.eResources.length ≤ 50
  questions : ∀ q ∈ p.questions, WellNamed q.domain
  resources : ∀ r ∈ p.resources, WellNamed r.domain
  aResources : ∀ r ∈ p.aResources, WellNamed r.domain
  eResources : ∀ r ∈ p.eResources, WellNamed r.domain

/-- The packets have the same header and the same records, wherever these lie. -/
structure DnsPacket.Same (p p' : DnsPacket) : Prop where
  id : p'.header.id = p.header.id
  flags : p'.header.flags = p.header.flags
  questionCount : p'.header.questionCount = p.header.questionCount
  resourceCount : p'.header.resourceCount = p.header.resourceCount
  aResourceCount : p'.header.aResourceCount = p.header.aResourceCount
  eResourceCount : p'.header.eResourceCount = p.header.eResourceCount
  questions : p'.questions.map (·.content) = p.questions.map (·.content)
  resources : p'.resources.map (·.content) = p.resources.map (·.content)
  aResources : p'.aResources.map (·.content) = p.aResources.map (·.content)
  eResources : p'.eResources.map (·.content) = p.eResources.map (·.content)

theorem toInt_count {n : Nat} (h : n ≤ 50) : (BitVec.ofNat 16 n).toInt.toNat = n := by
  rw [toInt_ofNat h, Int.toNat_natCast]

/-- The bytes of a packet, section by section. -/
theorem toBytes_eq (hp : p.WellFormed) (position : Nat) : ∃ q r a e,
    (p.toBytes position).2 = (p.toBytes position).1.header.toBytes ++
    (writeArray Question.toBytes p.questions.length p.questions q).2
      ++ (writeArray Resource.toBytes p.resources.length p.resources r).2
      ++ (writeArray Resource.toBytes p.aResources.length p.aResources a).2
      ++ (writeArray Resource.toBytes p.eResources.length p.eResources e).2 := by
  have hq := hp.questions_le
  have h₁ := toInt_count (n := p.questions.length) (by omega)
  have h₂ := toInt_count hp.resources_le
  have h₃ := toInt_count hp.aResources_le
  have h₄ := toInt_count hp.eResources_le
  simp only [DnsPacket.toBytes, h₁, h₂, h₃, h₄]
  exact ⟨_, _, _, _, rfl⟩

theorem writeArray_content {β : Type} {toBytes : α → Nat → α × Bytes} {content : α → β}
    (h : ∀ x position, content (toBytes x position).1 = content x) (n : Nat) (xs : List α) (position : Nat) :
    (writeArray toBytes n xs position).1.map content = xs.map content := by
  induction xs generalizing n position with
  | nil =>
      cases n with
      | zero => rfl
      | succ n => rfl
  | cons x xs ih =>
      cases n with
      | zero => rfl
      | succ n => simp only [writeArray, List.map_cons, h, ih]

/-- What the packet says is not changed by writing it, the counts of the header apart. -/
theorem toBytes_content (p : DnsPacket) (position : Nat) :
    (p.toBytes position).1.questions.map (·.content) = p.questions.map (·.content) ∧
      (p.toBytes position).1.resources.map (·.content) = p.resources.map (·.content) ∧
      (p.toBytes position).1.aResources.map (·.content) = p.aResources.map (·.content) ∧
      (p.toBytes position).1.eResources.map (·.content) = p.eResources.map (·.content) :=
  ⟨writeArray_content (fun _ _ => rfl) _ _ _, writeArray_content (fun _ _ => rfl) _ _ _,
    writeArray_content (fun _ _ => rfl) _ _ _, writeArray_content (fun _ _ => rfl) _ _ _⟩

theorem length_headerToBytes (h : DnsHeader) : h.toBytes.length = 12 := by
  simp only [DnsHeader.toBytes, DnsHeader.putShort, List.length_append, length_toBE]

theorem At.outer (h : At m off n (.start m pos) b) : Outer m off b where
  arrayOffset := h.start_arrayOffset
  limit := h.limit
  bytes := h.reads.bytes

/-- A packet that is decoded from what was written for one that says the same has no records. -/
theorem no_records (hp : p.WellFormed) (hb : b.position = 0) (hm : b.message = (p.toBytes position).2)
    (h : DnsPacket.read b = .ok (some p') b') (hs : (p.toBytes position).1.Same p') :
    p.questions = [] ∧ p.resources = [] ∧ p.aResources = [] ∧ p.eResources = [] := by
  obtain ⟨hq, hr, ha, he⟩ := toBytes_content p position
  obtain ⟨b₁, b₂, b₃, b₄, b₅, hat, -, h₁, h₂, h₃, h₄⟩ := read_sections (at_start hb) h
  have hpos : b₁.position = 12 := by
    have hp := hat.place
    have := hat.start_arrayOffset
    omega
  obtain ⟨i₁, i₂, i₃, i₄, hbytes⟩ := toBytes_eq hp position
  rw [← hm] at hbytes
  have hall : BytesAt b.message 0 b.message := ⟨by rw [Nat.zero_add], slice_full rfl⟩
  have hlen := congrArg List.length hbytes
  nth_rewrite 2 [hbytes] at hall
  obtain ⟨hall, hm₄⟩ := bytesAt_append.1 hall
  obtain ⟨hall, hm₃⟩ := bytesAt_append.1 hall
  obtain ⟨hall, hm₂⟩ := bytesAt_append.1 hall
  obtain ⟨-, hm₁⟩ := bytesAt_append.1 hall
  simp only [List.length_append, length_headerToBytes, Nat.zero_add] at hm₁ hm₂ hm₃ hm₄ hlen
  obtain ⟨ho₂, hle₁, hlt₁⟩ :=
    array_behind Question.toBytes (fun q hq => question_behind (hp.questions q hq)) hm₁ hat.outer hpos.ge h₁
    (hs.questions.trans hq)
  obtain ⟨ho₃, hle₂, hlt₂⟩ :=
    array_behind Resource.toBytes (fun r hr => resource_behind (hp.resources r hr)) hm₂ ho₂ hle₁ h₂
    (hs.resources.trans hr)
  obtain ⟨ho₄, hle₃, hlt₃⟩ :=
    array_behind Resource.toBytes (fun r hr => resource_behind (hp.aResources r hr)) hm₃ ho₃ hle₂ h₃
    (hs.aResources.trans ha)
  obtain ⟨ho₅, hle₄, hlt₄⟩ :=
    array_behind Resource.toBytes (fun r hr => resource_behind (hp.eResources r hr)) hm₄ ho₄ hle₃ h₄
    (hs.eResources.trans he)
  -- no section ends behind what was written
  have hend : b₅.position ≤ b.message.length := ho₅.limit ▸ b₅.position_le
  have hstop₄ : ¬ (_ ∨ p.eResources ≠ []) := fun hne => by
    have := hlt₄ hne
    omega
  obtain ⟨hstop₃, he⟩ := not_or.1 hstop₄
  obtain ⟨hstop₂, ha⟩ := not_or.1 fun hne => hstop₃ (hlt₃ hne)
  obtain ⟨hstop₁, hr⟩ := not_or.1 fun hne => hstop₂ (hlt₂ hne)
  obtain ⟨-, hq⟩ := not_or.1 fun hne => hstop₁ (hlt₁ hne)
  exact ⟨not_not.1 hq, not_not.1 hr, not_not.1 ha, not_not.1 he⟩

/-- What is written for a packet without records, as a message. -/
def emptyMessage (h : DnsHeader) : Message where
  id := h.id
  flags := h.flags.toShort
  questions := []
  answers := []
  authorities := []
  additionals := []

/-- A packet without records is read as what it is, up to its flags. -/
theorem read_empty (hq : p.questions = []) (hr : p.resources = []) (ha : p.aResources = []) (he : p.eResources = [])
    (hb : b.position = 0) (hm : b.message = (p.toBytes position).2) :
    ∃ p' b', DnsPacket.read b = .ok (some p') b' ∧
      ((p.toBytes position).1.Same p' ↔ DnsFlags.parse p.header.flags.toShort = p.header.flags) := by
  have hbytes : b.message = (emptyMessage p.header).header := by
    rw [hm]
    simp only [DnsPacket.toBytes, hq, hr, ha, he]
    rfl
  have hlen : b.message.length = 12 := by
    rw [hbytes]
    simp only [Message.header, List.length_append, length_toBE]
  have henc : (emptyMessage p.header).Encodes b.message := by
    refine ⟨by omega, Nat.zero_le _, Nat.zero_le _, Nat.zero_le _, Nat.zero_le _, ?_, 12, 12, 12, .nil, .nil, .nil, ?_⟩
    · rw [← hbytes]
      exact ⟨by rw [Nat.zero_add], slice_full rfl⟩
    · rw [hlen]
      exact .nil
  have hnames : ∀ name ∈ (emptyMessage p.header).names, Fits b.arrayOffset b name := by
    simp [Message.names, emptyMessage]
  obtain ⟨p', b', hread, hp'⟩ := (read_message henc (at_start hb).reads rfl b.length_message.symm).1 hnames
  refine ⟨p', b', hread, fun hs => hp'.flags.symm.trans hs.flags, fun hf => ?_⟩
  have hnil : ∀ {α β γ : Type} {R : α → β → Prop} {ys : List β} {f : β → γ}, List.Forall₂ R [] ys → ys.map f = [] := by
    intro α β γ R ys f h
    cases h
    rfl
  have hcount : ∀ {α : Type} {xs : List α}, xs = [] → BitVec.ofNat 16 xs.length = BitVec.ofNat 16 0 := by
    rintro α _ rfl
    rfl
  obtain ⟨sq, sr, sa, se⟩ := toBytes_content p position
  refine ⟨hp'.id, hp'.flags.trans hf, ?_, ?_, ?_, ?_, ?_, ?_, ?_, ?_⟩
  · exact hp'.questionCount.trans (hcount hq).symm
  · exact hp'.resourceCount.trans (hcount hr).symm
  · exact hp'.aResourceCount.trans (hcount ha).symm
  · exact hp'.eResourceCount.trans (hcount he).symm
  · rw [sq, hq]
    exact hnil hp'.questions
  · rw [sr, hr]
    exact hnil hp'.resources
  · rw [sa, ha]
    exact hnil hp'.aResources
  · rw [se, he]
    exact hnil hp'.eResources

/-- A packet is decoded from its own bytes only if it has no records. -/
theorem encoded_decoded_iff (hp : p.WellFormed) (hb : b.position = 0) (hm : b.message = (p.toBytes position).2) :
    (∃ p', DnsPacket.fromBytes b = .ok (some p') ∧ (p.toBytes position).1.Same p') ↔
      p.questions = [] ∧ p.resources = [] ∧ p.aResources = [] ∧ p.eResources = [] ∧ p.header.flags.Fits := by
  have hread : ∀ p', DnsPacket.fromBytes b = .ok (some p') ↔ ∃ b', DnsPacket.read b = .ok (some p') b' := by
    intro p'
    unfold DnsPacket.fromBytes
    cases DnsPacket.read b with
    | ok packet b' => simp
    | error e b' => simp
  constructor
  · rintro ⟨p', h, hs⟩
    obtain ⟨b', h⟩ := (hread p').1 h
    obtain ⟨hq, hr, ha, he⟩ := no_records hp hb hm h hs
    obtain ⟨p'', b'', h', hiff⟩ := read_empty hq hr ha he hb hm
    rw [h] at h'
    cases h'
    exact ⟨hq, hr, ha, he, (parse_toShort_iff _).1 (hiff.1 hs)⟩
  · rintro ⟨hq, hr, ha, he, hf⟩
    obtain ⟨p', b', h, hiff⟩ := read_empty hq hr ha he hb hm
    exact ⟨p', (hread p').2 ⟨b', h⟩, hiff.2 ((parse_toShort_iff _).2 hf)⟩

/-! ## A question and no question -/

def askHeader : DnsHeader where
  id := 7
  flags := .parse 1
  questionCount := 0
  resourceCount := 0
  aResourceCount := 0
  eResourceCount := 0
  offset := 28

def askPacket (questions : List Question) : DnsPacket where
  header := askHeader
  questions := questions
  resources := []
  aResources := []
  eResources := []
  size := 0

def askQuestion : Question where
  domain := "a.b".toList
  type := 1
  cls := 1
  offset := 0
  length := 0

theorem askPacket_wellFormed {questions : List Question} (hle : questions.length ≤ 2)
    (h : ∀ q ∈ questions, WellNamed q.domain) : (askPacket questions).WellFormed :=
  ⟨hle, Nat.zero_le _, Nat.zero_le _, Nat.zero_le _, h, List.forall_mem_nil _, List.forall_mem_nil _,
    List.forall_mem_nil _⟩

/-- The packet as it was written, at the place of `DnsProxy.run`. -/
def askBuffer (questions : List Question) : Option ByteBuffer :=
  let bytes := ((askPacket questions).toBytes 0).2
  ByteBuffer.ofSlice (List.replicate 28 0 ++ bytes ++ List.replicate 1952 0) 28 bytes.length

theorem askBuffer_some (questions : List Question) :
    ∃ b, askBuffer questions = some b ∧ b.position = 0 ∧ b.message = ((askPacket questions).toBytes 0).2 := by
  have hle : 28 + ((askPacket questions).toBytes 0).2.length
      ≤ (List.replicate 28 0 ++ ((askPacket questions).toBytes 0).2 ++ List.replicate 1952 0).length := by
    simp only [List.length_append, List.length_replicate]
    omega
  have h := (bytesAt_mid (List.replicate 28 0) ((askPacket questions).toBytes 0).2 (List.replicate 1952 0)).2
  rw [List.length_replicate] at h
  exact ⟨_, dif_pos hle, rfl, h⟩

theorem encoded_decoded_iff_empty :
    ∃ b p', askBuffer [] = some b ∧ DnsPacket.fromBytes b = .ok (some p') ∧ ((askPacket []).toBytes 0).1.Same p' := by
  have hp : (askPacket []).WellFormed := askPacket_wellFormed (Nat.zero_le 2) (List.forall_mem_nil _)
  obtain ⟨b, hb, hpos, hm⟩ := askBuffer_some []
  obtain ⟨p', h, hs⟩ := (encoded_decoded_iff hp hpos hm).2 ⟨rfl, rfl, rfl, rfl, by decide, by decide, by decide⟩
  exact ⟨b, p', hb, h, hs⟩

/-- The byte that ends the name is taken from the type, and the class is cut off. -/
theorem question_not_decoded :
    (askPacket [askQuestion]).WellFormed ∧ ((askPacket [askQuestion]).toBytes 0).2.length = 20 ∧
      (askBuffer [askQuestion]).map DnsPacket.fromBytes = some (.error .bufferUnderflow) := by
  refine ⟨askPacket_wellFormed (by decide) fun q hq => ?_, by decide +kernel, by decide +kernel⟩
  obtain rfl := List.mem_singleton.1 hq
  exact ⟨[['a'], ['b']], by decide, by simp, by decide⟩

end TunProxy.Dns
