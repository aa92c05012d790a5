import TunProxy.Dns.Lemmas.Read

/-!
# Reading a packet, part by part
-/

namespace TunProxy.Dns

open Native (Bytes)
open Lib Lib.Bytes
open ByteBuffer

variable {b b' : ByteBuffer}

/-! ## The header -/

/-- The number in the two bytes `i` behind the position. -/
def shortAt (b : ByteBuffer) (i : Nat) : BitVec 16 :=
  BitVec.ofNat 16 (ofBE (slice (b.arrayOffset + (b.position + i)) 2 b.array))

def headerAt (b : ByteBuffer) : DnsHeader where
  id := shortAt b 0
  flags := .parse (shortAt b 2)
  questionCount := shortAt b 4
  resourceCount := shortAt b 6
  aResourceCount := shortAt b 8
  eResourceCount := shortAt b 10
  offset := b.arrayOffset + b.position

theorem header_iff {h : DnsHeader} : DnsHeader.fromBytes b = .ok h b' ↔
    ∃ hn : b.position + 12 ≤ b.limit, h = headerAt b ∧ b' = b.skip 12 hn := by
  constructor
  · intro hr
    obtain ⟨b₀, _, h₀, hr⟩ := bind_ok.1 hr
    obtain ⟨rfl, rfl⟩ := get_ok.1 h₀
    obtain ⟨b₁, _, h₁, hr⟩ := bind_ok.1 hr
    obtain ⟨rfl, rfl⟩ := get_ok.1 h₁
    obtain ⟨id, b₁, h₁, hr⟩ := bind_ok.1 hr
    obtain ⟨_, rfl, rfl⟩ := getShort_ok.1 h₁
    obtain ⟨flags, b₂, h₂, hr⟩ := bind_ok.1 hr
    obtain ⟨_, rfl, rfl⟩ := getShort_ok.1 h₂
    obtain ⟨qc, b₃, h₃, hr⟩ := bind_ok.1 hr
    obtain ⟨_, rfl, rfl⟩ := getShort_ok.1 h₃
    obtain ⟨rc, b₄, h₄, hr⟩ := bind_ok.1 hr
    obtain ⟨_, rfl, rfl⟩ := getShort_ok.1 h₄
    obtain ⟨ac, b₅, h₅, hr⟩ := bind_ok.1 hr
    obtain ⟨_, rfl, rfl⟩ := getShort_ok.1 h₅
    obtain ⟨ec, b₆, h₆, hr⟩ := bind_ok.1 hr
    obtain ⟨hn, rfl, rfl⟩ := getShort_ok.1 h₆
    obtain ⟨rfl, rfl⟩ := pure_ok.1 hr
    exact ⟨hn, rfl, rfl⟩
  · rintro ⟨hn, rfl, rfl⟩
    have hget : ∀ i (hi : b.position + (i + 2) ≤ b.limit) (hj : b.position + i ≤ b.limit),
        getShort (b.skip i hj) = .ok (shortAt b i) (b.skip (i + 2) hi) :=
      fun i hi _ => getShort_ok.2 ⟨hi, rfl, rfl⟩
    have hfirst : getShort b = .ok (shortAt b 0) (b.skip 2 (by omega)) := getShort_ok.2 ⟨by omega, rfl, rfl⟩
    unfold DnsHeader.fromBytes
    rw [bind_of_ok (get_ok.2 ⟨rfl, rfl⟩), bind_of_ok (get_ok.2 ⟨rfl, rfl⟩), bind_of_ok hfirst,
      bind_of_ok (hget 2 (by omega) (by omega)), bind_of_ok (hget 4 (by omega) (by omega)),
      bind_of_ok (hget 6 (by omega) (by omega)), bind_of_ok (hget 8 (by omega) (by omega)),
      bind_of_ok (hget 10 (by omega) (by omega))]
    rfl

/-! ## The packet -/

theorem arrayLength_ok {count : BitVec 16} {n : Nat} :
    DnsPacket.arrayLength count b = .ok n b' ↔ 0 ≤ count.toInt ∧ n = count.toNat ∧ b' = b := by
  unfold DnsPacket.arrayLength
  split
  · constructor
    · intro h
      exact absurd h throw_ok
    · rintro ⟨h, -⟩
      omega
  · rw [pure_ok]
    constructor
    · rintro ⟨rfl, rfl⟩
      exact ⟨by omega, rfl, rfl⟩
    · rintro ⟨-, rfl, rfl⟩
      exact ⟨rfl, rfl⟩

/-- The counts that the decoder takes. -/
structure DnsHeader.Accepted (h : DnsHeader) : Prop where
  questions : 0 ≤ h.questionCount.toInt ∧ h.questionCount.toInt ≤ 2
  resources : 0 ≤ h.resourceCount.toInt ∧ h.resourceCount.toInt ≤ 50
  aResources : 0 ≤ h.aResourceCount.toInt ∧ h.aResourceCount.toInt ≤ 50
  eResources : 0 ≤ h.eResourceCount.toInt ∧ h.eResourceCount.toInt ≤ 50

theorem readSections_iff {h : DnsHeader} {size : Nat} {p : DnsPacket} :
    DnsPacket.readSections h size b = .ok (some p) b' ↔
      (0 ≤ h.questionCount.toInt ∧ 0 ≤ h.resourceCount.toInt ∧ 0 ≤ h.aResourceCount.toInt ∧
        0 ≤ h.eResourceCount.toInt) ∧
      p.header = h ∧ p.size = size ∧ ∃ b₁ b₂ b₃,
        readArray Question.fromBytes h.questionCount.toNat b = .ok p.questions b₁ ∧
        readArray Resource.fromBytes h.resourceCount.toNat b₁ = .ok p.resources b₂ ∧
        readArray Resource.fromBytes h.aResourceCount.toNat b₂ = .ok p.aResources b₃ ∧
        readArray Resource.fromBytes h.eResourceCount.toNat b₃ = .ok p.eResources b' := by
  constructor
  · intro hr
    obtain ⟨nq, c₁, h₁, hr₁⟩ := bind_ok.1 hr
    obtain ⟨nr, c₂, h₂, hr₂⟩ := bind_ok.1 hr₁
    obtain ⟨na, c₃, h₃, hr₃⟩ := bind_ok.1 hr₂
    obtain ⟨ne, c₄, h₄, hr₄⟩ := bind_ok.1 hr₃
    obtain ⟨hq, rfl, rfl⟩ := arrayLength_ok.1 h₁
    obtain ⟨hrc, rfl, rfl⟩ := arrayLength_ok.1 h₂
    obtain ⟨ha, rfl, rfl⟩ := arrayLength_ok.1 h₃
    obtain ⟨he, rfl, rfl⟩ := arrayLength_ok.1 h₄
    obtain ⟨questions, b₁, h₅, hr₅⟩ := bind_ok.1 hr₄
    obtain ⟨resources, b₂, h₆, hr₆⟩ := bind_ok.1 hr₅
    obtain ⟨aResources, b₃, h₇, hr₇⟩ := bind_ok.1 hr₆
    obtain ⟨eResources, b₄, h₈, hr₈⟩ := bind_ok.1 hr₇
    obtain ⟨hp, rfl⟩ := pure_ok.1 hr₈
    cases hp
    exact ⟨⟨hq, hrc, ha, he⟩, rfl, rfl, b₁, b₂, b₃, h₅, h₆, h₇, h₈⟩
  · rintro ⟨⟨hq, hrc, ha, he⟩, rfl, rfl, b₁, b₂, b₃, h₅, h₆, h₇, h₈⟩
    rw [DnsPacket.readSections, bind_of_ok (arrayLength_ok.2 ⟨hq, rfl, rfl⟩),
      bind_of_ok (arrayLength_ok.2 ⟨hrc, rfl, rfl⟩),
      bind_of_ok (arrayLength_ok.2 ⟨ha, rfl, rfl⟩), bind_of_ok (arrayLength_ok.2 ⟨he, rfl, rfl⟩), bind_of_ok h₅,
      bind_of_ok h₆, bind_of_ok h₇, bind_of_ok h₈]
    rfl

/-- What the decoder accepts, and what it makes of it. -/
theorem read_iff {p : DnsPacket} : DnsPacket.read b = .ok (some p) b' ↔
    (12 ≤ b.limit ∧ b.limit ≤ 512 ∧ b.position + 12 ≤ b.limit) ∧ p.header = headerAt b ∧ p.size = b.limit ∧
      p.header.Accepted ∧ ∃ (hn : b.position + 12 ≤ b.limit) (b₁ b₂ b₃ : ByteBuffer),
        readArray Question.fromBytes p.header.questionCount.toNat (b.skip 12 hn) = .ok p.questions b₁ ∧
        readArray Resource.fromBytes p.header.resourceCount.toNat b₁ = .ok p.resources b₂ ∧
        readArray Resource.fromBytes p.header.aResourceCount.toNat b₂ = .ok p.aResources b₃ ∧
        readArray Resource.fromBytes p.header.eResourceCount.toNat b₃ = .ok p.eResources b' := by
  constructor
  · intro hr
    obtain ⟨b₀, _, h₀, hr⟩ := bind_ok.1 hr
    obtain ⟨rfl, rfl⟩ := get_ok.1 h₀
    split at hr
    · obtain ⟨hr, -⟩ := pure_ok.1 hr
      cases hr
    split at hr
    · obtain ⟨hr, -⟩ := pure_ok.1 hr
      cases hr
    rename_i hge hle
    obtain ⟨header, b₁, hh, hr⟩ := bind_ok.1 hr
    obtain ⟨hn, rfl, rfl⟩ := header_iff.1 hh
    split at hr
    · obtain ⟨hr, -⟩ := pure_ok.1 hr
      cases hr
    rename_i hmax
    obtain ⟨⟨hq, hrc, ha, he⟩, hheader, hsize, b₁, b₂, b₃, hs⟩ := readSections_iff.1 hr
    rw [hheader]
    exact ⟨⟨by omega, by omega, hn⟩, rfl, hsize, ⟨by omega, by omega, by omega, by omega⟩, hn, b₁, b₂, b₃, hs⟩
  · rintro ⟨⟨hge, hle, hn⟩, hheader, hsize, hacc, hn', b₁, b₂, b₃, h₁, h₂, h₃, h₄⟩
    obtain ⟨hq, hrc, ha, he⟩ := hacc
    rw [hheader] at h₁ h₂ h₃ h₄ hq hrc ha he
    unfold DnsPacket.read
    rw [bind_of_ok (get_ok.2 ⟨rfl, rfl⟩), if_neg (by omega), if_neg (by omega),
      bind_of_ok (header_iff.2 ⟨hn, rfl, rfl⟩),
      if_neg (by omega)]
    exact readSections_iff.2 ⟨⟨hq.1, hrc.1, ha.1, he.1⟩, hheader, hsize, b₁, b₂, b₃, h₁, h₂, h₃, h₄⟩

/-! ## The records -/

/-- The number in the four bytes `i` behind the position. -/
def intAt (b : ByteBuffer) (i : Nat) : BitVec 32 :=
  BitVec.ofNat 32 (ofBE (slice (b.arrayOffset + (b.position + i)) 4 b.array))

theorem question_iff {q : Question} : Question.fromBytes b = .ok q b' ↔
    ∃ (n : ByteBuffer) (hn : n.position + 4 ≤ n.limit), readName b = .ok q.domain n ∧ b' = n.skip 4 hn ∧
      q = { domain := q.domain, type := shortAt n 0, cls := shortAt n 2, offset := b.arrayOffset + b.position
            length := n.arrayOffset + (n.position + 4) - (b.arrayOffset + b.position) } := by
  constructor
  · intro hr
    obtain ⟨_, _, h₁, hr₁⟩ := bind_ok.1 hr
    obtain ⟨rfl, rfl⟩ := get_ok.1 h₁
    obtain ⟨_, _, h₂, hr₂⟩ := bind_ok.1 hr₁
    obtain ⟨rfl, rfl⟩ := get_ok.1 h₂
    obtain ⟨domain, n, h₃, hr₃⟩ := bind_ok.1 hr₂
    obtain ⟨type, n₁, h₄, hr₄⟩ := bind_ok.1 hr₃
    obtain ⟨cls, n₂, h₅, hr₅⟩ := bind_ok.1 hr₄
    obtain ⟨_, rfl, rfl⟩ := getShort_ok.1 h₄
    obtain ⟨hn, rfl, rfl⟩ := getShort_ok.1 h₅
    obtain ⟨rfl, rfl⟩ := pure_ok.1 hr₅
    exact ⟨n, hn, h₃, rfl, rfl⟩
  · rintro ⟨n, hn, h, rfl, hq⟩
    have h₁ : getShort n = .ok (shortAt n 0) (n.skip 2 (by omega)) := getShort_ok.2 ⟨by omega, rfl, rfl⟩
    have h₂ : getShort (n.skip 2 (by omega)) = .ok (shortAt n 2) (n.skip 4 hn) := getShort_ok.2 ⟨hn, rfl, rfl⟩
    unfold Question.fromBytes
    rw [bind_of_ok (get_ok.2 ⟨rfl, rfl⟩), bind_of_ok (get_ok.2 ⟨rfl, rfl⟩), bind_of_ok h, bind_of_ok h₁,
      bind_of_ok h₂, hq]
    rfl

theorem resource_iff {r : Resource} : Resource.fromBytes b = .ok r b' ↔
    ∃ (n : ByteBuffer) (h₁₀ : n.position + 10 ≤ n.limit) (hn : n.position + 10 + (shortAt n 8).toNat ≤ n.limit),
      readName b = .ok r.domain n ∧ b' = (n.skip 10 h₁₀).skip (shortAt n 8).toNat hn ∧
      r = { domain := r.domain, type := shortAt n 0, cls := shortAt n 2, ttl := intAt n 4, dataLength := shortAt n 8
            data := slice (n.arrayOffset + (n.position + 10)) (shortAt n 8).toNat n.array
            offset := b.arrayOffset + b.position
            length := n.arrayOffset + (n.position + 10 + (shortAt n 8).toNat) - (b.arrayOffset + b.position) } := by
  constructor
  · intro hr
    obtain ⟨_, _, h₁, hr₁⟩ := bind_ok.1 hr
    obtain ⟨rfl, rfl⟩ := get_ok.1 h₁
    obtain ⟨_, _, h₂, hr₂⟩ := bind_ok.1 hr₁
    obtain ⟨rfl, rfl⟩ := get_ok.1 h₂
    obtain ⟨domain, n, h₃, hr₃⟩ := bind_ok.1 hr₂
    obtain ⟨type, n₁, h₄, hr₄⟩ := bind_ok.1 hr₃
    obtain ⟨cls, n₂, h₅, hr₅⟩ := bind_ok.1 hr₄
    obtain ⟨ttl, n₃, h₆, hr₆⟩ := bind_ok.1 hr₅
    obtain ⟨dataLength, n₄, h₇, hr₇⟩ := bind_ok.1 hr₆
    obtain ⟨data, n₅, h₈, hr₈⟩ := bind_ok.1 hr₇
    obtain ⟨_, rfl, rfl⟩ := getShort_ok.1 h₄
    obtain ⟨_, rfl, rfl⟩ := getShort_ok.1 h₅
    obtain ⟨_, rfl, rfl⟩ := getInt_ok.1 h₆
    obtain ⟨h₁₀, rfl, rfl⟩ := getShort_ok.1 h₇
    obtain ⟨hn, rfl, rfl⟩ := getBytes_ok.1 h₈
    obtain ⟨rfl, rfl⟩ := pure_ok.1 hr₈
    exact ⟨n, h₁₀, hn, h₃, rfl, rfl⟩
  · rintro ⟨n, h₁₀, hn, h, rfl, hr⟩
    have h₁ : getShort n = .ok (shortAt n 0) (n.skip 2 (by omega)) := getShort_ok.2 ⟨by omega, rfl, rfl⟩
    have h₂ : getShort (n.skip 2 (by omega)) = .ok (shortAt n 2) (n.skip 4 (by omega)) :=
      getShort_ok.2 ⟨by simp only [ByteBuffer.skip]; omega, rfl, rfl⟩
    have h₃ : getInt (n.skip 4 (by omega)) = .ok (intAt n 4) (n.skip 8 (by omega)) :=
      getInt_ok.2 ⟨by simp only [ByteBuffer.skip]; omega, rfl, rfl⟩
    have h₄ : getShort (n.skip 8 (by omega)) = .ok (shortAt n 8) (n.skip 10 h₁₀) :=
      getShort_ok.2 ⟨by simp only [ByteBuffer.skip]; omega, rfl, rfl⟩
    have h₅ : getBytes (shortAt n 8).toNat (n.skip 10 h₁₀) =
        .ok (slice (n.arrayOffset + (n.position + 10)) (shortAt n 8).toNat n.array)
          ((n.skip 10 h₁₀).skip (shortAt n 8).toNat hn) := getBytes_ok.2 ⟨hn, rfl, rfl⟩
    unfold Resource.fromBytes
    rw [bind_of_ok (get_ok.2 ⟨rfl, rfl⟩), bind_of_ok (get_ok.2 ⟨rfl, rfl⟩), bind_of_ok h, bind_of_ok h₁, bind_of_ok h₂,
      bind_of_ok h₃, bind_of_ok h₄, bind_of_ok h₅, hr]
    rfl

theorem resource_of_name {s : List Char} {n : ByteBuffer} (h : readName b = .ok s n) (h₁₀ : n.position + 10 ≤ n.limit)
    (hn : n.position + 10 + (shortAt n 8).toNat ≤ n.limit) :
    Resource.fromBytes b = .ok
      { domain := s, type := shortAt n 0, cls := shortAt n 2, ttl := intAt n 4, dataLength := shortAt n 8
        data := slice (n.arrayOffset + (n.position + 10)) (shortAt n 8).toNat n.array
        offset := b.arrayOffset + b.position
        length := n.arrayOffset + (n.position + 10 + (shortAt n 8).toNat) - (b.arrayOffset + b.position) }
      ((n.skip 10 h₁₀).skip (shortAt n 8).toNat hn) := resource_iff.2 ⟨n, h₁₀, hn, h, rfl, rfl⟩

theorem question_length {q : Question} (h : Question.fromBytes b = .ok q b') : q.length ≤ b.limit := by
  obtain ⟨n, hn, hname, -, hq⟩ := question_iff.1 h
  have ho := forward_readName _ _ _ hname
  have hlen := congrArg Question.length hq
  have hoff := ho.arrayOffset
  have hlimit := ho.limit
  dsimp only at hlen
  omega

/-! ## A packet at the beginning of its buffer -/

namespace DnsPacket

structure HeaderOf (b : ByteBuffer) (p : DnsPacket) : Prop where
  size : p.size = b.limit
  size_ge : 12 ≤ b.limit
  size_le : b.limit ≤ 512
  offset : p.header.offset = b.arrayOffset
  id : p.header.id = BitVec.ofNat 16 (ofBE (slice b.arrayOffset 2 b.array))
  questions : ∀ q ∈ p.questions, q.length ≤ b.limit

theorem read_ok {p : DnsPacket} (hb : b.position = 0) (h : read b = .ok (some p) b') : HeaderOf b p := by
  obtain ⟨⟨hge, hle, -⟩, hheader, hsize, -, hn, b₁, b₂, b₃, h₁, -⟩ := read_iff.1 h
  refine ⟨hsize, hge, hle, ?_, ?_, ?_⟩
  · rw [hheader]
    show b.arrayOffset + b.position = b.arrayOffset
    omega
  · rw [hheader, headerAt, shortAt, hb]
    rfl
  · refine readArray_forall forward_question (fun c q c' hc hq => ?_) h₁
    have hlimit : c.limit = b.limit := hc.limit
    rw [← hlimit]
    exact question_length hq

theorem fromBytes_some {p : DnsPacket} (h : fromBytes b = .ok (some p)) : ∃ b', read b = .ok (some p) b' := by
  unfold fromBytes at h
  split at h
  · rename_i packet b' hr
    cases h
    exact ⟨b', hr⟩
  · cases h

theorem fromBytes_ok {p : DnsPacket} (hb : b.position = 0) (h : fromBytes b = .ok (some p)) : HeaderOf b p := by
  obtain ⟨b', hr⟩ := fromBytes_some h
  exact read_ok hb hr

end DnsPacket

end TunProxy.Dns
