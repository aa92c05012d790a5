import TunProxy.Dns.Lemmas.Packet
import TunProxy.Dns.Lemmas.Walk

/-!
# Two runs of the decoder

What does not stray has the same outcome in two buffers that have the message in common.
-/

namespace TunProxy.Dns

open Native (Bytes)
open Lib Lib.Bytes
open ByteBuffer Name

variable {α β : Type} {m : Bytes} {off cap pos n len depth : Nat} {b b' : ByteBuffer} {c : Cursor} {sb : List Char}

/-! ## Two runs -/

/-- The runs in two buffers at the same cursor have the same outcome, and `P` holds of a result and of where they are
then. -/
def Agree (m : Bytes) (off cap : Nat) (c : Cursor) (P : α → Nat → Prop) (x x' : Read α) (b b' : ByteBuffer) : Prop :=
  (∃ a pos b₁ b₁', x b = .ok a b₁ ∧ x' b' = .ok a b₁' ∧ At m off cap { c with pos := pos } b₁ ∧
    At m off cap { c with pos := pos } b₁' ∧ P a pos) ∨
  ∃ e b₁ b₁', x b = .error e b₁ ∧ x' b' = .error e b₁'

section

variable {P : α → Nat → Prop} {Q : β → Nat → Prop} {x x' : Read α} {f f' : α → Read β}

theorem Agree.ok {a : α} (h : At m off cap { c with pos := pos } b) (h' : At m off cap { c with pos := pos } b')
    (hP : P a pos) : Agree m off cap c P (pure a) (pure a) b b' :=
  .inl ⟨a, pos, b, b', rfl, rfl, h, h', hP⟩

theorem Agree.error (e : Thrown) : Agree m off cap c P (throw e) (throw e) b b' := .inr ⟨e, b, b', rfl, rfl⟩

theorem Agree.bind (h : Agree m off cap c P x x' b b')
    (hf : ∀ a pos b₁ b₁', P a pos → At m off cap { c with pos := pos } b₁ → At m off cap { c with pos := pos } b₁' →
      Agree m off cap c Q (f a) (f' a) b₁ b₁') : Agree m off cap c Q (x >>= f) (x' >>= f') b b' := by
  rcases h with ⟨a, pos, b₁, b₁', h, h', ha, ha', hP⟩ | ⟨e, b₁, b₁', h, h'⟩
  · have := hf a pos b₁ b₁' hP ha ha'
    unfold Agree at this ⊢
    rw [bind_of_ok h, bind_of_ok h']
    exact this
  · exact .inr ⟨e, b₁, b₁', bind_of_error h, bind_of_error h'⟩

theorem Agree.get {f f' : ByteBuffer → Read β} (h : Agree m off cap c Q (f b) (f' b') b b') :
    Agree m off cap c Q (get >>= f) (get >>= f') b b' := h

theorem Agree.ite {p : Prop} [Decidable p] {y y' : Read α} (h : p → Agree m off cap c P x x' b b')
    (h' : ¬ p → Agree m off cap c P y y' b b') :
    Agree m off cap c P (if p then x else y) (if p then x' else y') b b' := by
  by_cases hp : p
  · rw [if_pos hp, if_pos hp]
    exact h hp
  · rw [if_neg hp, if_neg hp]
    exact h' hp

theorem Agree.mono {R : α → Nat → Prop} (h : Agree m off cap c P x x' b b') (hPR : ∀ a pos, P a pos → R a pos) :
    Agree m off cap c R x x' b b' := by
  rcases h with ⟨a, pos, b₁, b₁', h, h', ha, ha', hP⟩ | h
  · exact .inl ⟨a, pos, b₁, b₁', h, h', ha, ha', hPR a pos hP⟩
  · exact .inr h

end

/-- A name that does not stray is the same in both buffers. -/
theorem loop_agree (hfollow : ∀ c new new', ¬ Strays m off cap c → At m off cap c new → At m off cap c new' →
      Agree m off cap c (fun _ pos => Ends m off cap c pos) (readDomain off depth) (readDomain off depth) new new')
    (hns : ¬ Strays m off cap c) (hn : c.stop - c.pos ≤ n) (hb : At m off cap c b) (hb' : At m off cap c b')
    (len : Nat) (sb : List Char) :
    Agree m off cap c (fun _ pos => Ends m off cap c pos) (nameLoop off depth c.limit n len sb)
      (nameLoop off depth c.limit n len sb) b b' := by
  induction n using Nat.strong_induction_on generalizing c len sb b b' with
  | _ n ih =>
    cases hr : round m off cap c with
    | ends pos =>
        obtain ⟨s, hs⟩ := loop_ends hr hn len sb
        obtain ⟨b₁, h₁, ho, ha⟩ := hs depth b hb
        obtain ⟨b₁', h₁', ho', ha'⟩ := hs depth b' hb'
        exact .inl ⟨s, pos, b₁, b₁', h₁, h₁', hb.onward ho ha, hb'.onward ho' ha', .ends hr⟩
    | label next =>
        obtain ⟨k, l, bytes, rfl, hk, hs⟩ := loop_label hr hn sb
        obtain ⟨b₁, h₁, ho, ha⟩ := hs depth len b hb
        obtain ⟨b₁', h₁', ho', ha'⟩ := hs depth len b' hb'
        have hrest := ih k (Nat.lt_succ_self k) (fun h => hns (.label hr h)) hk ha ha' l
          (sb ++ chars bytes ++ ['.'])
        unfold Agree
        rw [h₁, h₁']
        exact hrest.mono fun _ _ => .label hr
    | pointer c' =>
        obtain ⟨b₁, new, ho, ha, hnew, -, h₁⟩ := loop_pointer hr hn hb
        obtain ⟨b₁', new', ho', ha', hnew', -, h₁'⟩ := loop_pointer hr hn hb'
        unfold Agree
        rw [h₁, h₁']
        rcases hfollow c' new new' (fun h => hns (.pointer hr h)) hnew hnew' with
          ⟨s, pos, _, _, h₂, h₂', -, -, he⟩ | ⟨e, _, _, h₂, h₂'⟩
        · rw [h₂, h₂']
          exact .inl ⟨sb ++ s, c.pos + 2, b₁, b₁', rfl, rfl, ha, ha', .pointer hr he⟩
        · rw [h₂, h₂']
          exact .inr ⟨e, b₁, b₁', rfl, rfl⟩
    | throws =>
        obtain ⟨e, he⟩ := loop_throws hr hn
        obtain ⟨b₁, h₁⟩ := he depth len sb b hb
        obtain ⟨b₁', h₁'⟩ := he depth len sb b' hb'
        exact .inr ⟨e, b₁, b₁', h₁, h₁'⟩
    | strays => exact absurd (.strays hr) hns

theorem readDomain_agree (hns : ¬ Strays m off cap c) (hb : At m off cap c b) (hb' : At m off cap c b') :
    Agree m off cap c (fun _ pos => Ends m off cap c pos) (readDomain off depth) (readDomain off depth) b b' := by
  induction depth generalizing c b b' with
  | zero => exact .error _
  | succ depth ih =>
      have hloop := loop_agree (fun c new new' hns h h' => ih hns h h') hns (Nat.le_refl _) hb hb' 0 []
      unfold Agree
      rw [readDomain_succ, readDomain_succ, hb.limit, hb'.limit, hb.remaining, hb'.remaining]
      exact hloop

/-! ## Records -/

/-- In the buffer of the packet. -/
theorem At.start_arrayOffset (h : At m off cap (.start m pos) b) : b.arrayOffset = off := by
  have hs := h.stop
  have hl := h.limit
  simp only [Cursor.start] at hs hl
  omega

theorem At.place (h : At m off cap (.start m pos) b) : b.arrayOffset + b.position = off + pos := h.reads.position

theorem readName_agree (hns : ¬ Strays m off cap (.start m pos)) (hb : At m off cap (.start m pos) b)
    (hb' : At m off cap (.start m pos) b') :
    Agree m off cap (.start m pos) (fun _ k => Ends m off cap (.start m pos) k) readName readName b b' := by
  refine .get ?_
  rw [maxDepth, maxDepth, hb.array, hb'.array, hb.start_arrayOffset, hb'.start_arrayOffset]
  exact readDomain_agree hns hb hb'

theorem getBytes_agree (hb : At m off cap (.start m pos) b) (hb' : At m off cap (.start m pos) b') :
    Agree m off cap (.start m pos) (fun bytes k => pos + n ≤ m.length ∧ bytes = slice pos n m ∧ k = pos + n)
      (getBytes n) (getBytes n) b b' := by
  by_cases hn : pos + n ≤ m.length
  · obtain ⟨b₁, h₁, ho, hr⟩ := decodes_getBytes hb.reads hn
    obtain ⟨b₁', h₁', ho', hr'⟩ := decodes_getBytes hb'.reads hn
    exact .inl ⟨_, _, b₁, b₁', h₁, h₁', hb.onward ho hr, hb'.onward ho' hr', hn, rfl, rfl⟩
  · have hend : ∀ b, At m off cap (.start m pos) b → getBytes n b = .error .bufferUnderflow b := by
      intro b hb
      have hs := hb.stop
      have hp := hb.place
      simp only [Cursor.start] at hs
      rw [getBytes, dif_neg (by omega)]
    exact .inr ⟨_, b, b', hend b hb, hend b' hb'⟩

theorem getShort_agree (hb : At m off cap (.start m pos) b) (hb' : At m off cap (.start m pos) b') :
    Agree m off cap (.start m pos) (fun v k => pos + 2 ≤ m.length ∧ v.toNat = ofBE (slice pos 2 m) ∧ k = pos + 2)
      getShort getShort b b' := by
  refine (getBytes_agree (n := 2) hb hb').bind ?_
  rintro _ _ b₁ b₁' ⟨hn, rfl, rfl⟩ h h'
  refine .ok h h' ⟨hn, ?_, rfl⟩
  have hlt := ofBE_lt (slice pos 2 m)
  rw [length_slice hn] at hlt
  rw [BitVec.toNat_ofNat]
  exact Nat.mod_eq_of_lt hlt

theorem getInt_agree (hb : At m off cap (.start m pos) b) (hb' : At m off cap (.start m pos) b') :
    Agree m off cap (.start m pos) (fun _ k => pos + 4 ≤ m.length ∧ k = pos + 4) getInt getInt b b' := by
  refine (getBytes_agree (n := 4) hb hb').bind ?_
  rintro _ _ b₁ b₁' ⟨hn, rfl, rfl⟩ h h'
  exact .ok h h' ⟨hn, rfl⟩

theorem question_agree (hns : ¬ Strays m off cap (.start m pos)) (hb : At m off cap (.start m pos) b)
    (hb' : At m off cap (.start m pos) b') :
    Agree m off cap (.start m pos) (fun _ stop => ∃ k, Ends m off cap (.start m pos) k ∧ questionEnd m k = some stop)
      Question.fromBytes Question.fromBytes b b' := by
  refine .get (.get ?_)
  rw [hb.place, hb'.place]
  refine (readName_agree hns hb hb').bind ?_
  intro domain k b₁ b₁' hk h₁ h₁'
  refine (getShort_agree h₁ h₁').bind ?_
  rintro type _ b₂ b₂' ⟨-, -, rfl⟩ h₂ h₂'
  refine (getShort_agree h₂ h₂').bind ?_
  rintro cls _ b₃ b₃' ⟨hn, -, rfl⟩ h₃ h₃'
  refine .get (.get ?_)
  rw [h₃.place, h₃'.place]
  exact .ok h₃ h₃' ⟨k, hk, if_pos hn⟩

theorem resource_agree (hns : ¬ Strays m off cap (.start m pos)) (hb : At m off cap (.start m pos) b)
    (hb' : At m off cap (.start m pos) b') :
    Agree m off cap (.start m pos) (fun _ stop => ∃ k, Ends m off cap (.start m pos) k ∧ resourceEnd m k = some stop)
      Resource.fromBytes Resource.fromBytes b b' := by
  refine .get (.get ?_)
  rw [hb.place, hb'.place]
  refine (readName_agree hns hb hb').bind ?_
  intro domain k b₁ b₁' hk h₁ h₁'
  refine (getShort_agree h₁ h₁').bind ?_
  rintro type _ b₂ b₂' ⟨-, -, rfl⟩ h₂ h₂'
  refine (getShort_agree h₂ h₂').bind ?_
  rintro cls _ b₃ b₃' ⟨-, -, rfl⟩ h₃ h₃'
  refine (getInt_agree h₃ h₃').bind ?_
  rintro ttl _ b₄ b₄' ⟨-, rfl⟩ h₄ h₄'
  refine (getShort_agree h₄ h₄').bind ?_
  rintro dataLength _ b₅ b₅' ⟨-, hd, rfl⟩ h₅ h₅'
  refine (getBytes_agree h₅ h₅').bind ?_
  rintro data _ b₆ b₆' ⟨hn, -, rfl⟩ h₆ h₆'
  refine .get (.get ?_)
  rw [h₆.place, h₆'.place]
  refine .ok h₆ h₆' ⟨k, hk, ?_⟩
  rw [hd] at hn ⊢
  exact if_pos hn

/-- What is read, record by record. `f` is where a record ends. -/
theorem readArray_agree {read : Read α} {f : Nat → Option Nat} {fs : List (Nat → Option Nat)}
    (hread : ∀ {pos b b'}, ¬ Strays m off cap (.start m pos) → At m off cap (.start m pos) b →
      At m off cap (.start m pos) b' → Agree m off cap (.start m pos)
        (fun _ stop => ∃ k, Ends m off cap (.start m pos) k ∧ f k = some stop) read read b b')
    (hns : ¬ RecordsStray m off cap (List.replicate n f ++ fs) pos) (hb : At m off cap (.start m pos) b)
    (hb' : At m off cap (.start m pos) b') :
    Agree m off cap (.start m pos) (fun _ stop => ¬ RecordsStray m off cap fs stop) (readArray read n)
      (readArray read n) b b' := by
  induction n generalizing pos b b' with
  | zero => exact .ok hb hb' hns
  | succ n ih =>
      refine (hread (fun h => hns (.here h)) hb hb').bind ?_
      rintro x stop b₁ b₁' ⟨k, hk, hf⟩ h₁ h₁'
      refine (ih (fun h => hns (.later hk hf h)) h₁ h₁').bind ?_
      intro xs stop b₂ b₂' hns h₂ h₂'
      exact .ok h₂ h₂' hns

/-! ## The packet -/

theorem header_agree (hb : At m off cap (.start m 0) b) (hb' : At m off cap (.start m 0) b') :
    Agree m off cap (.start m 0) (fun h k => h.questionCount.toNat = count m 4 ∧ h.resourceCount.toNat = count m 6 ∧
        h.aResourceCount.toNat = count m 8 ∧ h.eResourceCount.toNat = count m 10 ∧ k = 12)
      DnsHeader.fromBytes DnsHeader.fromBytes b b' := by
  refine .get (.get ?_)
  rw [hb.place, hb'.place]
  refine (getShort_agree hb hb').bind ?_
  rintro id _ b₁ b₁' ⟨-, -, rfl⟩ h₁ h₁'
  refine (getShort_agree h₁ h₁').bind ?_
  rintro flags _ b₂ b₂' ⟨-, -, rfl⟩ h₂ h₂'
  refine (getShort_agree h₂ h₂').bind ?_
  rintro qc _ b₃ b₃' ⟨-, hq, rfl⟩ h₃ h₃'
  refine (getShort_agree h₃ h₃').bind ?_
  rintro rc _ b₄ b₄' ⟨-, hr, rfl⟩ h₄ h₄'
  refine (getShort_agree h₄ h₄').bind ?_
  rintro ac _ b₅ b₅' ⟨-, ha, rfl⟩ h₅ h₅'
  refine (getShort_agree h₅ h₅').bind ?_
  rintro ec _ b₆ b₆' ⟨-, he, rfl⟩ h₆ h₆'
  exact .ok h₆ h₆' ⟨hq, hr, ha, he, rfl⟩

theorem arrayLength_agree {v : BitVec 16} (hb : At m off cap (.start m pos) b) (hb' : At m off cap (.start m pos) b') :
    Agree m off cap (.start m pos) (fun n k => 0 ≤ v.toInt ∧ n = v.toNat ∧ k = pos) (DnsPacket.arrayLength v)
      (DnsPacket.arrayLength v) b b' := by
  exact .ite (fun _ => .error _) fun h => .ok hb hb' ⟨Int.not_lt.1 h, rfl, rfl⟩

/-- The counts that the decoder takes. -/
theorem toNat_le_of_toInt {v : BitVec 16} {k : Nat} (h₀ : 0 ≤ v.toInt) (h : ¬ v.toInt > k) : v.toNat ≤ k := by
  rw [BitVec.toInt_eq_toNat_cond] at h₀ h
  split at h <;> omega

theorem read_agree (hns : ¬ MessageStrays m off cap) (hb : At m off cap (.start m 0) b)
    (hb' : At m off cap (.start m 0) b') :
    Agree m off cap (.start m 0) (fun _ _ => True) DnsPacket.read DnsPacket.read b b' := by
  refine .get ?_
  rw [hb.limit, hb'.limit]
  refine .ite (fun _ => .ok hb hb' trivial) fun hge => .ite (fun _ => .ok hb hb' trivial) fun hle => ?_
  refine (header_agree hb hb').bind ?_
  rintro h _ b₁ b₁' ⟨hq, hr, ha, he, rfl⟩ h₁ h₁'
  refine .ite (fun _ => .ok h₁ h₁' trivial) fun hcounts => ?_
  simp only [Cursor.start] at hge hle
  simp only [not_or] at hcounts
  obtain ⟨hcq, hcr, hca, hce⟩ := hcounts
  refine (arrayLength_agree h₁ h₁').bind ?_
  rintro _ _ b₂ b₂' ⟨hq₀, rfl, rfl⟩ h₂ h₂'
  refine (arrayLength_agree h₂ h₂').bind ?_
  rintro _ _ b₃ b₃' ⟨hr₀, rfl, rfl⟩ h₃ h₃'
  refine (arrayLength_agree h₃ h₃').bind ?_
  rintro _ _ b₄ b₄' ⟨ha₀, rfl, rfl⟩ h₄ h₄'
  refine (arrayLength_agree h₄ h₄').bind ?_
  rintro _ _ b₅ b₅' ⟨he₀, rfl, rfl⟩ h₅ h₅'
  have hcounted : Counted m := by
    refine ⟨Nat.not_lt.1 hge, Nat.not_lt.1 hle, ?_, ?_, ?_, ?_⟩
    · rw [← hq]; exact toNat_le_of_toInt hq₀ hcq
    · rw [← hr]; exact toNat_le_of_toInt hr₀ hcr
    · rw [← ha]; exact toNat_le_of_toInt ha₀ hca
    · rw [← he]; exact toNat_le_of_toInt he₀ hce
  have hrecords := fun h => hns ⟨hcounted, h⟩
  rw [hq, hr, ha, he]
  refine (readArray_agree question_agree hrecords h₅ h₅').bind ?_
  intro questions _ b₆ b₆' hns h₆ h₆'
  refine (readArray_agree resource_agree hns h₆ h₆').bind ?_
  intro resources _ b₇ b₇' hns h₇ h₇'
  refine (readArray_agree resource_agree hns h₇ h₇').bind ?_
  intro aResources _ b₈ b₈' hns h₈ h₈'
  rw [← List.append_nil (List.replicate (count m 10) (resourceEnd m))] at hns
  refine (readArray_agree resource_agree hns h₈ h₈').bind ?_
  intro eResources _ b₉ b₉' _ h₉ h₉'
  exact .ok h₉ h₉' trivial

/-- The sections of a packet, each read where the one before it ends. -/
theorem read_sections {p : DnsPacket} (hb : At m off cap (.start m 0) b) (h : DnsPacket.read b = .ok (some p) b') :
    ∃ b₁ b₂ b₃ b₄ b₅, At m off cap (.start m 12) b₁ ∧ b₁.array = b.array ∧
      readArray Question.fromBytes (count m 4) b₁ = .ok p.questions b₂ ∧
      readArray Resource.fromBytes (count m 6) b₂ = .ok p.resources b₃ ∧
      readArray Resource.fromBytes (count m 8) b₃ = .ok p.aResources b₄ ∧
      readArray Resource.fromBytes (count m 10) b₄ = .ok p.eResources b₅ := by
  obtain ⟨-, hheader, -, -, hn, b₂, b₃, b₄, h₂, h₃, h₄, h₅⟩ := read_iff.1 h
  obtain ⟨hq, hr, ha, he, hat⟩ : p.header.questionCount.toNat = count m 4 ∧ p.header.resourceCount.toNat = count m 6 ∧
      p.header.aResourceCount.toNat = count m 8 ∧ p.header.eResourceCount.toNat = count m 10 ∧
        At m off cap (.start m 12) (b.skip 12 hn) := by
    have hh : DnsHeader.fromBytes b = .ok p.header (b.skip 12 hn) := header_iff.2 ⟨hn, hheader, rfl⟩
    rcases header_agree hb hb with ⟨_, _, _, _, h₁, -, hat, -, hq, hr, ha, he, rfl⟩ | ⟨_, _, _, h₁, -⟩
    · rw [hh] at h₁
      cases h₁
      exact ⟨hq, hr, ha, he, hat⟩
    · rw [hh] at h₁
      cases h₁
  rw [hq] at h₂
  rw [hr] at h₃
  rw [ha] at h₄
  rw [he] at h₅
  exact ⟨_, b₂, b₃, b₄, b', hat, rfl, h₂, h₃, h₄, h₅⟩

end TunProxy.Dns
