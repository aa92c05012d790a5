import TunProxy.Native.Dns

/-!
# Names of any message

`get_qname` compares only labels with the length of the message, and follows pointers for ever.
-/

namespace TunProxy.Native

open Lib.Loop

variable {data : Nat → UInt8} {datalen off pos noff rounds : Nat} {s s' : QnameState} {qname : Nat → UInt8}

/-! ## The property, and when it holds -/

/-- `get_qname` is total at this place of this message. -/
structure QnameTotal (data : Nat → UInt8) (datalen off : Nat) : Prop where
  ends : ∀ qname, ∃ rounds, getQname data datalen rounds off qname ≠ none
  reads : ∀ qname rounds, ∀ i ∈ getQnameReads data datalen rounds off qname, i < datalen
  writes : ∀ qname rounds, ∀ i ∈ getQnameWrites data datalen rounds off qname, i < DNS_QNAME_MAX + 1
  offset : ∀ qname rounds stop out, getQname data datalen rounds off qname = some (some stop, out) → stop ≤ datalen

/-- From label to label and along the pointers, one comes to a zero byte or to a label that is too long, and does not
leave the message before. In the code, places are counted in 16 bits, and the bytes of the name in 8. -/
inductive QnameWalk (data : Nat → UInt8) (datalen : Nat) : Nat → Nat → Prop
  | last {pos noff : Nat} : pos < datalen → data pos = 0 → QnameWalk data datalen pos noff
  | tooLong {pos noff : Nat} : pos < datalen → data pos ≠ 0 → data pos &&& 0xC0 = 0 →
      ¬(pos + 1 + (data pos).toNat ≤ datalen ∧ noff + (data pos).toNat ≤ DNS_QNAME_MAX) →
        QnameWalk data datalen pos noff
  | label {pos noff : Nat} : data pos ≠ 0 → data pos &&& 0xC0 = 0 → pos + 1 + (data pos).toNat ≤ datalen →
      noff + (data pos).toNat ≤ DNS_QNAME_MAX →
      QnameWalk data datalen ((pos + ((data pos).toNat + 1)) % 2 ^ 16) ((noff + ((data pos).toNat + 1)) % 2 ^ 8) →
      QnameWalk data datalen pos noff
  | pointer {pos noff : Nat} : pos + 1 < datalen → data pos &&& 0xC0 ≠ 0 →
      QnameWalk data datalen ((data pos &&& 0x3F).toNat * 256 + (data (pos + 1)).toNat) noff →
      QnameWalk data datalen pos noff

theorem QnameWalk.pos_lt (h : QnameWalk data datalen pos noff) : pos < datalen := by
  cases h with
  | last hlt _ => exact hlt
  | tooLong hlt _ _ _ => exact hlt
  | label _ _ hle _ _ => omega
  | pointer hlt _ _ => omega

/-! ## Rounds -/

theorem not_zero_of_pointer {len : UInt8} (h : len &&& 0xC0 ≠ 0) : len ≠ 0 := by
  rintro rfl
  exact h rfl

theorem qnameStep_last (h : s.len = 0) : qnameStep data datalen s = .inr s := if_pos h

theorem qnameStep_pointer (h : s.len &&& 0xC0 ≠ 0) : qnameStep data datalen s = .inl { s with
    ptr := pointerTarget data s
    len := data (pointerTarget data s)
    c := true
    off := if s.c then s.off else (s.off + 2) % 2 ^ 16 } := by
  rw [qnameStep, if_neg (not_zero_of_pointer h), if_pos h]

theorem qnameStep_label (h0 : s.len ≠ 0) (h : s.len &&& 0xC0 = 0) (hf : labelFits datalen s) :
    qnameStep data datalen s = .inl { s with
      ptr := (s.ptr + (s.len.toNat + 1)) % 2 ^ 16
      len := data ((s.ptr + (s.len.toNat + 1)) % 2 ^ 16)
      noff := (s.noff + (s.len.toNat + 1)) % 2 ^ 8
      qname := Function.update (memcpy s.qname data s.noff (s.ptr + 1) s.len.toNat) (s.noff + s.len.toNat) 46 } := by
  rw [qnameStep, if_neg h0, if_neg (not_not.2 h), if_pos hf]

theorem qnameStep_tooLong (h0 : s.len ≠ 0) (h : s.len &&& 0xC0 = 0) (hf : ¬labelFits datalen s) :
    qnameStep data datalen s = .inr s := by
  rw [qnameStep, if_neg h0, if_neg (not_not.2 h), if_neg hf]

theorem forall_qnameReads_pointer (h : s.len &&& 0xC0 ≠ 0) : (∀ i ∈ qnameReads data datalen s, i < datalen) ↔
    s.ptr + 1 < datalen ∧ pointerTarget data s < datalen := by
  rw [qnameReads, if_neg (not_zero_of_pointer h), if_pos h, List.forall_mem_cons, List.forall_mem_singleton]

theorem forall_qnameReads_label (h0 : s.len ≠ 0) (h : s.len &&& 0xC0 = 0) (hf : labelFits datalen s) :
    (∀ i ∈ qnameReads data datalen s, i < datalen) ↔ (s.ptr + (s.len.toNat + 1)) % 2 ^ 16 < datalen := by
  rw [qnameReads, if_neg h0, if_neg (not_not.2 h), if_pos hf, List.forall_mem_append, List.forall_mem_map,
    List.forall_mem_singleton]
  refine and_iff_right fun i hi => ?_
  have := List.mem_range.1 hi
  have := hf.1
  omega

/-- A round that ends the loop reads nothing. -/
theorem qnameReads_end (h : s.len = 0 ∨ s.len &&& 0xC0 = 0 ∧ ¬labelFits datalen s) :
    qnameReads data datalen s = [] := by
  unfold qnameReads
  rcases h with h | ⟨h, hf⟩
  · rw [if_pos h]
  · rw [if_neg (not_not.2 h), if_neg hf, ite_self]

theorem qnameStep_cases (h : qnameStep data datalen s = .inl s') :
    (s.len &&& 0xC0 ≠ 0 ∧ s' = { s with
      ptr := pointerTarget data s
      len := data (pointerTarget data s)
      c := true
      off := if s.c then s.off else (s.off + 2) % 2 ^ 16 }) ∨
    (s.len ≠ 0 ∧ s.len &&& 0xC0 = 0 ∧ labelFits datalen s ∧ s' = { s with
      ptr := (s.ptr + (s.len.toNat + 1)) % 2 ^ 16
      len := data ((s.ptr + (s.len.toNat + 1)) % 2 ^ 16)
      noff := (s.noff + (s.len.toNat + 1)) % 2 ^ 8
      qname := Function.update (memcpy s.qname data s.noff (s.ptr + 1) s.len.toNat) (s.noff + s.len.toNat) 46 }) := by
  by_cases h0 : s.len = 0
  · rw [qnameStep_last h0] at h
    cases h
  · by_cases hp : s.len &&& 0xC0 = 0
    · by_cases hf : labelFits datalen s
      · rw [qnameStep_label h0 hp hf] at h
        cases h
        exact .inr ⟨h0, hp, hf, rfl⟩
      · rw [qnameStep_tooLong h0 hp hf] at h
        cases h
    · rw [qnameStep_pointer hp] at h
      cases h
      exact .inl ⟨hp, rfl⟩

theorem qnameStep_end (h : qnameStep data datalen s = .inr s') :
    s' = s ∧ (s.len = 0 ∨ s.len ≠ 0 ∧ s.len &&& 0xC0 = 0 ∧ ¬labelFits datalen s) := by
  by_cases h0 : s.len = 0
  · rw [qnameStep_last h0] at h
    cases h
    exact ⟨rfl, .inl h0⟩
  · by_cases hp : s.len &&& 0xC0 = 0
    · by_cases hf : labelFits datalen s
      · rw [qnameStep_label h0 hp hf] at h
        cases h
      · rw [qnameStep_tooLong h0 hp hf] at h
        cases h
        exact ⟨rfl, .inr ⟨h0, hp, hf⟩⟩
    · rw [qnameStep_pointer hp] at h
      cases h

/-! ## The walk of the loop -/

/-- The state of the loop at a place: the byte there has been read. -/
structure AtByte (data : Nat → UInt8) (datalen pos noff : Nat) (s : QnameState) : Prop where
  ptr : s.ptr = pos
  len : s.len = data pos
  noff : s.noff = noff

theorem AtByte.fits (h : AtByte data datalen pos noff s) :
    labelFits datalen s ↔ pos + 1 + (data pos).toNat ≤ datalen ∧ noff + (data pos).toNat ≤ DNS_QNAME_MAX := by
  rw [labelFits, h.ptr, h.len, h.noff]

theorem endsInside_of_qnameWalk (hw : QnameWalk data datalen pos noff) (h : AtByte data datalen pos noff s) :
    EndsInside (qnameStep data datalen) (qnameReads data datalen) datalen s := by
  induction hw generalizing s with
  | last _ h0 =>
      have h0 := h.len.trans h0
      refine .last ?_ (qnameStep_last h0)
      rw [qnameReads_end (.inl h0)]
      exact List.forall_mem_nil _
  | tooLong _ h0 hp hf =>
      rw [← h.len] at h0 hp
      rw [← h.fits] at hf
      refine .last ?_ (qnameStep_tooLong h0 hp hf)
      rw [qnameReads_end (.inr ⟨hp, hf⟩)]
      exact List.forall_mem_nil _
  | @label pos noff h0 hp hle hmax hw ih =>
      have hf := h.fits.2 ⟨hle, hmax⟩
      rw [← h.len] at h0 hp
      refine .next ?_ (qnameStep_label h0 hp hf) (ih ⟨?_, ?_, ?_⟩)
      · rw [forall_qnameReads_label h0 hp hf, h.len, h.ptr]
        exact hw.pos_lt
      · rw [h.len, h.ptr]
      · rw [h.len, h.ptr]
      · rw [h.len, h.noff]
  | @pointer pos noff hlt hp hw ih =>
      rw [← h.len] at hp
      have ht : pointerTarget data s = (data pos &&& 0x3F).toNat * 256 + (data (pos + 1)).toNat := by
        rw [pointerTarget, h.len, h.ptr]
      refine .next ?_ (qnameStep_pointer hp) (ih ⟨ht, congrArg data ht, h.noff⟩)
      rw [forall_qnameReads_pointer hp, ht, h.ptr]
      exact ⟨hlt, hw.pos_lt⟩

theorem qnameWalk_of_endsInside (he : EndsInside (qnameStep data datalen) (qnameReads data datalen) datalen s)
    (hlen : s.len = data s.ptr) (hlt : s.ptr < datalen) : QnameWalk data datalen s.ptr s.noff := by
  have h : AtByte data datalen s.ptr s.noff s := ⟨rfl, hlen, rfl⟩
  induction he with
  | @last s r _ hs =>
      rcases (qnameStep_end hs).2 with h0 | ⟨h0, hp, hf⟩
      · exact .last hlt (hlen ▸ h0)
      · exact .tooLong hlt (hlen ▸ h0) (hlen ▸ hp) (fun hfit => hf (h.fits.2 hfit))
  | @next s s' hr hs _ ih =>
      rcases qnameStep_cases hs with ⟨hp, rfl⟩ | ⟨h0, hp, hf, rfl⟩
      · obtain ⟨hlt₁, hlt₂⟩ := (forall_qnameReads_pointer hp).1 hr
        have hw := ih rfl hlt₂ ⟨rfl, rfl, rfl⟩
        rw [pointerTarget, hlen] at hw
        exact .pointer hlt₁ (hlen ▸ hp) hw
      · obtain ⟨hle, hmax⟩ := h.fits.1 hf
        have hw := ih rfl ((forall_qnameReads_label h0 hp hf).1 hr) ⟨rfl, rfl, rfl⟩
        rw [hlen] at hw h0 hp
        exact .label h0 hp hle hmax hw

/-! ## Writes, and the offset -/

theorem qname_noff_lt (hs : s.noff < 2 ^ 8) (h : qnameStep data datalen s = .inl s') : s'.noff < 2 ^ 8 := by
  rcases qnameStep_cases h with ⟨-, rfl⟩ | ⟨-, -, -, rfl⟩
  · exact hs
  · exact Nat.mod_lt _ (by decide)

/-- Nothing is written outside the buffer, in any message. -/
theorem getQname_writes (data : Nat → UInt8) (datalen rounds off : Nat) (qname : Nat → UInt8) :
    ∀ i ∈ getQnameWrites data datalen rounds off qname, i < DNS_QNAME_MAX + 1 := by
  have hstart : (qnameStart data off qname).noff < 2 ^ 8 := by
    show 0 < 2 ^ 8
    decide
  refine List.forall_mem_cons.2 ⟨by decide, List.forall_mem_append.2 ⟨?_, ?_⟩⟩
  · refine readsFor_keeps (I := fun s => s.noff < 2 ^ 8) (fun s s' => qname_noff_lt) (fun s _ => ?_) hstart rounds
    unfold qnameWrites
    split
    · simp
    · split
      · simp
      · split
        · rename_i hf
          rw [List.forall_mem_map]
          intro i hi
          have := List.mem_range.1 hi
          have := hf.2
          omega
        · simp
  · cases hr : runFor (qnameStep data datalen) rounds (qnameStart data off qname) with
    | none => simp
    | some s =>
        have hlt : s.noff < 2 ^ 8 := by
          refine runFor_keeps (P := fun s => s.noff < 2 ^ 8) (fun s s' => qname_noff_lt) (fun s r hs he => ?_) hstart hr
          rw [(qnameStep_end he).1]
          exact hs
        dsimp only
        split
        · simp
        · rw [List.forall_mem_singleton]
          unfold DNS_QNAME_MAX
          omega

/-- The offset to be returned, while the loop reads inside the message: two bytes are there for the pointer. -/
structure OffsetInside (datalen : Nat) (s : QnameState) : Prop where
  ptr : s.ptr < datalen
  followed : s.c = true → s.off ≤ datalen
  labels : s.c = false → s.off = s.ptr ∨ s.off + 1 < datalen

theorem OffsetInside.next (h : OffsetInside datalen s) (hr : ∀ i ∈ qnameReads data datalen s, i < datalen)
    (hs : qnameStep data datalen s = .inl s') : OffsetInside datalen s' := by
  rcases qnameStep_cases hs with ⟨hp, rfl⟩ | ⟨h0, hp, hf, rfl⟩
  · obtain ⟨hlt₁, hlt₂⟩ := (forall_qnameReads_pointer hp).1 hr
    refine ⟨hlt₂, fun _ => ?_, fun hc => by cases hc⟩
    cases hc : s.c with
    | true => exact h.followed hc
    | false =>
        have := h.labels hc
        show (s.off + 2) % 2 ^ 16 ≤ datalen
        omega
  · refine ⟨(forall_qnameReads_label h0 hp hf).1 hr, h.followed, fun hc => .inr ?_⟩
    have hpos : 0 < s.len.toNat := by
      by_contra hz
      exact h0 (UInt8.toNat_inj.1 (Nat.eq_zero_of_not_pos hz))
    have hle := hf.1
    rcases h.labels hc with ho | ho
    · show s.off + 1 < datalen
      omega
    · exact ho

theorem getQname_offset (he : EndsInside (qnameStep data datalen) (qnameReads data datalen) datalen
      (qnameStart data off qname)) (hoff : off < datalen) {stop : Nat} {out : Nat → UInt8}
    (h : getQname data datalen rounds off qname = some (some stop, out)) : stop ≤ datalen := by
  obtain ⟨s, hs, h⟩ := Option.map_eq_some_iff.1 h
  have hin : OffsetInside datalen s := by
    refine he.keeps (I := OffsetInside datalen) (fun s s' hI hr hs => hI.next hr hs) (fun s r hI hs => ?_) ?_ hs
    · rw [(qnameStep_end hs).1]
      exact hI
    · exact ⟨hoff, fun hc => (Bool.false_ne_true hc).elim, fun _ => .inl rfl⟩
  dsimp only at h
  split at h
  · cases h
  · cases h
    have hptr := hin.ptr
    cases hc : s.c with
    | true => exact hin.followed hc
    | false =>
        show (s.ptr + 1) % 2 ^ 16 ≤ datalen
        omega

/-! ## Exactly when the function is total -/

theorem atByte_start (data : Nat → UInt8) (datalen off : Nat) (qname : Nat → UInt8) :
    AtByte data datalen off 0 (qnameStart data off qname) := ⟨rfl, rfl, rfl⟩

theorem QnameTotal.walk (h : QnameTotal data datalen off) : QnameWalk data datalen off 0 := by
  obtain ⟨k, hk⟩ := h.ends fun _ => 0
  rw [getQname, ne_eq, Option.map_eq_none_iff] at hk
  obtain ⟨r, hr⟩ := Option.ne_none_iff_exists'.1 hk
  have hreads (k : Nat) := List.forall_mem_cons.1 (h.reads (fun _ => 0) k)
  exact qnameWalk_of_endsInside (endsInside_iff.2 ⟨⟨k, r, hr⟩, fun k => (hreads k).2⟩) rfl (hreads 0).1

/-- The function is total at a place exactly when the walk of its loop from there ends, and stays in the message. -/
theorem qname_total_iff (data : Nat → UInt8) (datalen off : Nat) :
    QnameTotal data datalen off ↔ QnameWalk data datalen off 0 := by
  constructor
  · exact QnameTotal.walk
  · intro hw
    have he (qname : Nat → UInt8) := endsInside_of_qnameWalk hw (atByte_start data datalen off qname)
    refine ⟨fun qname => ?_, fun qname k => ?_, fun qname k => getQname_writes data datalen k off qname,
      fun qname k stop out => getQname_offset (he qname) hw.pos_lt⟩
    · obtain ⟨k, r, hk⟩ := (he qname).ends
      refine ⟨k, ?_⟩
      rw [getQname, hk]
      exact Option.some_ne_none _
    · exact List.forall_mem_cons.2 ⟨hw.pos_lt, (he qname).inside k⟩

/-- A query with one question. Its name is a pointer to itself, and never left. -/
def selfPointer : Bytes := [0, 1, 0, 0, 0, 1, 0, 0, 0, 0, 0, 0, 0xC0, 12]

theorem qname_not_total :
    13 ≤ selfPointer.length ∧ ¬QnameTotal (memAt selfPointer fun _ => 0) selfPointer.length 12 := by
  have hstay (pos noff : Nat)
    (hw : QnameWalk (memAt selfPointer fun _ => 0) selfPointer.length pos noff) : pos ≠ 12 := by
    induction hw with
    | last _ h0 =>
        rintro rfl
        exact absurd h0 (by decide)
    | tooLong _ _ hp _ =>
        rintro rfl
        exact absurd hp (by decide)
    | label _ hp _ _ _ _ =>
        rintro rfl
        exact absurd hp (by decide)
    | pointer _ _ _ ih =>
        rintro rfl
        exact absurd rfl ih
  exact ⟨by decide, fun h => hstay 12 0 h.walk rfl⟩

end TunProxy.Native
