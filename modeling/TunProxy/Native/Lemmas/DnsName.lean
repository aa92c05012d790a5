import TunProxy.Dns.Message
import TunProxy.Native.Lemmas.Memory
import TunProxy.Native.Theorems.Qname

/-!
# Names of well-formed messages

The place that `get_qname` returns is right only where the name has no pointer, or has it in front of all labels.
-/

namespace TunProxy.Native

open Lib.Bytes Lib.Loop

variable {m bytes : Bytes} {heap : Nat → UInt8} {pos noff off stop rounds : Nat} {name rest : Dns.Name} {s : QnameState}
  {qname : Nat → UInt8}

/-! ## The format -/

/-- The size of the name at its place. -/
def nameSize : Dns.Name → Nat
  | .root => 1
  | .label bytes rest => 1 + bytes.length + nameSize rest
  | .pointer _ _ => 2

/-- The size of the name without compression. -/
def fullSize : Dns.Name → Nat
  | .root => 1
  | .label bytes rest => 1 + bytes.length + fullSize rest
  | .pointer _ rest => fullSize rest

/-- The name is encoded in the message at `pos`; a pointer leads backward. -/
inductive WireName (m : Bytes) : Nat → Dns.Name → Prop
  | root {pos : Nat} : m[pos]? = some 0 → WireName m pos .root
  | label {pos : Nat} {bytes : Bytes} {rest : Dns.Name} : 1 ≤ bytes.length → bytes.length ≤ 63 →
      m[pos]? = some (.ofNat bytes.length) → BytesAt m (pos + 1) bytes → WireName m (pos + (bytes.length + 1)) rest →
      WireName m pos (.label bytes rest)
  | pointer {pos target : Nat} {rest : Dns.Name} : target < pos → target < 2 ^ 14 →
      m[pos]? = some (.ofNat (192 + target / 256)) → m[pos + 1]? = some (.ofNat (target % 256)) →
      WireName m target rest → WireName m pos (.pointer target rest)

/-- A well-formed name, in a message no longer than a datagram. -/
structure NameIn (m : Bytes) (pos : Nat) (name : Dns.Name) : Prop where
  length_lt : m.length < 2 ^ 16
  wire : WireName m pos name
  size : fullSize name ≤ 255

/-- The labels, joined by dots. -/
def dotted (name : Dns.Name) : Bytes := [46].intercalate name.labels

/-- What `get_qname` should make of the name. -/
def QnameDecoded (m : Bytes) (pos : Nat) (name : Dns.Name) : Prop :=
  ∀ heap qname, ∃ rounds out, getQname (memAt m heap) m.length rounds pos qname =
    some (some (pos + nameSize name), out) ∧
    bytesAt out 0 ((dotted name).length + 1) = dotted name ++ [0]

/-- The name has a label, and no label in front of a pointer. -/
structure GoodName (name : Dns.Name) : Prop where
  labels : name.labels ≠ []
  pointers : name.targets = [] ∨ ∃ target rest, name = .pointer target rest

/-! ## Bytes -/

theorem label_byte : ∀ l < 64, UInt8.ofNat l &&& 0xC0 = 0 := by decide

theorem pointer_byte : ∀ h < 64, UInt8.ofNat (192 + h) &&& 0xC0 ≠ 0 ∧ (UInt8.ofNat (192 + h) &&& 0x3F).toNat = h := by
  decide

theorem nameSize_pos (name : Dns.Name) : 0 < nameSize name := by
  cases name with
  | root => exact Nat.one_pos
  | label bytes rest =>
      rw [nameSize]
      omega
  | pointer target rest => exact Nat.two_pos

theorem two_le_nameSize (h : name ≠ .root) : 2 ≤ nameSize name := by
  cases name with
  | root => exact absurd rfl h
  | label bytes rest =>
      have := nameSize_pos rest
      rw [nameSize]
      omega
  | pointer target rest => exact Nat.le_refl 2

theorem fullSize_pos (name : Dns.Name) : 0 < fullSize name := by
  induction name with
  | root => exact Nat.one_pos
  | label bytes rest _ =>
      rw [fullSize]
      omega
  | pointer target rest ih => exact ih

theorem WireName.pos_lt (h : WireName m pos name) : pos < m.length := by
  cases h with
  | root hb => exact (List.getElem?_eq_some_iff.1 hb).1
  | label _ _ hb _ _ => exact (List.getElem?_eq_some_iff.1 hb).1
  | pointer _ _ hb _ _ => exact (List.getElem?_eq_some_iff.1 hb).1

theorem WireName.end_le (h : WireName m pos name) : pos + nameSize name ≤ m.length := by
  induction h with
  | root hb =>
      rw [nameSize]
      exact (List.getElem?_eq_some_iff.1 hb).1
  | label _ _ _ _ _ ih =>
      rw [nameSize]
      omega
  | pointer _ _ _ hb _ _ =>
      rw [nameSize]
      exact (List.getElem?_eq_some_iff.1 hb).1

/-! ## The text in the buffer -/

/-- What the loop writes: every label with a dot. -/
def written (name : Dns.Name) : Bytes := name.labels.flatMap (· ++ [46])

theorem length_written (name : Dns.Name) : (written name).length + 1 = fullSize name := by
  induction name with
  | root => rfl
  | label bytes rest ih =>
      rw [fullSize, ← ih]
      simp only [written, Dns.Name.labels, List.flatMap_cons, List.length_append, List.length_singleton]
      omega
  | pointer target rest ih => exact ih

theorem flatMap_dot {labels : List Bytes} (h : labels ≠ []) :
    labels.flatMap (· ++ [46]) = [46].intercalate labels ++ [46] := by
  induction labels with
  | nil => exact absurd rfl h
  | cons l ls ih =>
      cases ls with
      | nil => simp [List.intercalate]
      | cons l' ls =>
          rw [List.flatMap_cons, ih (List.cons_ne_nil l' ls), List.intercalate_cons_cons]
          simp

theorem written_eq (h : name.labels ≠ []) : written name = dotted name ++ [46] := flatMap_dot h

theorem bytesAt_update_zero (q : Nat → UInt8) (n : Nat) :
    bytesAt (Function.update q n 0) 0 (n + 1) = bytesAt q 0 n ++ [0] := by
  rw [bytesAt_add]
  congr 1
  · refine bytesAt_congr fun i hi => ?_
    rw [Function.update_of_ne]
    omega
  · simp [bytesAt]

/-- The loop copies a label and a dot. -/
theorem bytesAt_copied (h : BytesAt m pos bytes) (q : Nat → UInt8) :
    bytesAt (Function.update (memcpy q (memAt m heap) noff pos bytes.length) (noff + bytes.length) 46) noff
      (bytes.length + 1) = bytes ++ [46] := by
  rw [bytesAt_add]
  congr 1
  · rw [← h.2, ← bytesAt_memAt h.1, length_bytesAt]
    refine bytesAt_congr fun i hi => ?_
    rw [Function.update_of_ne (by omega), memcpy, if_pos (by omega)]
    congr 1
    omega
  · simp [bytesAt]

/-! ## The loop over a well-formed name -/

/-- The state at the end of the loop, from a state at a name. -/
structure QnameEnds (name : Dns.Name) (pos noff : Nat) (s s' : QnameState) : Prop where
  len : s'.len = 0
  count : s'.noff = noff + (written name).length
  c : s'.c = (s.c || !name.targets.isEmpty)
  off : s'.off = if s.c || name.targets.isEmpty then s.off else (s.off + 2) % 2 ^ 16
  ptr : name.targets = [] → s'.ptr + 1 = pos + nameSize name
  kept : ∀ i < noff, s'.qname i = s.qname i
  text : bytesAt s'.qname noff (written name).length = written name

/-- A round at a label. -/
theorem qnameStep_copies (hm : m.length < 2 ^ 16) (h1 : 1 ≤ bytes.length) (h63 : bytes.length ≤ 63)
    (hb : m[pos]? = some (.ofNat bytes.length)) (hrest : WireName m (pos + (bytes.length + 1)) rest)
    (hs : AtByte (memAt m heap) m.length pos noff s) (hsize : noff + (1 + bytes.length + fullSize rest) ≤ 255) :
    ∃ s₁, qnameStep (memAt m heap) m.length s = .inl s₁ ∧
      AtByte (memAt m heap) m.length (pos + (bytes.length + 1)) (noff + (bytes.length + 1)) s₁ ∧ s₁.c = s.c ∧
      s₁.off = s.off ∧ s₁.qname =
        Function.update (memcpy s.qname (memAt m heap) noff (pos + 1) bytes.length) (noff + bytes.length) 46 := by
  have hlen : s.len = .ofNat bytes.length := hs.len.trans (memAt_of_getElem? hb)
  have hnat : s.len.toNat = bytes.length := by
    rw [hlen, UInt8.toNat_ofNat']
    omega
  have h0 : s.len ≠ 0 := by
    intro h
    rw [h, UInt8.toNat_zero] at hnat
    omega
  have hp : s.len &&& 0xC0 = 0 := by
    rw [hlen]
    exact label_byte _ (by omega)
  have hend := hrest.end_le
  have hpos := nameSize_pos rest
  have hfull := fullSize_pos rest
  have hf : labelFits m.length s := by
    rw [labelFits, hs.ptr, hs.noff, hnat]
    unfold DNS_QNAME_MAX
    omega
  have hptr : (s.ptr + (s.len.toNat + 1)) % 2 ^ 16 = pos + (bytes.length + 1) := by
    rw [hs.ptr, hnat]
    omega
  have hnoff : (s.noff + (s.len.toNat + 1)) % 2 ^ 8 = noff + (bytes.length + 1) := by
    rw [hs.noff, hnat]
    omega
  have hstep := @qnameStep_label (memAt m heap) m.length s h0 hp hf
  rw [hptr, hnoff, hnat, hs.noff, hs.ptr] at hstep
  exact ⟨_, hstep, ⟨rfl, rfl, rfl⟩, rfl, rfl, rfl⟩

/-- A round at a pointer. -/
theorem qnameStep_follows {target : Nat} (h14 : target < 2 ^ 14) (hb₁ : m[pos]? = some (.ofNat (192 + target / 256)))
    (hb₂ : m[pos + 1]? = some (.ofNat (target % 256))) (hs : AtByte (memAt m heap) m.length pos noff s) :
    ∃ s₁, qnameStep (memAt m heap) m.length s = .inl s₁ ∧ AtByte (memAt m heap) m.length target noff s₁ ∧
      s₁.c = true ∧ (s₁.off = if s.c then s.off else (s.off + 2) % 2 ^ 16) ∧ s₁.qname = s.qname := by
  have hlen : s.len = .ofNat (192 + target / 256) := hs.len.trans (memAt_of_getElem? hb₁)
  obtain ⟨hp, hhigh⟩ := pointer_byte (target / 256) (by omega)
  rw [← hlen] at hp hhigh
  have htarget : pointerTarget (memAt m heap) s = target := by
    rw [pointerTarget, hhigh, hs.ptr, memAt_of_getElem? hb₂, UInt8.toNat_ofNat']
    omega
  have hstep := @qnameStep_pointer (memAt m heap) m.length s hp
  rw [htarget] at hstep
  exact ⟨_, hstep, ⟨rfl, rfl, hs.noff⟩, rfl, rfl, rfl⟩

theorem qname_run (hm : m.length < 2 ^ 16) (h : WireName m pos name) (hs : AtByte (memAt m heap) m.length pos noff s)
    (hsize : noff + fullSize name ≤ 255) :
    ∃ k s', runFor (qnameStep (memAt m heap) m.length) k s = some s' ∧ QnameEnds name pos noff s s' := by
  induction h generalizing s noff with
  | @root pos hb =>
      have h0 : s.len = 0 := hs.len.trans (memAt_of_getElem? hb)
      refine ⟨1, s, runFor_end (qnameStep_last h0), ?_⟩
      exact ⟨h0, hs.noff, by simp [Dns.Name.targets], by simp [Dns.Name.targets], fun _ => by rw [hs.ptr]; rfl,
        fun _ _ => rfl, rfl⟩
  | @label pos bytes rest h1 h63 hb ht hrest ih =>
      rw [fullSize] at hsize
      obtain ⟨s₁, hstep, hs₁, hc, hoff, hq⟩ := qnameStep_copies hm h1 h63 hb hrest hs hsize
      obtain ⟨k, s', hk, he⟩ := ih hs₁ (by omega)
      refine ⟨k + 1, s', (runFor_next hstep).trans hk, ?_⟩
      have hwritten : written (.label bytes rest) = bytes ++ [46] ++ written rest := rfl
      have hl : (bytes ++ [46]).length = bytes.length + 1 := List.length_append
      refine ⟨he.len, ?_, hc ▸ he.c, hc ▸ hoff ▸ he.off, fun hn => ?_, fun i hi => ?_, ?_⟩
      · rw [he.count, hwritten, List.length_append, hl]
        omega
      · rw [he.ptr hn, nameSize]
        omega
      · rw [he.kept i (by omega), hq, Function.update_of_ne (by omega), memcpy, if_neg (by omega)]
      · rw [hwritten, List.length_append, hl, bytesAt_add, he.text]
        congr 1
        rw [← bytesAt_copied ht s.qname, ← hq]
        exact bytesAt_congr fun i hi => he.kept _ (by omega)
  | @pointer pos target rest hlt h14 hb₁ hb₂ hrest ih =>
      obtain ⟨s₁, hstep, hs₁, hc, hoff, hq⟩ := qnameStep_follows h14 hb₁ hb₂ hs
      obtain ⟨k, s', hk, he⟩ := ih hs₁ hsize
      refine ⟨k + 1, s', (runFor_next hstep).trans hk, ?_⟩
      refine ⟨he.len, he.count, ?_, ?_, fun hn => ?_, hq ▸ he.kept, he.text⟩
      · rw [he.c, hc]
        simp [Dns.Name.targets]
      · rw [he.off, hc, hoff]
        simp [Dns.Name.targets]
      · cases hn

/-! ## What `get_qname` returns -/

/-- The offset that is returned for a well-formed name. -/
def qnameResult (pos : Nat) (name : Dns.Name) : Option Nat :=
  if name.labels = [] then none else some (if name.targets = [] then pos + nameSize name else pos + 2)

theorem written_eq_nil : written name = [] ↔ name.labels = [] := by
  cases hl : name.labels with
  | nil => simp [written, hl]
  | cons l ls => simp [written, hl]

theorem getQname_mono {k : Nat} {data : Nat → UInt8} {datalen : Nat} {r : Option Nat × (Nat → UInt8)}
    (h : getQname data datalen rounds off qname = some r) (hle : rounds ≤ k) :
    getQname data datalen k off qname = some r := by
  obtain ⟨s, hs, rfl⟩ := Option.map_eq_some_iff.1 h
  rw [getQname, runFor_mono hs hle]
  rfl

/-- The offset at the end of the loop. -/
theorem QnameEnds.offset {s s' : QnameState} (he : QnameEnds name pos noff s s') (hm : m.length < 2 ^ 16)
    (h : WireName m pos name) (hl : name.labels ≠ []) (hc : s.c = false) (ho : s.off = pos) :
    (if s'.c then s'.off else (s'.ptr + 1) % 2 ^ 16) = if name.targets = [] then pos + nameSize name else pos + 2 := by
  have hend := h.end_le
  have htwo : 2 ≤ nameSize name := by
    refine two_le_nameSize ?_
    rintro rfl
    exact hl rfl
  rw [he.c, he.off, hc, ho]
  by_cases ht : name.targets = []
  · have := he.ptr ht
    simp only [ht, List.isEmpty_nil, Bool.not_true, Bool.or_false, Bool.false_eq_true, ↓reduceIte]
    omega
  · simp only [ht, List.isEmpty_eq_false_iff.2 ht, Bool.not_false, Bool.or_true, Bool.or_false, Bool.false_eq_true,
      ↓reduceIte]
    omega

theorem getQname_name (h : NameIn m pos name) (heap qname : Nat → UInt8) :
    ∃ k out, getQname (memAt m heap) m.length k pos qname = some (qnameResult pos name, out) ∧
      (name.labels ≠ [] → bytesAt out 0 ((dotted name).length + 1) = dotted name ++ [0]) := by
  have hsize := h.size
  obtain ⟨k, s, hk, he⟩ := qname_run h.length_lt h.wire (atByte_start (memAt m heap) m.length pos qname) (by omega)
  have hlen : ¬s.len > 0 := by
    rw [he.len]
    exact Nat.lt_irrefl 0
  have hcount := he.count
  rw [Nat.zero_add] at hcount
  by_cases hl : name.labels = []
  · have hz : s.noff = 0 := by
      rw [hcount, written_eq_nil.2 hl]
      rfl
    refine ⟨k, s.qname, ?_, fun hn => absurd hl hn⟩
    simp only [getQname, hk, Option.map_some, hlen, hz, or_true, ↓reduceIte, qnameResult, hl]
  · have hw := written_eq hl
    have hone : s.noff = (dotted name).length + 1 := by rw [hcount, hw, List.length_append, List.length_singleton]
    refine ⟨k, Function.update s.qname (s.noff - 1) 0, ?_, fun _ => ?_⟩
    · have hz : ¬s.noff = 0 := by omega
      simp only [getQname, hk, Option.map_some, hlen, hz, or_false, ↓reduceIte, qnameResult, hl,
        he.offset h.length_lt h.wire hl rfl rfl]
    · have ht := he.text
      rw [hw, List.length_append, List.length_singleton, bytesAt_add] at ht
      rw [hone, Nat.add_sub_cancel, bytesAt_update_zero, (List.append_inj' ht rfl).1]

/-- Any rounds that are enough give the same. -/
theorem getQname_unique {r : Option Nat × (Nat → UInt8)} (h : NameIn m pos name)
    (hr : getQname (memAt m heap) m.length rounds pos qname = some r) : r.1 = qnameResult pos name ∧
      (name.labels ≠ [] → bytesAt r.2 0 ((dotted name).length + 1) = dotted name ++ [0]) := by
  obtain ⟨k, out, hk, ht⟩ := getQname_name h heap qname
  have h₁ := getQname_mono hr (Nat.le_max_left rounds k)
  rw [getQname_mono hk (Nat.le_max_right rounds k)] at h₁
  cases h₁
  exact ⟨rfl, ht⟩

theorem qnameResult_iff : qnameResult pos name = some (pos + nameSize name) ↔ GoodName name := by
  constructor
  · intro h
    have hl : name.labels ≠ [] := by
      intro hl
      rw [qnameResult, if_pos hl] at h
      cases h
    refine ⟨hl, ?_⟩
    by_cases ht : name.targets = []
    · exact .inl ht
    · rw [qnameResult, if_neg hl, if_neg ht, Option.some.injEq] at h
      cases name with
      | root => exact absurd rfl hl
      | pointer target rest => exact .inr ⟨target, rest, rfl⟩
      | label bytes rest =>
          have htwo : 2 ≤ nameSize rest := by
            refine two_le_nameSize ?_
            rintro rfl
            exact ht rfl
          rw [nameSize] at h
          omega
  · rintro ⟨hl, ht | ⟨target, rest, rfl⟩⟩
    · rw [qnameResult, if_neg hl, if_pos ht]
    · have ht : (Dns.Name.pointer target rest).targets ≠ [] := List.cons_ne_nil _ _
      rw [qnameResult, if_neg hl, if_neg ht]
      rfl

theorem qnameDecoded_iff (h : NameIn m pos name) : QnameDecoded m pos name ↔ GoodName name := by
  constructor
  · intro hd
    obtain ⟨rounds, out, hr, -⟩ := hd (fun _ => 0) (fun _ => 0)
    exact qnameResult_iff.1 (getQname_unique h hr).1.symm
  · intro hgood heap qname
    obtain ⟨k, out, hk, ht⟩ := getQname_name h heap qname
    rw [qnameResult_iff.2 hgood] at hk
    exact ⟨k, out, hk, ht hgood.labels⟩

end TunProxy.Native
