import TunProxy.Lib.Bytes
import TunProxy.Lib.Loop
import TunProxy.Native.Tcp.Handle

/-!
# The options of a SYN

The loop over the options reads the length before it looks at the kind, does not compare it with what is left, and stays
at an option of length 0 for ever. The window scale is any byte.
-/

namespace TunProxy.Native

open Lib.Bytes Lib.Loop

variable {mem : Nat → UInt8} {n : Nat} {options rest : Bytes} {opts : List TcpOption} {kind len : UInt8}

/-! ## The format -/

/-- Another kind, or a length that is not the one of its kind. -/
structure IsOther (kind : UInt8) (data : Bytes) : Prop where
  kind_gt : 1 < kind
  length_lt : data.length < 254
  mss : kind = 2 → data.length ≠ 2
  windowScale : kind = 3 → data.length ≠ 1

inductive TcpOption
  | nop
  | mss (value : BitVec 16)
  | windowScale (shift : UInt8)
  | other (kind : UInt8) (data : Bytes) (h : IsOther kind data)

def TcpOption.bytes : TcpOption → Bytes
  | .nop => [1]
  | .mss value => [2, 4] ++ toBE 2 value.toNat
  | .windowScale shift => [3, 3, shift]
  | .other kind data _ => [kind, UInt8.ofNat (data.length + 2)] ++ data

/-- The area holds the options, up to its end or to the option that ends the list. -/
def IsArea (options : Bytes) (opts : List TcpOption) : Prop :=
  options = opts.flatMap TcpOption.bytes ∨ ∃ padding, options = opts.flatMap TcpOption.bytes ++ 0 :: padding

/-- The last MSS, or the default. -/
def lastMss (mss : Nat) : List TcpOption → Nat
  | [] => mss
  | .mss value :: opts => lastMss value.toNat opts
  | _ :: opts => lastMss mss opts

/-- The last window scale, or the default. -/
def lastScale (ws : Nat) : List TcpOption → Nat
  | [] => ws
  | .windowScale shift :: opts => lastScale shift.toNat opts
  | _ :: opts => lastScale ws opts

/-! ## One round of the loop -/

structure OptionState where
  optlen : Int
  pos : Nat
  mss : Nat
  ws : Nat

variable {o : OptionState}

def optionStep (mem : Nat → UInt8) (o : OptionState) : OptionState ⊕ (Nat × Nat) :=
  if o.optlen > 0 then
    let kind := mem o.pos
    let len := (mem (o.pos + 1)).toNat
    if kind = 0 then .inr (o.mss, o.ws)
    else
      let mss := if kind = 2 ∧ len = 4 then (mem (o.pos + 2)).toNat * 256 + (mem (o.pos + 3)).toNat else o.mss
      let ws := if kind = 3 ∧ len = 3 then (mem (o.pos + 2)).toNat else o.ws
      if kind = 1 then .inl { optlen := o.optlen - 1, pos := o.pos + 1, mss, ws }
      else .inl { optlen := o.optlen - len, pos := o.pos + len, mss, ws }
  else .inr (o.mss, o.ws)

/-- What the round reads: the length of every option, then the value of the two that it knows. -/
def optionReads (mem : Nat → UInt8) (o : OptionState) : List Nat :=
  if o.optlen > 0 then
    [o.pos, o.pos + 1] ++
      (if mem o.pos = 2 ∧ (mem (o.pos + 1)).toNat = 4 then [o.pos + 2, o.pos + 3]
      else if mem o.pos = 3 ∧ (mem (o.pos + 1)).toNat = 3 then [o.pos + 2] else [])
  else []

theorem decodeOptions_eq (rounds : Nat) (optlen : Int) (pos mss ws : Nat) :
    decodeOptions mem rounds optlen pos mss ws = runFor (optionStep mem) rounds ⟨optlen, pos, mss, ws⟩ := by
  induction rounds generalizing optlen pos mss ws with
  | zero => rfl
  | succ rounds ih =>
      rw [decodeOptions, runFor, optionStep]
      split
      · dsimp only
        split
        · rfl
        · split
          · exact ih _ _ _ _
          · exact ih _ _ _ _
      · rfl

/-! ## The property, and when it holds -/

/-- The memory holds the bytes from `pos` on. -/
def Shows (mem : Nat → UInt8) (pos : Nat) (bytes : Bytes) : Prop := ∀ i < bytes.length, mem (pos + i) = bytes.getD i 0

/-- What the loop should make of the area, whatever lies behind it. -/
structure OptionsDecoded (mss : Nat) (options : Bytes) : Prop where
  ends : ∀ mem, Shows mem 0 options → ∃ rounds, decodeOptions mem rounds options.length 0 mss 0 ≠ none
  inside : ∀ mem, Shows mem 0 options → ∀ rounds,
    ∀ i ∈ readsFor (optionStep mem) (optionReads mem) rounds ⟨options.length, 0, mss, 0⟩, i < options.length
  values : ∀ mem opts, Shows mem 0 options → IsArea options opts →
    ∃ rounds, decodeOptions mem rounds options.length 0 mss 0 = some (lastMss mss opts, lastScale 0 opts)
  scale : ∀ opts, IsArea options opts → lastScale 0 opts ≤ 14

/-- Every option that the loop comes to has a length in the area, which is not 0, and the values of the known ones are
in the area; the last option may reach behind it. -/
inductive SafeOptions : Bytes → Prop
  | nil : SafeOptions []
  | stop {len : UInt8} {rest : Bytes} : SafeOptions (0 :: len :: rest)
  | nop {len : UInt8} {rest : Bytes} : SafeOptions (len :: rest) → SafeOptions (1 :: len :: rest)
  | option {kind len : UInt8} {rest : Bytes} : kind ≠ 0 → kind ≠ 1 → len ≠ 0 → (kind = 2 → len = 4 → 2 ≤ rest.length) →
      (kind = 3 → len = 3 → 1 ≤ rest.length) → SafeOptions ((kind :: len :: rest).drop len.toNat) →
      SafeOptions (kind :: len :: rest)

theorem Shows.drop {pos : Nat} (h : Shows mem pos rest) (k : Nat) : Shows mem (pos + k) (rest.drop k) := by
  intro i hi
  rw [List.length_drop] at hi
  rw [Nat.add_assoc, h (k + i) (by omega), List.getD_eq_getElem?_getD, List.getD_eq_getElem?_getD, List.getElem?_drop]

theorem Shows.zero {pos : Nat} (h : Shows mem pos (kind :: rest)) : mem pos = kind := h 0 (by simp)

theorem Shows.one {pos : Nat} (h : Shows mem pos (kind :: len :: rest)) : mem (pos + 1) = len := h 1 (by simp)

/-! ## Rounds -/

theorem optionStep_end (h : o.optlen ≤ 0) : optionStep mem o = .inr (o.mss, o.ws) := if_neg (by omega)

theorem optionStep_stop (h : 0 < o.optlen) (hk : mem o.pos = 0) : optionStep mem o = .inr (o.mss, o.ws) := by
  simp only [optionStep, h, hk, ↓reduceIte]

theorem optionStep_nop (h : 0 < o.optlen) (hk : mem o.pos = 1) :
    optionStep mem o = .inl { o with optlen := o.optlen - 1, pos := o.pos + 1 } := by
  have h₁ : ¬(1 : UInt8) = 0 := by decide
  have h₂ : ¬(1 : UInt8) = 2 := by decide
  have h₃ : ¬(1 : UInt8) = 3 := by decide
  simp only [optionStep, gt_iff_lt, h, hk, h₁, h₂, h₃, false_and, ↓reduceIte]

/-- The round at an option of another kind than the first two. -/
theorem optionStep_option (h : 0 < o.optlen) (h0 : mem o.pos ≠ 0) (h1 : mem o.pos ≠ 1) :
    optionStep mem o = .inl {
      optlen := o.optlen - (mem (o.pos + 1)).toNat
      pos := o.pos + (mem (o.pos + 1)).toNat
      mss := if mem o.pos = 2 ∧ (mem (o.pos + 1)).toNat = 4 then
        (mem (o.pos + 2)).toNat * 256 + (mem (o.pos + 3)).toNat else o.mss
      ws := if mem o.pos = 3 ∧ (mem (o.pos + 1)).toNat = 3 then (mem (o.pos + 2)).toNat else o.ws } := by
  simp only [optionStep, gt_iff_lt, h, h0, h1, ↓reduceIte]

theorem optionReads_end (h : o.optlen ≤ 0) : optionReads mem o = [] := if_neg (by omega)

theorem forall_optionReads (h : 0 < o.optlen) : (∀ i ∈ optionReads mem o, i < n) ↔
    o.pos + 1 < n ∧ (mem o.pos = 2 → (mem (o.pos + 1)).toNat = 4 → o.pos + 3 < n) ∧
      (mem o.pos = 3 → (mem (o.pos + 1)).toNat = 3 → o.pos + 2 < n) := by
  rw [optionReads, if_pos h, List.forall_mem_append]
  by_cases h2 : mem o.pos = 2 ∧ (mem (o.pos + 1)).toNat = 4
  · have hne : ¬(2 : UInt8) = 3 := by decide
    simp only [h2, and_self, ↓reduceIte, List.forall_mem_cons, List.not_mem_nil, false_imp_iff, implies_true, and_true,
      forall_const, hne]
    omega
  · rw [if_neg h2]
    by_cases h3 : mem o.pos = 3 ∧ (mem (o.pos + 1)).toNat = 3
    · have hne : ¬(3 : UInt8) = 2 := by decide
      simp only [h3, and_self, ↓reduceIte, List.forall_mem_cons, List.not_mem_nil, false_imp_iff,
        implies_true, and_true,
        forall_const, hne, true_and]
      omega
    · simp only [h3, ↓reduceIte, List.forall_mem_cons, List.not_mem_nil, false_imp_iff, implies_true, and_true]
      constructor
      · exact fun h => ⟨h.2, fun hk hl => absurd ⟨hk, hl⟩ h2, fun hk hl => absurd ⟨hk, hl⟩ h3⟩
      · exact fun h => ⟨by omega, h.1⟩

/-- At the first two kinds nothing is read behind the length. -/
theorem forall_optionReads_short (h : 0 < o.optlen) (hk : mem o.pos = 0 ∨ mem o.pos = 1) (hn : o.pos + 1 < n) :
    ∀ i ∈ optionReads mem o, i < n := by
  refine (forall_optionReads h).2 ⟨hn, ?_, ?_⟩
  · rcases hk with hk | hk <;> rw [hk] <;> intro h <;> cases h
  · rcases hk with hk | hk <;> rw [hk] <;> intro h <;> cases h

/-! ## Safe areas -/

/-- The state of the loop at the rest of an area of `n` bytes, or behind it. -/
structure AtRest (mem : Nat → UInt8) (n : Nat) (rest : Bytes) (o : OptionState) : Prop where
  optlen : o.optlen.toNat = rest.length
  shows : Shows mem o.pos rest
  pos : rest ≠ [] → o.pos + rest.length = n

theorem AtRest.optlen_pos (h : AtRest mem n (kind :: rest) o) : 0 < o.optlen := by
  have := h.optlen
  rw [List.length_cons] at this
  omega

theorem AtRest.pos_eq (h : AtRest mem n (kind :: rest) o) : o.pos + rest.length + 1 = n :=
  h.pos (by simp)

/-- The loop goes on `k` bytes, of which the area may have fewer. -/
theorem AtRest.drop {mss ws : Nat} (h : AtRest mem n rest o) (hpos : 0 < o.optlen) (k : Nat) :
    AtRest mem n (rest.drop k) { optlen := o.optlen - k, pos := o.pos + k, mss, ws } := by
  have hlen := h.optlen
  refine ⟨?_, h.shows.drop k, fun hne => ?_⟩
  · rw [List.length_drop, ← hlen]
    dsimp only
    omega
  · have hk : k < rest.length := by
      by_contra hk
      exact hne (List.drop_eq_nil_of_le (by omega))
    have := h.pos (List.ne_nil_of_length_pos (by omega))
    rw [List.length_drop]
    dsimp only
    omega

theorem endsInside_of_safe (hs : SafeOptions rest) (h : AtRest mem n rest o) :
    EndsInside (optionStep mem) (optionReads mem) n o := by
  induction hs generalizing o with
  | nil =>
      have hle : o.optlen ≤ 0 := by
        have := h.optlen
        rw [List.length_nil] at this
        omega
      refine .last ?_ (optionStep_end hle)
      rw [optionReads_end hle]
      simp
  | @stop len rest =>
      have hk := h.shows.zero
      have hpos := h.pos_eq
      rw [List.length_cons] at hpos
      exact .last (forall_optionReads_short h.optlen_pos (.inl hk) (by omega)) (optionStep_stop h.optlen_pos hk)
  | @nop len rest _ ih =>
      have hk := h.shows.zero
      have hpos := h.pos_eq
      rw [List.length_cons] at hpos
      exact .next (forall_optionReads_short h.optlen_pos (.inr hk) (by omega)) (optionStep_nop h.optlen_pos hk)
        (ih (h.drop h.optlen_pos 1))
  | @option kind len rest h0 h1 hl h2 h3 _ ih =>
      have hk := h.shows.zero
      have hlen := h.shows.one
      have hpos := h.pos_eq
      rw [List.length_cons] at hpos
      refine .next ((forall_optionReads h.optlen_pos).2 ?_)
        (optionStep_option h.optlen_pos (by rwa [hk]) (by rwa [hk])) ?_
      · rw [hk, hlen]
        refine ⟨by omega, fun hk2 hl4 => ?_, fun hk3 hl3 => ?_⟩
        · have := h2 hk2 (UInt8.toNat_inj.1 hl4)
          omega
        · have := h3 hk3 (UInt8.toNat_inj.1 hl3)
          omega
      · rw [hlen]
        exact ih (h.drop h.optlen_pos len.toNat)

theorem safe_of_endsInside (he : EndsInside (optionStep mem) (optionReads mem) n o) (h : AtRest mem n rest o) :
    SafeOptions rest := by
  induction he generalizing rest with
  | @last o r hr hs =>
      match rest, h with
      | [], _ => exact .nil
      | [kind], h =>
          have := ((forall_optionReads h.optlen_pos).1 hr).1
          have := h.pos_eq
          simp only [List.length_nil] at this
          omega
      | kind :: len :: rest, h =>
          have hk := h.shows.zero
          by_cases h0 : kind = 0
          · rw [h0]
            exact .stop
          · by_cases h1 : kind = 1
            · rw [optionStep_nop h.optlen_pos (hk.trans h1)] at hs
              cases hs
            · rw [optionStep_option h.optlen_pos (by rwa [hk]) (by rwa [hk])] at hs
              cases hs
  | @next o o' hr hs _ ih =>
      match rest, h with
      | [], _ => exact .nil
      | [kind], h =>
          have := ((forall_optionReads h.optlen_pos).1 hr).1
          have := h.pos_eq
          simp only [List.length_nil] at this
          omega
      | kind :: len :: rest, h =>
          have hk := h.shows.zero
          have hlen := h.shows.one
          have hpos := h.pos_eq
          rw [List.length_cons] at hpos
          by_cases h0 : kind = 0
          · rw [h0]
            exact .stop
          · by_cases h1 : kind = 1
            · rw [optionStep_nop h.optlen_pos (hk.trans h1)] at hs
              cases hs
              rw [h1]
              exact .nop (ih (h.drop h.optlen_pos 1))
            · rw [optionStep_option h.optlen_pos (by rwa [hk]) (by rwa [hk]), hlen] at hs
              cases hs
              have hsafe := ih (h.drop h.optlen_pos len.toNat)
              by_cases hl : len = 0
              · -- the loop is still at the same option
                rw [hl] at hsafe ⊢
                exact hsafe
              · obtain ⟨-, h2, h3⟩ := (forall_optionReads h.optlen_pos).1 hr
                rw [hk, hlen] at h2 h3
                refine .option h0 h1 hl (fun hk2 hl4 => ?_) (fun hk3 hl3 => ?_) hsafe
                · have := h2 hk2 (congrArg UInt8.toNat hl4)
                  omega
                · have := h3 hk3 (congrArg UInt8.toNat hl3)
                  omega

/-! ## Values -/

theorem toBE_two (value : BitVec 16) :
    ∃ a b : UInt8, toBE 2 value.toNat = [a, b] ∧ a.toNat * 256 + b.toNat = value.toNat := by
  have hlt := value.isLt
  refine ⟨_, _, rfl, ?_⟩
  rw [UInt8.toNat_ofNat', UInt8.toNat_ofNat', Nat.pow_one, Nat.pow_zero]
  omega

/-- The loop takes one option of a well-formed area. -/
theorem optionStep_head {opt : TcpOption} (h : AtRest mem n (opt.bytes ++ rest) o) :
    ∃ o', optionStep mem o = .inl o' ∧ AtRest mem n rest o' ∧ o'.mss = lastMss o.mss [opt] ∧
      o'.ws = lastScale o.ws [opt] := by
  cases opt with
  | nop =>
      have hk : mem o.pos = 1 := h.shows.zero
      exact ⟨_, optionStep_nop h.optlen_pos hk, h.drop h.optlen_pos 1, rfl, rfl⟩
  | mss value =>
      obtain ⟨a, b, hv, hab⟩ := toBE_two value
      rw [TcpOption.bytes, hv] at h
      have hk : mem o.pos = 2 := h.shows.zero
      have hl : mem (o.pos + 1) = 4 := h.shows.one
      have ha : mem (o.pos + 2) = a := h.shows 2 (by simp)
      have hb : mem (o.pos + 3) = b := h.shows 3 (by simp)
      refine ⟨_, optionStep_option h.optlen_pos (by simp [hk]) (by simp [hk]), ?_, ?_, ?_⟩
      · rw [hl]
        exact h.drop h.optlen_pos 4
      · simp [hk, hl, ha, hb, hab, lastMss]
      · simp [hk, lastScale]
  | windowScale shift =>
      have hk : mem o.pos = 3 := h.shows.zero
      have hl : mem (o.pos + 1) = 3 := h.shows.one
      have hs : mem (o.pos + 2) = shift := h.shows 2 (by simp [TcpOption.bytes])
      refine ⟨_, optionStep_option h.optlen_pos (by simp [hk]) (by simp [hk]), ?_, ?_, ?_⟩
      · rw [hl]
        exact h.drop h.optlen_pos 3
      · simp [hk, lastMss]
      · simp [hk, hl, hs, lastScale]
  | other kind data ho =>
      have hk : mem o.pos = kind := h.shows.zero
      have hl : mem (o.pos + 1) = UInt8.ofNat (data.length + 2) := h.shows.one
      have hlen : (mem (o.pos + 1)).toNat = data.length + 2 := by
        have := ho.length_lt
        rw [hl, UInt8.toNat_ofNat']
        omega
      have hgt := UInt8.lt_iff_toNat_lt.1 ho.kind_gt
      have h0 : mem o.pos ≠ 0 := by
        rw [hk]
        rintro rfl
        exact absurd hgt (by decide)
      have h1 : mem o.pos ≠ 1 := by
        rw [hk]
        rintro rfl
        exact absurd hgt (by decide)
      refine ⟨_, optionStep_option h.optlen_pos h0 h1, ?_, ?_, ?_⟩
      · have hrest : ((TcpOption.other kind data ho).bytes ++ rest).drop (data.length + 2) = rest :=
          List.drop_left' (by simp [TcpOption.bytes])
        rw [hlen, ← hrest]
        exact h.drop h.optlen_pos _
      · have hmss : ¬(mem o.pos = 2 ∧ (mem (o.pos + 1)).toNat = 4) := by
          rintro ⟨h2, h4⟩
          exact ho.mss (hk.symm.trans h2) (by omega)
        exact if_neg hmss
      · have hws : ¬(mem o.pos = 3 ∧ (mem (o.pos + 1)).toNat = 3) := by
          rintro ⟨h3, hl3⟩
          exact ho.windowScale (hk.symm.trans h3) (by omega)
        exact if_neg hws

theorem lastMss_cons (mss : Nat) (opt : TcpOption) (opts : List TcpOption) :
    lastMss mss (opt :: opts) = lastMss (lastMss mss [opt]) opts := by
  cases opt <;> rfl

theorem lastScale_cons (ws : Nat) (opt : TcpOption) (opts : List TcpOption) :
    lastScale ws (opt :: opts) = lastScale (lastScale ws [opt]) opts := by
  cases opt <;> rfl

theorem runFor_options (hend : rest = [] ∨ ∃ padding, rest = 0 :: padding)
    (h : AtRest mem n (opts.flatMap TcpOption.bytes ++ rest) o) :
    ∃ k, runFor (optionStep mem) k o = some (lastMss o.mss opts, lastScale o.ws opts) := by
  induction opts generalizing o with
  | nil =>
      refine ⟨1, runFor_end ?_⟩
      rcases hend with rfl | ⟨padding, rfl⟩
      · have hlen := h.optlen
        simp only [List.flatMap_nil, List.append_nil, List.length_nil] at hlen
        exact optionStep_end (by omega)
      · rw [List.flatMap_nil, List.nil_append] at h
        exact optionStep_stop h.optlen_pos h.shows.zero
  | cons opt opts ih =>
      rw [List.flatMap_cons, List.append_assoc] at h
      obtain ⟨o', hs, h', hm, hw⟩ := optionStep_head h
      obtain ⟨k, hk⟩ := ih h'
      refine ⟨k + 1, ?_⟩
      rw [runFor_next hs, hk, lastMss_cons, lastScale_cons, hm, hw]

/-! ## Exactly when the options are decoded -/

theorem atRest_start (h : Shows mem 0 options) (mss : Nat) :
    AtRest mem options.length options ⟨options.length, 0, mss, 0⟩ :=
  ⟨rfl, h, fun _ => Nat.zero_add _⟩

theorem shows_memAt (heap : Nat → UInt8) : Shows (memAt options heap) 0 options := by
  intro i hi
  rw [Nat.zero_add, memAt, List.getD_eq_getElem?_getD, List.getD_eq_getElem?_getD, List.getElem?_eq_getElem hi]
  rfl

theorem safe_of_decoded {mss : Nat} (h : OptionsDecoded mss options) : SafeOptions options := by
  have hm : Shows (memAt options fun _ => 0) 0 options := shows_memAt fun _ => 0
  obtain ⟨rounds, hr⟩ := h.ends _ hm
  rw [decodeOptions_eq] at hr
  obtain ⟨r, hr⟩ := Option.ne_none_iff_exists'.1 hr
  exact safe_of_endsInside (endsInside_iff.2 ⟨⟨rounds, r, hr⟩, h.inside _ hm⟩) (atRest_start hm mss)

/-- The options of a SYN are decoded as they should be exactly when the loop finds a length in the area at every option,
never 0, and when a well-formed area has no window scale over 14. -/
theorem options_decoded_iff (mss : Nat) (options : Bytes) : OptionsDecoded mss options ↔
    SafeOptions options ∧ ∀ opts, IsArea options opts → lastScale 0 opts ≤ 14 := by
  constructor
  · exact fun h => ⟨safe_of_decoded h, h.scale⟩
  · rintro ⟨hs, hscale⟩
    have hin (mem : Nat → UInt8) (hm : Shows mem 0 options) :=
      endsInside_iff.1 (endsInside_of_safe hs (atRest_start hm mss))
    refine ⟨fun mem hm => ?_, fun mem hm => (hin mem hm).2, fun mem opts hm ha => ?_, hscale⟩
    · obtain ⟨⟨k, r, hk⟩, -⟩ := hin mem hm
      refine ⟨k, ?_⟩
      rw [decodeOptions_eq, hk]
      exact Option.some_ne_none r
    · have hrest := atRest_start hm mss
      rcases ha with ha | ⟨padding, ha⟩
      · rw [ha] at hrest ⊢
        rw [← List.append_nil (opts.flatMap _)] at hrest
        obtain ⟨k, hk⟩ := runFor_options (.inl rfl) hrest
        exact ⟨k, by rwa [decodeOptions_eq, ← List.append_nil (opts.flatMap _)]⟩
      · rw [ha] at hrest ⊢
        obtain ⟨k, hk⟩ := runFor_options (.inr ⟨padding, rfl⟩) hrest
        exact ⟨k, by rwa [decodeOptions_eq]⟩

/-- The loop does not get past an option of length 0. -/
theorem options_not_decoded : ¬OptionsDecoded (getDefaultMss 4) [5, 0, 0, 0] ∧
    ∀ rounds, decodeOptions (memAt [5, 0, 0, 0] fun _ => 0) rounds 4 0 (getDefaultMss 4) 0 = none := by
  have hloop (rounds : Nat) : decodeOptions (memAt [5, 0, 0, 0] fun _ => 0) rounds 4 0 (getDefaultMss 4) 0 = none := by
    induction rounds with
    | zero => rfl
    | succ rounds ih => exact ih
  refine ⟨fun h => ?_, hloop⟩
  obtain ⟨rounds, hr⟩ := h.ends _ (shows_memAt fun _ => 0)
  exact hr (hloop rounds)

end TunProxy.Native
