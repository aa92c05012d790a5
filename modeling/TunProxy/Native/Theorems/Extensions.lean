import TunProxy.Lib.Loop
import TunProxy.Native.Theorems.Dispatch

/-!
# The extension headers of IPv6

The loop takes the protocol from the header that it is about to skip, so it never takes an upper one; and it counts the
length in bytes.
-/

namespace TunProxy.Native

open Lib.Loop

variable {mem : Nat → UInt8} {length pos off stop rounds : Nat} {protocol p q : UInt8} {loglevel : Int}

/-! ## The format -/

/-- The size of the header of a protocol above IPv6. -/
def upperSize (protocol : UInt8) : Option Nat :=
  if protocol = IPPROTO_TCP then some 20
  else if protocol = IPPROTO_UDP ∨ protocol = IPPROTO_ICMPV6 then some 8
  else none

/-- Hop-by-Hop Options, Routing or Destination Options. -/
def IsExtension (protocol : UInt8) : Prop := protocol = 0 ∨ protocol = 43 ∨ protocol = 60

/-- From `pos` on, the packet has complete headers, of the type `protocol` first, up to the header of the upper protocol
`p` at `stop`. -/
inductive ChainAt (mem : Nat → UInt8) (length : Nat) (p : UInt8) (stop : Nat) : UInt8 → Nat → Prop
  | upper {size : Nat} : upperSize p = some size → stop + size ≤ length → ChainAt mem length p stop p stop
  | extension {protocol : UInt8} {pos : Nat} : IsExtension protocol →
      pos + 8 * ((mem (pos + 1)).toNat + 1) ≤ length →
      ChainAt mem length p stop (mem pos) (pos + 8 * ((mem (pos + 1)).toNat + 1)) →
      ChainAt mem length p stop protocol pos

/-! ## One round of the loop -/

def extensionStep (mem : Nat → UInt8) : UInt8 × Nat → (UInt8 × Nat) ⊕ (UInt8 × Nat)
  | (protocol, off) =>
      if isLowerLayer (mem off) ∧ ¬isUpperLayer protocol then
        .inl (mem off, (off + (8 + (mem (off + 1)).toNat)) % 2 ^ 16)
      else .inr (protocol, off)

/-- What the round reads: the length only of a header that it skips. -/
def extensionReads (mem : Nat → UInt8) : UInt8 × Nat → List Nat
  | (protocol, off) => if isLowerLayer (mem off) ∧ ¬isUpperLayer protocol then [off, off + 1] else [off]

theorem skipExtensions_eq (rounds : Nat) (protocol : UInt8) (off : Nat) :
    skipExtensions mem rounds protocol off = runFor (extensionStep mem) rounds (protocol, off) := by
  induction rounds generalizing protocol off with
  | zero => rfl
  | succ rounds ih =>
      rw [skipExtensions, runFor, extensionStep]
      split
      · exact ih _ _
      · rfl

/-! ## The property, and when it holds -/

/-- What `handle_ip` should make of the extension headers. -/
structure ExtensionsSkipped (mem : Nat → UInt8) (length : Nat) : Prop where
  found : ∀ p stop loglevel, ChainAt mem length p stop (mem 6) 40 → ipPayload mem length loglevel = some (p, stop)
  ends : 40 ≤ length → isUpperLayer (mem 6) = false → ∃ rounds, skipExtensions mem rounds (mem 6) 40 ≠ none
  inside : 40 ≤ length → isUpperLayer (mem 6) = false → ∀ rounds,
    ∀ i ∈ readsFor (extensionStep mem) (extensionReads mem) rounds (mem 6, 40), i < length

/-- Going on 8 bytes and the second byte, in 16 bits, one comes to a first byte that is no lower protocol, and does not
leave the packet before. -/
inductive WalkInside (mem : Nat → UInt8) (length : Nat) : Nat → Prop
  | stop {off : Nat} : off < length → isLowerLayer (mem off) = false → WalkInside mem length off
  | next {off : Nat} : off + 1 < length → isLowerLayer (mem off) = true →
      WalkInside mem length ((off + (8 + (mem (off + 1)).toNat)) % 2 ^ 16) → WalkInside mem length off

/-! ## Chains -/

theorem upper_of_upperSize {size : Nat} (h : upperSize p = some size) : isUpperLayer p = true := by
  unfold upperSize at h
  split at h
  · rename_i hp
    subst hp
    rfl
  · split at h
    · rename_i hp
      rcases hp with rfl | rfl <;> rfl
    · cases h

theorem not_upper_of_extension (h : IsExtension p) : isUpperLayer p = false := by
  rcases h with rfl | rfl | rfl <;> rfl

theorem ChainAt.upper_found (h : ChainAt mem length p stop protocol pos) : isUpperLayer p = true := by
  induction h with
  | upper hs _ => exact upper_of_upperSize hs
  | extension _ _ _ ih => exact ih

/-- Behind an upper protocol there is only its header. -/
theorem ChainAt.eq_of_upper (h : ChainAt mem length p stop protocol pos) (hup : isUpperLayer protocol = true) :
    p = protocol ∧ stop = pos := by
  cases h with
  | upper _ _ => exact ⟨rfl, rfl⟩
  | extension hext _ _ =>
      rw [not_upper_of_extension hext] at hup
      cases hup

/-! ## Rounds -/

theorem extensionStep_next (hlow : isLowerLayer (mem off) = true) (hup : isUpperLayer protocol = false) :
    extensionStep mem (protocol, off) = .inl (mem off, (off + (8 + (mem (off + 1)).toNat)) % 2 ^ 16) :=
  if_pos ⟨hlow, by simp [hup]⟩

theorem extensionStep_end (hlow : isLowerLayer (mem off) = false) :
    extensionStep mem (protocol, off) = .inr (protocol, off) :=
  if_neg (by simp [hlow])

theorem extensionReads_next (hlow : isLowerLayer (mem off) = true) (hup : isUpperLayer protocol = false) :
    extensionReads mem (protocol, off) = [off, off + 1] :=
  if_pos ⟨hlow, by simp [hup]⟩

theorem extensionReads_end (hlow : isLowerLayer (mem off) = false) : extensionReads mem (protocol, off) = [off] :=
  if_neg (by simp [hlow])

/-- The protocol plays no part in where the loop goes: it is never an upper one. -/
theorem endsInside_of_walk (hw : WalkInside mem length off) (hup : isUpperLayer protocol = false) :
    EndsInside (extensionStep mem) (extensionReads mem) length (protocol, off) := by
  induction hw generalizing protocol with
  | stop hlt hlow =>
      refine .last ?_ (extensionStep_end hlow)
      rw [extensionReads_end hlow]
      exact List.forall_mem_singleton.2 hlt
  | next hlt hlow _ ih =>
      refine .next ?_ (extensionStep_next hlow hup) (ih (not_upper_of_lower hlow))
      rw [extensionReads_next hlow hup]
      exact List.forall_mem_cons.2 ⟨by omega, List.forall_mem_singleton.2 hlt⟩

theorem walk_of_endsInside {s : UInt8 × Nat} (he : EndsInside (extensionStep mem) (extensionReads mem) length s)
    (hup : isUpperLayer s.1 = false) : WalkInside mem length s.2 := by
  induction he with
  | @last s r hr hs =>
      obtain ⟨protocol, off⟩ := s
      cases hlow : isLowerLayer (mem off) with
      | false =>
          rw [extensionReads_end hlow] at hr
          exact .stop (hr off (List.mem_singleton_self off)) hlow
      | true =>
          rw [extensionStep_next hlow hup] at hs
          cases hs
  | @next s s' hr hs _ ih =>
      obtain ⟨protocol, off⟩ := s
      cases hlow : isLowerLayer (mem off) with
      | false =>
          rw [extensionStep_end hlow] at hs
          cases hs
      | true =>
          rw [extensionStep_next hlow hup] at hs
          rw [extensionReads_next hlow hup] at hr
          cases hs
          exact .next (hr (off + 1) (by simp)) hlow (ih (not_upper_of_lower hlow))

/-! ## Exactly when the headers are skipped -/

theorem ipPayload_six (h : ipVersion mem = 6) : ipPayload mem length loglevel = ip6Payload mem length := by
  rw [ipPayload, h]
  rfl

/-- Without extension headers the upper header is found. -/
theorem skipped_of_upper (h : ipVersion mem = 6) (hup : isUpperLayer (mem 6) = true) :
    ExtensionsSkipped mem length := by
  refine ⟨fun p stop loglevel hc => ?_, fun _ hn => ?_, fun _ hn => ?_⟩
  · have hlen : 40 ≤ length := by
      cases hc with
      | upper _ hlen => omega
      | extension hext _ _ =>
          rw [not_upper_of_extension hext] at hup
          cases hup
    obtain ⟨rfl, rfl⟩ := hc.eq_of_upper hup
    rw [ipPayload_six h]
    exact (ip6Payload_upper hup).2 ⟨hlen, rfl, rfl⟩
  · rw [hup] at hn
    cases hn
  · rw [hup] at hn
    cases hn

theorem skipped_of_walk (hnone : ∀ p stop, ¬ChainAt mem length p stop (mem 6) 40) (hw : WalkInside mem length 40) :
    ExtensionsSkipped mem length := by
  refine ⟨fun p stop _ hc => absurd hc (hnone p stop), fun _ hup => ?_, fun _ hup => ?_⟩
  · obtain ⟨k, r, hk⟩ := (endsInside_of_walk hw hup).ends
    refine ⟨k, ?_⟩
    rw [skipExtensions_eq, hk]
    exact Option.some_ne_none r
  · exact (endsInside_of_walk hw hup).inside

theorem walk_of_skipped (hlen : 40 ≤ length) (hup : isUpperLayer (mem 6) = false) (h : ExtensionsSkipped mem length) :
    WalkInside mem length 40 := by
  obtain ⟨k, hk⟩ := h.ends hlen hup
  rw [skipExtensions_eq] at hk
  obtain ⟨r, hr⟩ := Option.ne_none_iff_exists'.1 hk
  exact walk_of_endsInside (endsInside_iff.2 ⟨⟨k, r, hr⟩, h.inside hlen hup⟩) hup

/-- The extension headers are skipped as they should be exactly when there are none, or when what is there in their
place has no upper header and the walk of the loop over it stays inside. -/
theorem extensions_skipped_iff (h : ipVersion mem = 6) : ExtensionsSkipped mem length ↔
    length < 40 ∨ isUpperLayer (mem 6) = true ∨
      (∀ p stop, ¬ChainAt mem length p stop (mem 6) 40) ∧ WalkInside mem length 40 := by
  constructor
  · intro hs
    by_cases hlen : length < 40
    · exact .inl hlen
    · cases hup : isUpperLayer (mem 6) with
      | true => exact .inr (.inl rfl)
      | false =>
          refine .inr (.inr ⟨fun p stop hc => ?_, walk_of_skipped (by omega) hup hs⟩)
          have hf := hs.found p stop 0 hc
          rw [ipPayload_six h] at hf
          have hupper := hc.upper_found
          rw [((ip6Payload_upper hupper).1 hf).2.1, hup] at hupper
          cases hupper
  · rintro (hlen | hup | ⟨hnone, hw⟩)
    · refine ⟨fun p stop _ hc => ?_, fun _ => by omega, fun _ => by omega⟩
      cases hc with
      | upper _ _ => omega
      | extension _ _ _ => omega
    · exact skipped_of_upper h hup
    · exact skipped_of_walk hnone hw

/-- A SYN behind `extension`, whose type is `protocol`. -/
def sampleSyn6 (protocol : UInt8) (extension : Bytes) : Bytes :=
  [0x60, 0, 0, 0, 0, UInt8.ofNat (extension.length + 20), protocol, 64] ++ List.replicate 32 0 ++ extension ++
    [0x13, 0x88, 0, 80, 0, 0, 0, 1, 0, 0, 0, 0, 0x50, 2, 0, 0, 0, 0, 0, 0]

theorem extensions_skipped_iff_syn :
    ipPayload (memAt (sampleSyn6 6 []) fun _ => 0) 60 ANDROID_LOG_WARN = some (6, 40) :=
  ((extensions_skipped_iff (by decide)).2 (.inr (.inl (by decide)))).found 6 40 ANDROID_LOG_WARN
    (.upper rfl (by decide))

/-- One Hop-by-Hop Options header is enough: the SYN behind it has no handler. -/
theorem extensions_not_skipped : ¬ExtensionsSkipped (memAt (sampleSyn6 0 [6, 0, 1, 4, 0, 0, 0, 0]) fun _ => 0) 68 ∧
    ipPayload (memAt (sampleSyn6 0 [6, 0, 1, 4, 0, 0, 0, 0]) fun _ => 0) 68 ANDROID_LOG_WARN = some (0, 40) := by
  have hpay :
    ipPayload (memAt (sampleSyn6 0 [6, 0, 1, 4, 0, 0, 0, 0]) fun _ => 0) 68 ANDROID_LOG_WARN = some (0, 40) := by
    decide +kernel
  refine ⟨fun h => ?_, hpay⟩
  have hchain : ChainAt (memAt (sampleSyn6 0 [6, 0, 1, 4, 0, 0, 0, 0]) fun _ => 0) 68 6 48 0 40 :=
    .extension (.inl rfl) (by decide) (.upper rfl (by decide))
  have hf := h.found 6 48 ANDROID_LOG_WARN hchain
  rw [hpay] at hf
  cases hf

end TunProxy.Native
