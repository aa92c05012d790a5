import Mathlib.Data.Finset.Card
import TunProxy.Dns.Proxy

/-!
# Fake addresses

`getOrCreateFakeIP` keeps two maps that are inverse to each other and finds a free address as long as there
is one.
-/

namespace TunProxy.Dns

open Vpn

variable {maps maps' : Maps} {hashCode : List Char → BitVec 32} {domain d : List Char} {ip : BitVec 32}
  {n i j : Nat} {hashIP : BitVec 32}

/-! ## The addresses of the network -/

theorem fakeAddress_toNat (hashIP : BitVec 32) :
    (fakeAddress hashIP).toNat = 0xAC19 * 2 ^ 16 + hashIP.toNat % 2 ^ 16 := by
  have hm : hashIP.toNat &&& 0xFFFF = hashIP.toNat % 2 ^ 16 := Nat.and_two_pow_sub_one_eq_mod _ 16
  have ho : 0xAC190000 ||| hashIP.toNat % 2 ^ 16 = 0xAC19 * 2 ^ 16 + hashIP.toNat % 2 ^ 16 := by
    have h := Nat.shiftLeft_add_eq_or_of_lt (Nat.mod_lt hashIP.toNat (show 0 < 2 ^ 16 by decide)) 0xAC19
    rw [Nat.shiftLeft_eq] at h
    exact h.symm
  rw [fakeAddress, BitVec.toNat_or, BitVec.toNat_and]
  exact (congrArg _ hm).trans ho

theorem isFakeIP_fakeAddress (hashIP : BitVec 32) : isFakeIP (fakeAddress hashIP) = true := by
  have h : fakeAddress hashIP &&& FAKE_NETWORK_MASK = FAKE_NETWORK_IP := by
    have ha : (0x0000FFFF : BitVec 32) &&& FAKE_NETWORK_MASK = 0 := by decide
    have hf : FAKE_NETWORK_IP &&& FAKE_NETWORK_MASK = FAKE_NETWORK_IP := by decide
    rw [fakeAddress, BitVec.and_comm, BitVec.and_or_distrib_left, BitVec.and_comm _ FAKE_NETWORK_IP, hf,
      BitVec.and_comm, BitVec.and_assoc, ha]
    simp
  simp [isFakeIP, h]

/-- Wherever the counter starts, and also where it wraps around, 65536 values in succession give as many
addresses. -/
theorem fakeAddress_injective (hi : i < 65536) (hj : j < 65536)
    (h : fakeAddress (hashIP + BitVec.ofNat 32 i) = fakeAddress (hashIP + BitVec.ofNat 32 j)) : i = j := by
  have h := congrArg BitVec.toNat h
  rw [fakeAddress_toNat, fakeAddress_toNat, BitVec.toNat_add, BitVec.toNat_add, BitVec.toNat_ofNat,
    BitVec.toNat_ofNat] at h
  omega

/-! ## The loop -/

theorem probe_eq_some (h : probe maps n hashIP = some ip) :
    ∃ i, ip = fakeAddress (hashIP + BitVec.ofNat 32 i) ∧ ip ∉ maps.ipDomain := by
  induction n generalizing hashIP with
  | zero => cases h
  | succ n ih =>
      simp only [probe] at h
      split at h
      · obtain ⟨i, hi, hf⟩ := ih h
        refine ⟨i + 1, ?_, hf⟩
        rw [hi, BitVec.add_assoc, BitVec.ofNat_add, BitVec.add_comm 1]
        rfl
      · rename_i hf
        cases h
        exact ⟨0, by simp, hf⟩

theorem probe_eq_none (h : probe maps n hashIP = none) (hi : i < n) :
    fakeAddress (hashIP + BitVec.ofNat 32 i) ∈ maps.ipDomain := by
  induction n generalizing hashIP i with
  | zero => omega
  | succ n ih =>
      simp only [probe] at h
      split at h
      · rename_i hf
        cases i with
        | zero => simpa using hf
        | succ i =>
            have hn : hashIP + BitVec.ofNat 32 (i + 1) = hashIP + 1 + BitVec.ofNat 32 i := by
              rw [BitVec.ofNat_add, BitVec.add_assoc, BitVec.add_comm 1]
              rfl
            rw [hn]
            exact ih h (Nat.lt_of_succ_lt_succ hi)
      · cases h

/-- The pigeonhole principle: fewer than 65536 addresses cannot be all of the network. -/
theorem probe_isSome (h : maps.ipDomain.keys.length < 65536) (hashIP : BitVec 32) :
    ∃ ip, probe maps 65536 hashIP = some ip := by
  cases hp : probe maps 65536 hashIP with
  | some ip => exact ⟨ip, rfl⟩
  | none =>
      exfalso
      have hsub : (Finset.range 65536).image (fun i => fakeAddress (hashIP + BitVec.ofNat 32 i))
          ⊆ maps.ipDomain.keys.toFinset := by
        intro a ha
        obtain ⟨i, hi, rfl⟩ := Finset.mem_image.1 ha
        exact List.mem_toFinset.2 (AList.mem_keys.1 (probe_eq_none hp (Finset.mem_range.1 hi)))
      have hcard := Finset.card_le_card hsub
      rw [Finset.card_image_of_injOn, Finset.card_range] at hcard
      · exact absurd (hcard.trans (List.toFinset_card_le _)) (by omega)
      · intro i hi j hj hij
        exact fakeAddress_injective (Finset.mem_range.1 hi) (Finset.mem_range.1 hj) hij

/-! ## The maps -/

theorem keys_insert_of_notMem {α : Type} {β : α → Type} [DecidableEq α] {s : AList β} {a : α} {b : β a} (h : a ∉ s) :
    (s.insert a b).keys = a :: s.keys := by
  rw [AList.keys_insert, List.erase_of_not_mem (fun hm => h (AList.mem_keys.2 hm))]

/-- The two maps are inverse to each other, and lead to the fake network. -/
structure Maps.Inverse (maps : Maps) : Prop where
  lookup : ∀ d ip, maps.domainIP.lookup d = some ip ↔ maps.ipDomain.lookup ip = some d
  fake : ∀ d ip, maps.domainIP.lookup d = some ip → isFakeIP ip = true
  size : maps.ipDomain.keys.length = maps.domainIP.keys.length

/-- No entry of either map has changed. -/
structure Maps.Extends (maps maps' : Maps) : Prop where
  domainIP : ∀ d ip, maps.domainIP.lookup d = some ip → maps'.domainIP.lookup d = some ip
  ipDomain : ∀ ip d, maps.ipDomain.lookup ip = some d → maps'.ipDomain.lookup ip = some d

theorem Maps.Extends.refl (maps : Maps) : maps.Extends maps := ⟨fun _ _ h => h, fun _ _ h => h⟩

theorem Maps.Extends.trans {maps'' : Maps} (h : maps.Extends maps') (h' : maps'.Extends maps'') :
    maps.Extends maps'' where
  domainIP d ip hd := h'.domainIP d ip (h.domainIP d ip hd)
  ipDomain ip d hd := h'.ipDomain ip d (h.ipDomain ip d hd)

theorem Maps.inverse_empty : ({} : Maps).Inverse where
  lookup d ip := by simp
  fake d ip h := by simp at h
  size := rfl

/-- The maps with one more pair. -/
def Maps.add (maps : Maps) (domain : List Char) (ip : BitVec 32) : Maps where
  domainIP := maps.domainIP.insert domain ip
  ipDomain := maps.ipDomain.insert ip domain

theorem Maps.Inverse.add (h : maps.Inverse) (hd : maps.domainIP.lookup domain = none) (hi : ip ∉ maps.ipDomain)
    (hf : isFakeIP ip = true) : (maps.add domain ip).Inverse := by
  have hip : maps.ipDomain.lookup ip = none := AList.lookup_eq_none.2 hi
  refine ⟨?_, ?_, ?_⟩
  · intro d ip'
    simp only [Maps.add]
    by_cases hdd : d = domain
    · subst hdd
      rw [AList.lookup_insert]
      by_cases hii : ip' = ip
      · subst hii
        rw [AList.lookup_insert]
        simp
      · rw [AList.lookup_insert_ne hii, ← h.lookup, hd]
        simp [Ne.symm hii]
    · rw [AList.lookup_insert_ne hdd]
      by_cases hii : ip' = ip
      · subst hii
        rw [AList.lookup_insert, h.lookup, hip]
        simp [Ne.symm hdd]
      · rw [AList.lookup_insert_ne hii, h.lookup]
  · intro d ip' hl
    simp only [Maps.add] at hl
    by_cases hdd : d = domain
    · subst hdd
      rw [AList.lookup_insert] at hl
      cases hl
      exact hf
    · rw [AList.lookup_insert_ne hdd] at hl
      exact h.fake d ip' hl
  · simp only [Maps.add, keys_insert_of_notMem hi, keys_insert_of_notMem (AList.lookup_eq_none.1 hd),
      List.length_cons, h.size]

theorem Maps.extends_add (hd : maps.domainIP.lookup domain = none) (hi : ip ∉ maps.ipDomain) :
    maps.Extends (maps.add domain ip) where
  domainIP d ip' h := by
    have hne : d ≠ domain := by
      rintro rfl
      rw [hd] at h
      cases h
    simpa [Maps.add, AList.lookup_insert_ne hne] using h
  ipDomain ip' d h := by
    have hne : ip' ≠ ip := by
      rintro rfl
      rw [AList.lookup_eq_none.2 hi] at h
      cases h
    simpa [Maps.add, AList.lookup_insert_ne hne] using h

/-! ## Calls -/

/-- What one call does while an address is free: it returns, its domain has the address it returns, and at most that
domain is new. -/
theorem getOrCreateFakeIP_spec (hashCode : List Char → BitVec 32) (h : maps.Inverse)
    (hfree : maps.domainIP.lookup domain = none → maps.domainIP.keys.length < 65536) :
    ∃ maps' ip, getOrCreateFakeIP hashCode maps domain = some (maps', ip) ∧ maps'.Inverse ∧ maps.Extends maps' ∧
      maps'.domainIP.lookup domain = some ip ∧ maps'.domainIP.keys ⊆ domain :: maps.domainIP.keys := by
  unfold getOrCreateFakeIP
  cases hd : maps.domainIP.lookup domain with
  | some ip => exact ⟨maps, ip, rfl, h, .refl maps, hd, List.subset_cons_self _ _⟩
  | none =>
      obtain ⟨ip, hp⟩ := probe_isSome (h.size ▸ hfree hd) (hashCode domain)
      obtain ⟨i, rfl, hi⟩ := probe_eq_some hp
      rw [hp]
      refine ⟨maps.add domain _, _, rfl, h.add hd hi (isFakeIP_fakeAddress _), Maps.extends_add hd hi,
        AList.lookup_insert _, ?_⟩
      rw [Maps.add, keys_insert_of_notMem (AList.lookup_eq_none.1 hd)]
      exact List.Subset.refl _

/-- A sequence of calls, with the addresses they return; none when one of them does not return. -/
def fakeIPs (hashCode : List Char → BitVec 32) (maps : Maps) : List (List Char) → Option (Maps × List (BitVec 32))
  | [] => some (maps, [])
  | domain :: domains => do
      let (maps, ip) ← getOrCreateFakeIP hashCode maps domain
      let (maps, ips) ← fakeIPs hashCode maps domains
      return (maps, ip :: ips)

/-- Every domain was given the address that the maps have for it. -/
def Maps.Gave (maps : Maps) (domains : List (List Char)) (ips : List (BitVec 32)) : Prop :=
  List.Forall₂ (fun domain ip => maps.domainIP.lookup domain = some ip) domains ips

theorem Maps.Gave.mono {domains : List (List Char)} {ips : List (BitVec 32)} (h : maps.Gave domains ips)
    (he : maps.Extends maps') : maps'.Gave domains ips := List.Forall₂.imp (fun d ip => he.domainIP d ip) h

theorem fakeIPs_spec (hashCode : List Char → BitVec 32) (all : Finset (List Char)) (hall : all.card ≤ 65536)
    (domains : List (List Char)) (hdomains : ∀ d ∈ domains, d ∈ all) (h : maps.Inverse)
    (hkeys : ∀ d ∈ maps.domainIP.keys, d ∈ all) :
    ∃ maps' ips, fakeIPs hashCode maps domains = some (maps', ips) ∧ maps'.Inverse ∧ maps.Extends maps' ∧
      maps'.Gave domains ips ∧ ∀ d ∈ maps'.domainIP.keys, d ∈ all := by
  induction domains generalizing maps with
  | nil => exact ⟨maps, [], rfl, h, .refl maps, .nil, hkeys⟩
  | cons domain domains ih =>
      have hfree : maps.domainIP.lookup domain = none → maps.domainIP.keys.length < 65536 := by
        intro hd
        have hmem : domain ∈ all := hdomains domain List.mem_cons_self
        have hsub : maps.domainIP.keys.toFinset ⊆ all.erase domain := by
          intro d hdk
          have hdk := List.mem_toFinset.1 hdk
          refine Finset.mem_erase.2 ⟨?_, hkeys d hdk⟩
          rintro rfl
          exact AList.lookup_eq_none.1 hd (AList.mem_keys.2 hdk)
        have hcard := Finset.card_le_card hsub
        rw [List.toFinset_card_of_nodup maps.domainIP.keys_nodup, Finset.card_erase_of_mem hmem] at hcard
        have := Finset.card_pos.2 ⟨domain, hmem⟩
        omega
      obtain ⟨maps₁, ip, hcall, h₁, he₁, hl, hk₁⟩ := getOrCreateFakeIP_spec hashCode h hfree
      obtain ⟨maps₂, ips, hcalls, h₂, he₂, hg, hk₂⟩ := ih (fun d hd => hdomains d (List.mem_cons_of_mem _ hd)) h₁ (by
        intro d hd
        rcases List.mem_cons.1 (hk₁ hd) with rfl | hd
        · exact hdomains _ List.mem_cons_self
        · exact hkeys d hd)
      refine ⟨maps₂, ip :: ips, ?_, h₂, he₁.trans he₂, .cons (he₂.domainIP _ _ hl) hg, hk₂⟩
      simp only [fakeIPs, hcall, hcalls, Option.bind_eq_bind, Option.bind_some, Option.pure_def]

/-! ## The session of an address -/

theorem createSession_remoteHost {env : Env} (sessions : Sessions) (portKey : Int) (port : BitVec 16)
    (clock : Vpn.Clock)
    (hf : isFakeIP ip = true) (h : env.reverseLookup ip = some domain) :
    (NatSessionManager.createSession env sessions portKey ip port clock).2.remoteHost = domain := by
  simp [NatSessionManager.createSession, hf, h]

/-- Any number of calls for at most 65536 domains return. The addresses are fake, two calls return the same one
exactly for the same domain, the maps are inverse to each other and keep their entries, and a session that is
created later for an address is one for the domain it was handed out for. -/
theorem fakeIP_bijection (hashCode : List Char → BitVec 32) (before after : List (List Char))
    (h : (before ++ after).toFinset.card ≤ 65536) :
    ∃ maps₁ ips₁ maps₂ ips₂, fakeIPs hashCode {} before = some (maps₁, ips₁) ∧
      fakeIPs hashCode maps₁ after = some (maps₂, ips₂) ∧
      maps₁.Inverse ∧ maps₂.Inverse ∧ maps₁.Extends maps₂ ∧
      ips₁.length = before.length ∧ ips₂.length = after.length ∧
      (∀ ip ∈ ips₁ ++ ips₂, isFakeIP ip = true) ∧
      (∀ p ∈ (before ++ after).zip (ips₁ ++ ips₂), ∀ q ∈ (before ++ after).zip (ips₁ ++ ips₂), p.1 = q.1 ↔ p.2 = q.2) ∧
      ∀ p ∈ (before ++ after).zip (ips₁ ++ ips₂), ∀ charset sessions portKey port clock,
        (NatSessionManager.createSession { charset, reverseLookup := maps₂.reverseLookup } sessions portKey p.2 port
          clock).2.remoteHost = p.1 := by
  obtain ⟨maps₁, ips₁, hrun₁, h₁, -, hg₁, hk₁⟩ := fakeIPs_spec hashCode (before ++ after).toFinset h before
    (fun d hd => List.mem_toFinset.2 (List.mem_append_left _ hd)) Maps.inverse_empty (by simp)
  obtain ⟨maps₂, ips₂, hrun₂, h₂, he, hg₂, -⟩ := fakeIPs_spec hashCode (before ++ after).toFinset h after
    (fun d hd => List.mem_toFinset.2 (List.mem_append_right _ hd)) h₁ hk₁
  have hg : maps₂.Gave (before ++ after) (ips₁ ++ ips₂) := List.rel_append (hg₁.mono he) hg₂
  have hzip : ∀ p ∈ (before ++ after).zip (ips₁ ++ ips₂), maps₂.domainIP.lookup p.1 = some p.2 :=
    fun p hp => (List.forall₂_iff_zip.1 hg).2 hp
  refine ⟨maps₁, ips₁, maps₂, ips₂, hrun₁, hrun₂, h₁, h₂, he, hg₁.length_eq.symm, hg₂.length_eq.symm, ?_, ?_, ?_⟩
  · intro ip hip
    obtain ⟨d, hd⟩ : ∃ d, (d, ip) ∈ (before ++ after).zip (ips₁ ++ ips₂) := by
      obtain ⟨i, hi, rfl⟩ := List.mem_iff_getElem.1 hip
      have hlen := hg.length_eq
      refine ⟨(before ++ after)[i], ?_⟩
      exact List.mem_iff_getElem.2 ⟨i, by simp only [List.length_zip]; omega, by simp⟩
    exact h₂.fake d ip (hzip _ hd)
  · intro p hp q hq
    constructor
    · intro heq
      have hp' := hzip p hp
      rw [heq] at hp'
      exact Option.some.inj (hp'.symm.trans (hzip q hq))
    · intro heq
      have hp' := (h₂.lookup _ _).1 (hzip p hp)
      rw [heq] at hp'
      exact Option.some.inj (hp'.symm.trans ((h₂.lookup _ _).1 (hzip q hq)))
  · intro p hp charset sessions portKey port clock
    have hl := hzip p hp
    exact createSession_remoteHost sessions portKey port clock (h₂.fake _ _ hl) ((h₂.lookup _ _).1 hl)

/-- Two domains with one hash code, at the counter's end: the second gets the address after it has wrapped around. -/
theorem fakeIP_bijection_collision :
    ∃ maps₁ ips₁ maps₂ ips₂, fakeIPs (fun _ => 0xFFFFFFFF) {} [['a']] = some (maps₁, ips₁) ∧
      fakeIPs (fun _ => 0xFFFFFFFF) maps₁ [['b'], ['a']] = some (maps₂, ips₂) ∧ maps₂.Inverse ∧
      maps₁.Extends maps₂ ∧ ips₂.length = 2 := by
  obtain ⟨maps₁, ips₁, maps₂, ips₂, h₁, h₂, -, hi, he, -, hl, -⟩ :=
    fakeIP_bijection (fun _ => 0xFFFFFFFF) [['a']] [['b'], ['a']] (by decide)
  exact ⟨maps₁, ips₁, maps₂, ips₂, h₁, h₂, hi, he, hl⟩

example : (fakeIPs (fun _ => 0xFFFFFFFF) {} [['a'], ['b'], ['a']]).map (·.2) =
    some [0xAC19FFFF, 0xAC190000, 0xAC19FFFF] := by
  decide +kernel

end TunProxy.Dns
