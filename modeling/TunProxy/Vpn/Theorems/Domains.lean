import TunProxy.Vpn.Lemmas.Domains

/-!
# The most specific name decides
-/

namespace TunProxy.Vpn

open Lib

variable {p : Platform} {c : ProxyConfig} {host : List Char}

namespace ProxyConfig

theorem entries_ne {lines : List DomainLine} {e : List Char × Bool} (h : e ∈ entriesOf lines) : e.1 ≠ [] := by
  obtain ⟨l, -, he⟩ := List.mem_flatMap.1 h
  obtain ⟨i, -, rfl⟩ := List.mem_map.1 he
  exact i.name_ne

/-- The loop finds the state that the most specific name decides, or no name covers the host. -/
theorem domainState_entries (lines : List DomainLine) (host : List Char) :
    (∃ state, Decides (entriesOf lines) host state ∧ domainState (insertAll ∅ (entriesOf lines)) host = some state) ∨
    (∀ e ∈ entriesOf lines, ¬Covers e.1 host) ∧ domainState (insertAll ∅ (entriesOf lines)) host = none := by
  have hlisted : ∀ e ∈ entriesOf lines, (insertAll ∅ (entriesOf lines)).lookup e.1 ≠ none := by
    intro e he hnone
    obtain ⟨state, hlast⟩ | hno := lastOf_or_none (entriesOf lines) e.1
    · rw [lookup_insertAll_of_last hlast] at hnone
      cases hnone
    · exact hno e he rfl
  have hempty : (insertAll ∅ (entriesOf lines)).lookup [] = none :=
    lookup_insertAll_of_not fun e he => entries_ne he
  cases h : domainState (insertAll ∅ (entriesOf lines)) host with
  | some state =>
      obtain ⟨name, hcovers, hlookup, hlongest⟩ := domainState_some h
      refine .inl ⟨state, ⟨name, hcovers, lookup_insertAll_empty.1 hlookup, fun e he hcov => ?_⟩, rfl⟩
      exact hlongest e.1 hcov (hlisted e he)
  | none => exact .inr ⟨fun e he hcov => hlisted e he (domainState_none hempty h hcov), rfl⟩

theorem needProxy_eq {china : ChinaIpMaskManager} {ip : BitVec 32} (h : c.globalMode = false) :
    c.needProxy p china (some host) ip = (getDomainState p c host).getD (addressRule c china ip) := by
  rw [needProxy, h, if_neg Bool.false_ne_true, Option.bind_some]
  cases getDomainState p c host with
  | some state => rfl
  | none =>
      simp only [Option.getD_none, addressRule]
      cases isFakeIP ip with
      | true => rfl
      | false =>
          by_cases hip : ip = 0
          · simp [hip]
          · cases c.outsideChinaUseProxy with
            | true => simp
            | false => simp

/-- The longest listed name that covers the host decides with the state loaded last for it, and where no name covers the
host the address does. -/
theorem needProxy_domains (p : Platform) (c : ProxyConfig) (lines : List DomainLine) (china : ChinaIpMaskManager)
    (hglobal : c.globalMode = false) :
    ∃ c', loadFromLines p (lines.map DomainLine.text) c = .ok () c' ∧
      ∀ host ip, (∀ ch ∈ host, ch.toNat < 128) →
        (∃ state, Decides (entriesOf lines) (host.map Char.toLower) state ∧
          c'.needProxy p china (some host) ip = state) ∨
        (∀ e ∈ entriesOf lines, ¬Covers e.1 (host.map Char.toLower)) ∧
          c'.needProxy p china (some host) ip = addressRule c china ip := by
  refine ⟨_, loadFromLines_domains p lines c, fun host ip hascii => ?_⟩
  have hneed : (putDomains (entriesOf lines) (clear c)).needProxy p china (some host) ip =
      ((domainState (insertAll ∅ (entriesOf lines)) (host.map Char.toLower)).getD (addressRule c china ip)) := by
    rw [needProxy_eq (c := putDomains (entriesOf lines) (clear c)) hglobal, getDomainState,
      p.toLowerCase_ascii host hascii]
    rfl
  obtain ⟨state, hdecides, hstate⟩ | ⟨hnone, hstate⟩ := domainState_entries lines (host.map Char.toLower)
  · exact .inl ⟨state, hdecides, by rw [hneed, hstate, Option.getD_some]⟩
  · exact .inr ⟨hnone, by rw [hneed, hstate, Option.getD_none]⟩

/-! ## Two lines -/

def samplePlatform : Platform where
  toLowerCase s := s.map Char.toLower
  digit ch := if ch.isDigit then some (ch.toNat - 48) else none
  uriHost s := some ((s.drop 7).takeWhile (· ≠ '/'))
  uriPort _ := -1
  resolve host _ := ⟨host, host⟩
  toLowerCase_ascii _ _ := rfl

def sampleItem : DomainItem where
  blanks := [' ']
  text := ".a.b".toList
  blanks_ne := List.cons_ne_nil _ _
  isBlank := List.forall_mem_singleton.2 (.inl rfl)
  text_ne := ⟨List.cons_ne_nil _ _, by decide⟩
  isNameChar := by
    have h : ∀ ch ∈ ".a.b".toList, ch.isAlphanum ∨ ch = '-' ∨ ch = '.' := List.all_iff_forall_prop.1 (by decide)
    exact h

/-- `Proxy_Domain .a.b` -/
def sampleLine : DomainLine where
  state := true
  tag := "Proxy_Domain".toList
  items := [sampleItem]
  blanks := []
  tag_eq := rfl
  items_ne := List.cons_ne_nil _ _
  isBlank := List.forall_mem_nil _

theorem needProxy_domains_sample :
    ∃ c', loadFromLines samplePlatform ([sampleLine].map DomainLine.text) .initial = .ok () c' ∧
      ∀ host ip, (∀ ch ∈ host, ch.toNat < 128) →
        (∃ state, Decides (entriesOf [sampleLine]) (host.map Char.toLower) state ∧
          c'.needProxy samplePlatform {} (some host) ip = state) ∨
        (∀ e ∈ entriesOf [sampleLine], ¬Covers e.1 (host.map Char.toLower)) ∧
          c'.needProxy samplePlatform {} (some host) ip = addressRule .initial {} ip :=
  needProxy_domains samplePlatform .initial [sampleLine] {} rfl

end ProxyConfig

end TunProxy.Vpn
