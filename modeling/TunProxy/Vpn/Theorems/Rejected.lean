import TunProxy.Vpn.Lemmas.Updates
import TunProxy.Vpn.Theorems.Domains

/-!
# A configuration that is rejected

The collections are cleared before the first line is read, and what the lines before the rejected one ask for has been
done when it is thrown: nothing puts the configuration back.
-/

namespace TunProxy.Vpn.ProxyConfig

/-- A rejected file leaves the configuration as it was only where that is what its updates amount to. -/
theorem rejected_same_iff (p : Platform) (lines : List (List Char)) (c : ProxyConfig) :
    (∀ e c', loadFromLines p lines c = .error e c' → c'.Same c) ↔
      (readFile p lines).rejected = none ∨ c.Describes (readFile p lines).updates := by
  rw [loadFromLines_eq, Reading.ending]
  cases (readFile p lines).rejected with
  | none =>
      apply iff_of_true
      · intro e c' h
        cases h
      · exact .inl rfl
  | some e =>
      rw [← same_applyAll_iff]
      constructor
      · intro h
        exact .inr (h e _ rfl)
      · rintro (h | h) e' c' hend
        · cases h
        · cases hend
          exact h

theorem splitWords_mtu : splitWords "mtu x".toList = ["mtu".toList, "x".toList] := by
  simp [splitWords, wordPieces, isSpace]

/-- A configuration that has nothing to lose is as before once the line is rejected. -/
theorem rejected_same_iff_initial : ∀ e c',
    loadFromLines samplePlatform ["mtu x".toList] .initial = .error e c' → c'.Same .initial := by
  have hread : (readFile samplePlatform ["mtu x".toList]).updates = [] := by
    simp only [readFile, readLines, splitWords_mtu]
    rfl
  refine (rejected_same_iff samplePlatform ["mtu x".toList] .initial).2 (.inr ?_)
  rw [hread, ← same_applyAll_iff]
  exact ⟨fun _ => rfl, rfl, fun _ => rfl, rfl, fun _ => rfl⟩

/-- An address is lost to a line whose number is none. -/
theorem rejected_not_same : ∃ e c',
    loadFromLines samplePlatform ["mtu x".toList] { ProxyConfig.initial with ipList := [⟨"10.0.0.1".toList, 32⟩] } =
      .error e c' ∧ ¬c'.Same { ProxyConfig.initial with ipList := [⟨"10.0.0.1".toList, 32⟩] } := by
  refine ⟨.line 1 "mtu".toList .numberFormat, .initial, ?_, fun h => ?_⟩
  · unfold loadFromLines loadLines
    rw [splitWords_mtu]
    rfl
  · cases h.addresses .ip

end TunProxy.Vpn.ProxyConfig
