import Mathlib.Algebra.Order.BigOperators.Group.List
import TunProxy.Vpn.Host

/-!
# A host name takes more than ten bytes
-/

namespace TunProxy.Vpn

open Native (Bytes)
open HttpHostHeaderParser

variable {c : Charset} {buffer : Bytes} {offset count : Nat} {sep s host : List Char} {ps : List (List Char)}

/-- The pieces and the separators between them make up the string. -/
theorem length_pieces (hsep : sep ≠ []) :
    ((pieces sep s).map fun p => p.length + sep.length).sum = s.length + sep.length := by
  have hpos : 0 < sep.length := List.length_pos_iff.2 hsep
  induction s using pieces.induct sep with
  | case1 => simp [pieces]
  | case2 ch s h ih =>
      have hle := (List.isPrefixOf_iff_prefix.1 h).length_le
      rw [pieces, if_pos h, List.map_cons, List.sum_cons, ih]
      simp only [List.length_cons, List.length_drop, List.length_nil] at hle ⊢
      omega
  | case3 ch s h hp ih =>
      rw [hp] at ih
      simp at ih
      omega
  | case4 ch s h p ps hp ih =>
      rw [pieces, if_neg h, hp]
      rw [hp] at ih
      simp only [List.map_cons, List.sum_cons, List.length_cons] at ih ⊢
      omega

/-- `split` leaves pieces out at the end only. -/
theorem split_prefix (sep s : List Char) : split sep s <+: pieces sep s := by
  unfold split
  split
  · rename_i p hp
    exact ⟨[], by rw [hp, List.append_nil]⟩
  · exact List.rdropWhile_prefix _ _

theorem length_split (s : List Char) (hsep : sep ≠ []) :
    ((split sep s).map fun p => p.length + sep.length).sum ≤ s.length + sep.length := by
  rw [← length_pieces hsep]
  obtain ⟨rest, h⟩ := split_prefix sep s
  rw [← h, List.map_append, List.sum_append]
  exact Nat.le_add_right _ _

/-- The last of several pieces that are kept is not empty. -/
theorem split_pair {p q : List Char} (h : split sep s = [p, q]) : q ≠ [] := by
  unfold split at h
  split at h
  · cases h
  · have := List.rdropWhile_last_not (·.isEmpty) (pieces sep s) (by rw [h]; simp)
    simp only [h] at this
    simpa using this

theorem length_trim : (trim s).length ≤ s.length := by
  unfold trim
  exact ((List.rdropWhile_prefix _ _).length_le).trans (List.dropWhile_suffix _).length_le

/-- A line that gives the host has its name, a colon and a value. -/
theorem length_hostOfLines (h : hostOfLines ps = some host) : ∃ line ∈ ps, 6 ≤ line.length := by
  induction ps with
  | nil => cases h
  | cons line ps ih =>
      rw [hostOfLines] at h
      split at h
      · rename_i name value hl
        split at h
        · rename_i hname
          have hn := length_trim (s := name.map Char.toLower)
          have hv := List.length_pos_iff.2 (split_pair hl)
          have hs := length_split line (List.cons_ne_nil ':' [])
          rw [hname] at hn
          rw [hl] at hs
          simp at hn hs
          exact ⟨line, List.mem_cons_self, by omega⟩
        · obtain ⟨l, hl, h6⟩ := ih h
          exact ⟨l, List.mem_cons_of_mem _ hl, h6⟩
      · obtain ⟨l, hl, h6⟩ := ih h
        exact ⟨l, List.mem_cons_of_mem _ hl, h6⟩

theorem length_newString (h : newString c buffer offset count = some s) : s.length ≤ count := by
  unfold newString at h
  split at h
  · cases h
    exact (c.length_le _).trans (List.length_take_le _ _)
  · cases h

theorem count_of_getHttpHost (h : getHttpHost c buffer offset count = some (some host)) : 10 < count := by
  simp only [getHttpHost, Option.bind_eq_bind, Option.bind_eq_some_iff] at h
  obtain ⟨str, hstr, h⟩ := h
  have hlen := length_newString hstr
  have hs := length_split str (List.cons_ne_nil '\r' ['\n'])
  split at h
  · cases h
  · rename_i requestLine lines hl
    rw [hl, List.map_cons, List.sum_cons] at hs
    split at h
    · rename_i hreq
      obtain ⟨line, hline, h6⟩ := length_hostOfLines (Option.some.inj h)
      have hsum := List.single_le_sum (l := lines.map fun p => p.length + ['\r', '\n'].length)
        (fun _ _ => Nat.zero_le _) _ (List.mem_map_of_mem hline)
      have h3 : 3 ≤ requestLine.length := by
        obtain ⟨m, hm, hp⟩ := List.any_eq_true.1 hreq
        have hle := (List.isPrefixOf_iff_prefix.1 hp).length_le
        have : 3 ≤ m.toList.length := by
          simp only [List.mem_cons, List.not_mem_nil, or_false] at hm
          rcases hm with rfl | rfl | rfl | rfl <;> decide
        omega
      simp only [List.length_cons, List.length_nil] at hs hsum
      omega
    · cases h

theorem count_of_getSNI (h : getSNI c buffer offset count = some (some host)) : 10 < count := by
  by_contra hc
  simp only [getSNI, Option.bind_eq_bind, Option.bind_eq_some_iff] at h
  obtain ⟨b, -, h⟩ := h
  rw [if_neg (by omega)] at h
  cases h

/-- The condition under which the service looks for a host is met wherever there is one. -/
theorem count_of_parseHost (h : parseHost c buffer offset count = some host) : 10 < count := by
  unfold parseHost at h
  split at h
  · cases h
  · split at h
    · exact count_of_getHttpHost (Option.join_eq_some_iff.1 h)
    · split at h
      · exact count_of_getSNI (Option.join_eq_some_iff.1 h)
      · cases h

end TunProxy.Vpn
