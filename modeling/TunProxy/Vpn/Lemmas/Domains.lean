import Mathlib.Data.Bool.AllAny
import TunProxy.Vpn.DomainRules
import TunProxy.Vpn.Lemmas.Lines

/-!
# Loading domain rules, and the loop that asks for them
-/

namespace TunProxy.Vpn

open Lib

variable {p : Platform} {c : ProxyConfig} {map : AList fun _ : List Char => Bool} {a rest name host : List Char}
  {state : Bool}

/-! ## The loop over the dots -/

theorem covers_dot (h : '.' ∉ a) : Covers name (a ++ '.' :: rest) ↔ name = a ++ '.' :: rest ∨ Covers name rest := by
  constructor
  · rintro (rfl | ⟨before, hbefore⟩)
    · exact .inl rfl
    · right
      obtain ⟨w, rfl, hw⟩ | ⟨w, rfl, hw⟩ := List.append_eq_append_iff.1 hbefore
      · cases w with
        | nil => exact .inl (List.cons.inj hw).2.symm
        | cons ch w => exact .inr ⟨w, (List.cons.inj hw).2⟩
      · cases w with
        | nil => exact .inl (List.cons.inj hw).2
        | cons ch w =>
            obtain ⟨rfl, -⟩ := List.cons.inj hw
            exact absurd (List.mem_append_right _ List.mem_cons_self) h
  · rintro (rfl | rfl | ⟨before, rfl⟩)
    · exact .inl rfl
    · exact .inr ⟨a, rfl⟩
    · exact .inr ⟨a ++ '.' :: before, by rw [List.append_assoc, List.cons_append]⟩

theorem covers_plain (h : '.' ∉ host) : Covers name host ↔ name = host := by
  refine or_iff_left ?_
  rintro ⟨before, rfl⟩
  exact h (List.mem_append_right _ List.mem_cons_self)

theorem length_le_of_covers (h : Covers name host) : name.length ≤ host.length := by
  obtain rfl | ⟨before, rfl⟩ := h
  · exact Nat.le_refl _
  · rw [List.length_append, List.length_cons]
    omega

namespace ProxyConfig

theorem domainState_nil : domainState map [] = none := by
  rw [domainState]
  rfl

theorem domainState_dot (h : '.' ∉ a) :
    domainState map (a ++ '.' :: rest) = (map.lookup (a ++ '.' :: rest)).or (domainState map rest) := by
  have hidx : (a ++ '.' :: rest).idxOf '.' = a.length := by
    rw [List.idxOf_append_of_notMem h, List.idxOf_cons_self, Nat.add_zero]
  have hdrop : (a ++ '.' :: rest).drop (a.length + 1) = rest := by
    rw [List.append_cons, List.drop_left' (by rw [List.length_append, List.length_singleton])]
  rw [domainState, if_pos (by simp), hidx]
  cases map.lookup (a ++ '.' :: rest) with
  | some state => rfl
  | none =>
      simp only [hdrop, Option.none_or]
      split
      · rfl
      · rename_i hlt
        rw [List.length_append, List.length_cons] at hlt
        rw [List.length_eq_zero_iff.1 (show rest.length = 0 by omega), domainState_nil]

theorem domainState_plain (h : '.' ∉ host) (hne : host ≠ []) : domainState map host = map.lookup host := by
  rw [domainState, if_pos (List.length_pos_iff.2 hne), List.idxOf_eq_length h]
  cases map.lookup host with
  | some state => rfl
  | none =>
      simp only []
      rw [if_neg (by omega)]

/-- The state of the longest name in the table that covers the host. -/
theorem domainState_some (h : domainState map host = some state) :
    ∃ name, Covers name host ∧ map.lookup name = some state ∧
      ∀ name', Covers name' host → map.lookup name' ≠ none → name'.length ≤ name.length := by
  induction hn : host.length using Nat.strongRecOn generalizing host with
  | ind n ih =>
      by_cases hdot : '.' ∈ host
      · obtain ⟨a, rest, rfl, ha⟩ := List.eq_append_cons_of_mem hdot
        rw [domainState_dot ha, Option.or_eq_some_iff] at h
        obtain h | ⟨hnone, h⟩ := h
        · exact ⟨_, .inl rfl, h, fun name' hname' _ => length_le_of_covers hname'⟩
        · have hlt : rest.length < n := by
            rw [← hn, List.length_append, List.length_cons]
            omega
          obtain ⟨name, hcovers, hlookup, hlongest⟩ := ih rest.length hlt h rfl
          refine ⟨name, (covers_dot ha).2 (.inr hcovers), hlookup, fun name' hname' hne => ?_⟩
          obtain rfl | hname' := (covers_dot ha).1 hname'
          · exact absurd hnone hne
          · exact hlongest name' hname' hne
      · have hne : host ≠ [] := by
          rintro rfl
          rw [domainState_nil] at h
          cases h
        rw [domainState_plain hdot hne] at h
        exact ⟨host, .inl rfl, h, fun name' hname' _ => length_le_of_covers hname'⟩

theorem domainState_none (hmap : map.lookup [] = none) (h : domainState map host = none) (hname : Covers name host) :
    map.lookup name = none := by
  induction hn : host.length using Nat.strongRecOn generalizing host with
  | ind n ih =>
      by_cases hdot : '.' ∈ host
      · obtain ⟨a, rest, rfl, ha⟩ := List.eq_append_cons_of_mem hdot
        rw [domainState_dot ha, Option.or_eq_none_iff] at h
        have hlt : rest.length < n := by
          rw [← hn, List.length_append, List.length_cons]
          omega
        obtain rfl | hname := (covers_dot ha).1 hname
        · exact h.1
        · exact ih rest.length hlt h.2 hname rfl
      · obtain rfl := (covers_plain hdot).1 hname
        by_cases hne : name = []
        · rw [hne]
          exact hmap
        · rwa [domainState_plain hdot hne] at h

end ProxyConfig

/-! ## The lines -/

/-- A piece ends where the next blanks begin. -/
theorem wordPieces_append {w blanks s : List Char} (hw : ∀ ch ∈ w, isSpace ch = false)
    (hb : ∀ ch ∈ blanks, isSpace ch = true) (hne : blanks ≠ []) (hs : s.dropWhile isSpace = s) :
    wordPieces (w ++ blanks ++ s) = w :: wordPieces s := by
  induction w with
  | nil =>
      cases blanks with
      | nil => exact absurd rfl hne
      | cons b bs =>
          obtain ⟨hb, hbs⟩ := List.forall_mem_cons.1 hb
          rw [List.nil_append, List.cons_append, wordPieces, if_pos hb, List.dropWhile_append_of_pos hbs, hs]
  | cons ch w ih =>
      obtain ⟨hch, hw⟩ := List.forall_mem_cons.1 hw
      rw [List.cons_append, List.cons_append, wordPieces, if_neg (by rw [hch]; exact Bool.false_ne_true), ih hw]

theorem wordPieces_of_not {w : List Char} (hw : ∀ ch ∈ w, isSpace ch = false) : wordPieces w = [w] := by
  induction w with
  | nil => rw [wordPieces]
  | cons ch w ih =>
      obtain ⟨hch, hw⟩ := List.forall_mem_cons.1 hw
      rw [wordPieces, if_neg (by rw [hch]; exact Bool.false_ne_true), ih hw]

theorem isSpace_of_isBlank {ch : Char} (h : IsBlank ch) : isSpace ch = true := by
  obtain rfl | rfl := h
  · decide
  · decide

theorem toNat_le_of_isAlphanum {ch : Char} (h : ch.isAlphanum = true) : ch.toNat ≤ 'z'.toNat := by
  obtain hletter | hdigit := Bool.or_eq_true_iff.1 h
  · obtain hupper | hlower := Bool.or_eq_true_iff.1 hletter
    · exact Nat.le_trans (show ch.toNat ≤ 'Z'.toNat from (of_decide_eq_true hupper).2) (by decide)
    · exact of_decide_eq_true (Bool.and_eq_true_iff.1 hlower).2
  · have hle : ch.toNat ≤ '9'.toNat := of_decide_eq_true (Bool.and_eq_true_iff.1 hdigit).2
    exact Nat.le_trans hle (by decide)

theorem IsNameChar.lt {ch : Char} (h : IsNameChar ch) : ch.toNat < 128 := by
  obtain h | rfl | rfl := h
  · exact Nat.lt_of_le_of_lt (toNat_le_of_isAlphanum h) (by decide)
  · decide
  · decide

/-- A character of a name is none that the reading of a line looks for. -/
theorem IsNameChar.plain {ch : Char} (h : IsNameChar ch) : isSpace ch = false ∧ ch ≠ ':' ∧
    ¬ch.toLower ≤ ' ' ∧ (ch.toLower = '.' → ch = '.') := by
  have hall : ∀ n < 128, ((Char.ofNat n).isAlphanum = true ∨ Char.ofNat n = '-' ∨ Char.ofNat n = '.') →
      isSpace (Char.ofNat n) = false ∧ Char.ofNat n ≠ ':' ∧ ¬(Char.ofNat n).toLower ≤ ' ' ∧
        ((Char.ofNat n).toLower = '.' → Char.ofNat n = '.') := by decide
  have := hall ch.toNat h.lt
  rw [Char.ofNat_toNat] at this
  exact this h

namespace DomainItem

theorem plain (i : DomainItem) : ∀ ch ∈ i.text, isSpace ch = false := fun ch hch => (i.isNameChar ch hch).plain.1

theorem domainName_eq (p : Platform) (i : DomainItem) : ProxyConfig.domainName p i.text = .ok i.name := by
  have hlower := p.toLowerCase_ascii i.text fun ch hch => (i.isNameChar ch hch).lt
  have htrim : trim (i.text.map Char.toLower) = i.text.map Char.toLower := by
    refine trim_eq_self fun ch hch => ?_
    obtain ⟨ch, hmem, rfl⟩ := List.mem_map.1 hch
    exact (i.isNameChar ch hmem).plain.2.2.1
  rw [ProxyConfig.domainName, hlower, htrim, DomainItem.name]
  cases ht : i.text with
  | nil => exact absurd ht i.text_ne.1
  | cons ch rest =>
      rw [List.map_cons]
      by_cases hch : ch = '.'
      · subst hch
        rfl
      · have hlow : ch.toLower ≠ '.' := fun h => hch ((i.isNameChar ch (ht ▸ List.mem_cons_self)).plain.2.2.2 h)
        simp only []
        rw [if_neg hlow, List.head?_cons, if_neg fun h => hch (Option.some.inj h), List.map_cons]

theorem name_ne (i : DomainItem) : i.name ≠ [] := by
  rw [DomainItem.name, Ne, List.map_eq_nil_iff]
  obtain ⟨hne, hdot⟩ := i.text_ne
  cases ht : i.text with
  | nil => exact absurd ht hne
  | cons ch rest =>
      rw [List.head?_cons, List.tail_cons]
      split
      · rename_i hch
        rintro rfl
        rw [ht, Option.some.inj hch] at hdot
        exact hdot rfl
      · exact List.cons_ne_nil _ _

end DomainItem

namespace DomainLine

variable {l : DomainLine}

theorem wordPieces_items {w blanks : List Char} (hw : ∀ ch ∈ w, isSpace ch = false) (hb : ∀ ch ∈ blanks, IsBlank ch)
    (items : List DomainItem) :
    wordPieces (w ++ (items.flatMap fun i => i.blanks ++ i.text) ++ blanks) =
      (w :: items.map DomainItem.text) ++ if blanks = [] then [] else [[]] := by
  induction items generalizing w with
  | nil =>
      rw [List.flatMap_nil, List.append_nil, List.map_nil]
      by_cases hne : blanks = []
      · rw [if_pos hne, hne, List.append_nil, wordPieces_of_not hw]
        rfl
      · have h := wordPieces_append hw (fun ch hch => isSpace_of_isBlank (hb ch hch)) hne (s := []) rfl
        rw [List.append_nil] at h
        rw [if_neg hne, h, wordPieces]
        rfl
  | cons i items ih =>
      have hstart : (i.text ++ ((items.flatMap fun i => i.blanks ++ i.text) ++ blanks)).dropWhile isSpace
          = i.text ++ ((items.flatMap fun i => i.blanks ++ i.text) ++ blanks) := by
        cases ht : i.text with
        | nil => exact absurd ht i.text_ne.1
        | cons ch rest =>
            have hch := i.plain ch (ht ▸ List.mem_cons_self)
            rw [List.cons_append, List.dropWhile_cons_of_neg (by rw [hch]; exact Bool.false_ne_true)]
      have h := wordPieces_append hw (fun ch hch => isSpace_of_isBlank (i.isBlank ch hch)) i.blanks_ne hstart
      rw [← List.append_assoc i.text, ih i.plain] at h
      rw [List.flatMap_cons, List.map_cons, List.cons_append, ← h]
      simp only [List.append_assoc]

theorem tag_plain (l : DomainLine) : ∀ ch ∈ l.tag, isSpace ch = false ∧ ch ≠ ':' := by
  have htags : ∀ ch : Char, ch.toLower ∈ "proxy_domain".toList ++ "direct_domain".toList →
      isSpace ch = false ∧ ch ≠ ':' := by
    intro ch hch
    unfold Char.toLower at hch
    split at hch
    · rename_i hupper
      have hall : ∀ n < 91, 65 ≤ n → isSpace (Char.ofNat n) = false ∧ Char.ofNat n ≠ ':' := by decide
      have h := hall ch.toNat (Nat.lt_succ_of_le hupper.2) hupper.1
      rwa [Char.ofNat_toNat] at h
    · have hall : ∀ ch ∈ "proxy_domain".toList ++ "direct_domain".toList, isSpace ch = false ∧ ch ≠ ':' :=
        List.all_iff_forall_prop.1 (by decide)
      exact hall ch hch
  intro ch hch
  have hmem : ch.toLower ∈ l.tag.map Char.toLower := List.mem_map_of_mem hch
  rw [l.tag_eq] at hmem
  refine htags ch (List.mem_append.2 ?_)
  split at hmem
  · exact .inl hmem
  · exact .inr hmem

theorem splitWords_text (l : DomainLine) : splitWords l.text = l.tag :: l.items.map DomainItem.text := by
  have hpieces := wordPieces_items (fun ch hch => (l.tag_plain ch hch).1) l.isBlank l.items
  obtain ⟨i, items, hitems⟩ := List.exists_cons_of_ne_nil l.items_ne
  have hlast :
    (l.tag :: l.items.map DomainItem.text).rdropWhile (·.isEmpty) = l.tag :: l.items.map DomainItem.text := by
    rw [List.rdropWhile_eq_self_iff]
    intro hne hempty
    have hmap : l.items.map DomainItem.text ≠ [] := by
      rw [hitems]
      exact List.cons_ne_nil _ _
    rw [List.getLast_cons hmap] at hempty
    obtain ⟨j, -, hj⟩ := List.mem_map.1 (List.getLast_mem hmap)
    rw [← hj] at hempty
    exact j.text_ne.1 (List.isEmpty_iff.1 hempty)
  rw [splitWords, text, hpieces, hitems]
  rw [hitems] at hlast
  split
  · rename_i heq
    cases heq
  · split
    · rw [List.append_nil]
      exact hlast
    · rw [List.rdropWhile_concat_pos _ _ _ rfl]
      exact hlast

theorem colon_not_mem (l : DomainLine) : ':' ∉ l.text := by
  have hblank : ∀ ch : Char, IsBlank ch → ch ≠ ':' := by
    rintro ch (rfl | rfl)
    · decide
    · decide
  intro h
  simp only [text, List.mem_append, List.mem_flatMap] at h
  obtain (h | ⟨i, -, h | h⟩) | h := h
  · exact (l.tag_plain _ h).2 rfl
  · exact hblank _ (i.isBlank _ h) rfl
  · exact (i.isNameChar _ h).plain.2.1 rfl
  · exact hblank _ (l.isBlank _ h) rfl

theorem trim_tag (l : DomainLine) : trim (l.tag.map Char.toLower) = l.tag.map Char.toLower ∧
    startsWith (l.tag.map Char.toLower) "#" = false := by
  rw [l.tag_eq]
  cases l.state with
  | true => decide
  | false => decide

end DomainLine

/-! ## Loading them -/

namespace ProxyConfig

def putDomains (entries : List (List Char × Bool)) (c : ProxyConfig) : ProxyConfig :=
  { c with domainMap := insertAll c.domainMap entries }

theorem putDomains_append (es es' : List (List Char × Bool)) (c : ProxyConfig) :
    putDomains (es ++ es') c = putDomains es' (putDomains es c) := by
  rw [putDomains, insertAll_append]
  rfl

theorem addDomainToHashMap_items (p : Platform) (state : Bool) (items : List DomainItem) (c : ProxyConfig) :
    addDomainToHashMap p state (items.map DomainItem.text) c =
      .ok () (putDomains (items.map fun i => (i.name, state)) c) := by
  induction items generalizing c with
  | nil => rfl
  | cons i items ih =>
      rw [List.map_cons, addDomainToHashMap, i.domainName_eq]
      exact ih (putDomain i.name state c)

theorem loadTag_domain (p : Platform) (l : DomainLine) (line value : List Char) (items : List (List Char)) :
    loadTag p line (l.tag.map Char.toLower) value items = addDomainToHashMap p l.state items := by
  rw [l.tag_eq]
  cases l.state with
  | true => rfl
  | false => rfl

theorem loadLines_domains (p : Platform) (n : Nat) (lines : List DomainLine) (c : ProxyConfig) :
    loadLines p n (lines.map DomainLine.text) c = .ok () (putDomains (entriesOf lines) c) := by
  induction lines generalizing n c with
  | nil => rfl
  | cons l lines ih =>
      obtain ⟨i, items, hitems⟩ := List.exists_cons_of_ne_nil l.items_ne
      obtain ⟨htrim, hcomment⟩ := l.trim_tag
      have hload := addDomainToHashMap_items p l.state l.items c
      have hsplit := l.splitWords_text
      rw [hitems, List.map_cons] at hsplit hload
      rw [List.map_cons, loadLines, hsplit]
      simp only [htrim, hcomment, Bool.not_false, if_true, loadTag_domain]
      rw [Lib.bind_of_ok (adaptExcept_ok hload), ih]
      rw [show entriesOf (l :: lines) = l.entries ++ entriesOf lines from List.flatMap_cons, putDomains_append,
        DomainLine.entries, hitems]

theorem matchProxy_none {s : List Char} (h : ':' ∉ s) : matchProxy s = none := by
  have hport : ((((s.drop 5).dropWhile isSpace).dropWhile (· ≠ ':')).drop 1).takeWhile Char.isDigit = [] := by
    have hnil : ((s.drop 5).dropWhile isSpace).dropWhile (· ≠ ':') = [] := by
      rw [List.dropWhile_eq_nil_iff]
      intro ch hch
      have hmem : ch ∈ s := List.mem_of_mem_drop ((List.dropWhile_suffix _).subset hch)
      simpa using fun heq : ch = ':' => h (heq ▸ hmem)
    rw [hnil]
    rfl
  simp only [matchProxy, hport]
  split
  · exact if_neg fun h => h.2.2 rfl
  · rfl

theorem findProxies_nil {s : List Char} (h : ':' ∉ s) : findProxies s = [] := by
  induction s with
  | nil =>
      rw [findProxies]
      rfl
  | cons ch s ih =>
      rw [findProxies]
      split
      · rename_i hm
        rw [matchProxy_none h] at hm
        cases hm
      · exact ih fun hs => h (List.mem_cons_of_mem _ hs)

theorem loadFromLines_domains (p : Platform) (lines : List DomainLine) (c : ProxyConfig) :
    loadFromLines p (lines.map DomainLine.text) c = .ok () (putDomains (entriesOf lines) (clear c)) := by
  have hfound : (lines.map DomainLine.text).flatMap findProxies = [] := by
    rw [List.flatMap_eq_nil_iff]
    intro s hs
    obtain ⟨l, -, rfl⟩ := List.mem_map.1 hs
    exact findProxies_nil l.colon_not_mem
  have hlines := loadLines_domains p 1 lines (clear c)
  unfold loadFromLines
  have hclear : (modify clear : EStateM LoadError ProxyConfig PUnit) c = .ok () (clear c) := rfl
  rw [Lib.bind_of_ok hclear, Lib.bind_of_ok hlines]
  have hget :
    (get : EStateM LoadError ProxyConfig ProxyConfig) (putDomains (entriesOf lines) (clear c)) = .ok _ _ := rfl
  rw [Lib.bind_of_ok hget, if_pos (show (putDomains (entriesOf lines) (clear c)).proxyList = [] from rfl), tryAddProxy,
    hfound]
  rfl

end ProxyConfig

end TunProxy.Vpn
