import TunProxy.Lib.Search
import TunProxy.Native.HttpBounds
import TunProxy.Native.Lemmas.Memory

/-!
# What `patch_http_url` finds in a segment
-/

namespace TunProxy.Native

open Lib

/-! ## They are the functions of the source -/

variable {data value : Bytes} {heap : Nat → UInt8} {pos i : Nat} {b : UInt8}

theorem strncasecmpIn_some {r : Bool} (h : strncasecmpIn data pos value = some r) (heap : Nat → UInt8) :
    strncasecmp (memAt data heap) pos value = r := by
  induction value generalizing pos with
  | nil => exact Option.some.inj h
  | cons c value ih =>
      obtain ⟨b, hb, h⟩ := Option.bind_eq_some_iff.1 h
      rw [strncasecmp, memAt_of_getElem? hb]
      split at h
      · rename_i heq
        rw [beq_iff_eq.2 heq, ih h, Bool.true_and]
      · rename_i hne
        rw [beq_eq_false_iff_ne.2 hne, Bool.false_and]
        exact Option.some.inj h

theorem skipToIn_some {c : UInt8} {n : Nat} {r : Nat × Nat} (h : skipToIn data c pos n = some r) (heap : Nat → UInt8) :
    skipTo (memAt data heap) c pos n = r := by
  induction n generalizing pos with
  | zero => exact Option.some.inj h
  | succ n ih =>
      obtain ⟨b, hb, h⟩ := Option.bind_eq_some_iff.1 h
      rw [skipTo, memAt_of_getElem? hb]
      split at h
      · rename_i hc
        rw [if_pos hc]
        exact ih h
      · rename_i hc
        rw [if_neg hc]
        exact Option.some.inj h

theorem findDataFromIn_some {rounds n : Nat} {r : Option Nat} (h : findDataFromIn data value rounds pos n = some r)
    (heap : Nat → UInt8) : findDataFrom (memAt data heap) value rounds pos n = r := by
  induction rounds generalizing pos n with
  | zero => exact Option.some.inj h
  | succ rounds ih =>
      rw [findDataFromIn] at h
      rw [findDataFrom]
      split at h
      · rename_i hn
        rw [if_pos hn]
        obtain ⟨⟨pos', n'⟩, hskip, h⟩ := Option.bind_eq_some_iff.1 h
        obtain ⟨found, hcmp, h⟩ := Option.bind_eq_some_iff.1 h
        rw [skipToIn_some hskip heap]
        simp only [strncasecmpIn_some hcmp heap]
        cases found with
        | true => exact Option.some.inj h
        | false => exact ih h
      · rename_i hn
        rw [if_neg hn]
        exact Option.some.inj h

theorem findDataIn_some {r : Option Nat} (h : findDataIn data value = some r) (heap : Nat → UInt8) :
    findData (memAt data heap) data.length value = r := findDataFromIn_some h heap

theorem readHostIn_some {room : Nat} {r : Bytes} (h : readHostIn data room pos = some r) (heap : Nat → UInt8) :
    readHost (memAt data heap) room pos = r := by
  induction room generalizing pos r with
  | zero =>
      obtain ⟨b, -, h⟩ := Option.bind_eq_some_iff.1 h
      exact Option.some.inj h
  | succ room ih =>
      obtain ⟨b, hb, h⟩ := Option.bind_eq_some_iff.1 h
      rw [readHost, memAt_of_getElem? hb]
      split at h
      · rename_i hc
        obtain ⟨rest, hrest, h⟩ := Option.bind_eq_some_iff.1 h
        rw [if_pos hc, ih hrest]
        exact Option.some.inj h
      · rename_i hc
        rw [if_neg hc]
        exact Option.some.inj h

theorem findMethodIn_some {words : List Bytes} {r : Option Nat} (h : findMethodIn data words = some r)
    (heap : Nat → UInt8) :
    words.findSome? (fun word => (findData (memAt data heap) data.length word).map (· + word.length)) = r := by
  induction words with
  | nil => exact Option.some.inj h
  | cons word words ih =>
      obtain ⟨found, hfound, h⟩ := Option.bind_eq_some_iff.1 h
      rw [List.findSome?_cons, findDataIn_some hfound heap]
      cases found with
      | some pos => exact Option.some.inj h
      | none => exact ih h

theorem comesIn_some {r : Bool} (h : comesIn data pos value = some r) (heap : Nat → UInt8) :
    (List.range value.length).map (fun i => memAt data heap (pos + i)) = value ↔ r = true := by
  induction value generalizing pos with
  | nil =>
      cases Option.some.inj h
      simp
  | cons c value ih =>
      obtain ⟨b, hb, h⟩ := Option.bind_eq_some_iff.1 h
      have hshift : (fun i => memAt data heap (pos + i)) ∘ Nat.succ = fun i => memAt data heap (pos + 1 + i) := by
        funext i
        exact congrArg (memAt data heap) (Nat.add_right_comm pos i 1)
      rw [List.length_cons, List.range_succ_eq_map, List.map_cons, List.map_map, hshift, Nat.add_zero,
        memAt_of_getElem? hb,
        List.cons.injEq]
      split at h
      · rename_i heq
        rw [ih h]
        exact and_iff_right heq
      · rename_i hne
        cases Option.some.inj h
        simp [hne]

theorem lt_of_comesIn {c : UInt8} {r : Bool} (h : comesIn data pos (c :: value) = some r) : pos < data.length := by
  obtain ⟨b, hb, -⟩ := Option.bind_eq_some_iff.1 h
  exact (List.getElem?_eq_some_iff.1 hb).1

theorem map_memAt (data : Bytes) (heap : Nat → UInt8) : (List.range data.length).map (memAt data heap) = data := by
  apply List.ext_getElem
  · simp
  · intro i h₁ h₂
    rw [List.getElem_map, List.getElem_range]
    exact memAt_of_getElem? (List.getElem?_eq_getElem h₂)

/-- Where no byte behind the segment is read, the source does what it does without one. -/
theorem patchHttpUrlIn_some {r : Patch} (h : patchHttpUrlIn data = some r) (heap : Nat → UInt8) :
    patchHttpUrl (memAt data heap) data.length = r := by
  obtain ⟨host, hhost, h⟩ := Option.bind_eq_some_iff.1 h
  rw [patchHttpUrl, findDataIn_some hhost heap]
  cases host with
  | none => exact Option.some.inj h
  | some host =>
      obtain ⟨hostname, hname, h⟩ := Option.bind_eq_some_iff.1 h
      obtain ⟨found, hfound, h⟩ := Option.bind_eq_some_iff.1 h
      have hmethod : findMethod (memAt data heap) data.length = found := findMethodIn_some hfound heap
      simp only [hmethod, readHostIn_some hname heap]
      cases found with
      | none => exact Option.some.inj h
      | some pos1 =>
          obtain ⟨patched, hpatched, h⟩ := Option.bind_eq_some_iff.1 h
          have hlt : pos1 < data.length := lt_of_comesIn hpatched
          have hcomes := comesIn_some hpatched heap
          rw [show (ascii "http:").length = 5 from rfl] at hcomes
          simp only [map_memAt]
          cases patched with
          | true =>
              rw [if_pos (hcomes.2 rfl)]
              exact Option.some.inj h
          | false =>
              rw [if_neg fun heq => Bool.false_ne_true (hcomes.1 heq), if_neg (by omega)]
              exact Option.some.inj h

/-! ## Searching -/

variable {word s : Bytes} {a c : UInt8} {rest : Bytes}

/-- The text is like the beginning of the word, which is longer. -/
def Begins (word text : Bytes) : Prop :=
  text.length < word.length ∧ text.map toLower = (word.take text.length).map toLower

/-- The segment ends like the beginning of the word, so that the comparison goes on behind it. The last two bytes are
looked at even where the first letter is of another case, unless the byte before them is the first letter. -/
def CutOff (word data : Bytes) : Prop :=
  (∃ tail, tail <:+ data ∧ 3 ≤ tail.length ∧ tail.head? = word.head? ∧ Begins word tail) ∨
    ∃ a tail, a :: tail <:+ data ∧ tail.length = 2 ∧ some a ≠ word.head? ∧ Begins word tail

theorem CutOff.length_le (h : CutOff word data) : 3 ≤ data.length := by
  obtain ⟨tail, hs, h3, -⟩ | ⟨a, tail, hs, h2, -⟩ := h
  · exact h3.trans hs.length_le
  · have := hs.length_le
    rw [List.length_cons] at this
    omega

theorem cutOff_cons (h : 2 ≤ s.length) : CutOff word (a :: s) ↔
    some a = word.head? ∧ Begins word (a :: s) ∨ (some a ≠ word.head? ∧ s.length = 2 ∧ Begins word s) ∨
    CutOff word s := by
  constructor
  · rintro (⟨tail, hs, h3, hhead, hb⟩ | ⟨b, tail, hs, h2, hne, hb⟩)
    · obtain rfl | hs := List.suffix_cons_iff.1 hs
      · exact .inl ⟨hhead, hb⟩
      · exact .inr (.inr (.inl ⟨tail, hs, h3, hhead, hb⟩))
    · obtain heq | hs := List.suffix_cons_iff.1 hs
      · cases heq
        exact .inr (.inl ⟨hne, h2, hb⟩)
      · exact .inr (.inr (.inr ⟨b, tail, hs, h2, hne, hb⟩))
  · rintro (⟨hhead, hb⟩ | ⟨hne, h2, hb⟩ | ⟨tail, hs, h3, hhead, hb⟩ | ⟨b, tail, hs, h2, hne, hb⟩)
    · refine .inl ⟨a :: s, List.suffix_refl _, ?_, hhead, hb⟩
      rw [List.length_cons]
      omega
    · exact .inr ⟨a, s, List.suffix_refl _, h2, hne, hb⟩
    · exact .inl ⟨tail, hs.trans (List.suffix_cons _ _), h3, hhead, hb⟩
    · exact .inr ⟨b, tail, hs.trans (List.suffix_cons _ _), h2, hne, hb⟩

/-- The search, on the rest of the segment. -/
def scan (word : Bytes) : Bytes → Option (Option Nat)
  | a :: b :: c :: rest =>
      if some a = word.head? then
        match compareTo toLower word (a :: b :: c :: rest) with
        | none => none
        | some true => some (some 0)
        | some false => (scan word (b :: c :: rest)).map (·.map (· + 1))
      else if rest = [] then
        match compareTo toLower word [b, c] with
        | none => none
        | some true => some (some 1)
        | some false => some none
      else (scan word (b :: c :: rest)).map (·.map (· + 1))
  | _ => some none

/-- What the search comes to. -/
inductive Scanned (word data : Bytes) : Option (Option Nat) → Prop
  | found {p : Nat} : FirstAt toLower word data p → Scanned word data (some (some p))
  | absent : ¬Occurs toLower word data → ¬CutOff word data → Scanned word data (some none)
  | cut : ¬Occurs toLower word data → CutOff word data → Scanned word data none

/-- The word is not at the beginning, and the segment is not cut off there. -/
theorem Scanned.cons {r : Option (Option Nat)} (h : Scanned word s r) (ho : ¬OccursAt toLower word (a :: s) 0)
    (hc : CutOff word (a :: s) → CutOff word s) : Scanned word (a :: s) (r.map (·.map (· + 1))) := by
  have hnot (h : ¬Occurs toLower word s) : ¬Occurs toLower word (a :: s) := fun hcons => (occurs_cons.1 hcons).elim ho h
  cases h with
  | found hf => exact .found (hf.cons ho)
  | absent hn hcut => exact .absent (hnot hn) fun h => hcut (hc h)
  | cut hn hcut =>
      refine .cut (hnot hn) ((cutOff_cons ?_).2 (.inr (.inr hcut)))
      have := hcut.length_le
      omega

theorem begins_iff {word text : Bytes} : Begins word text ↔ compareTo toLower word text = none := compareTo_none.symm

theorem scan_spec (hw : 2 < word.length) (s : Bytes) : Scanned word s (scan word s) := by
  have hshort (s : Bytes) (h : s.length ≤ 2) : Scanned word s (some none) :=
    .absent (not_occurs_of_length (by omega)) fun hc => absurd (hc.length_le.trans h) (by decide)
  induction s with
  | nil => exact hshort [] (Nat.zero_le 2)
  | cons a s ih =>
      match s, ih with
      | [], _ => exact hshort [a] (by simp)
      | [b], _ => exact hshort [a, b] (by simp)
      | b :: c :: rest, ih =>
          have hlong : 2 ≤ (b :: c :: rest).length := Nat.le_add_left 2 rest.length
          rw [scan]
          split
          · rename_i hhead
            split
            · rename_i hcmp
              have hb := begins_iff.2 hcmp
              exact .cut (not_occurs_of_length hb.1) ((cutOff_cons hlong).2 (.inl ⟨hhead, hb⟩))
            · rename_i hcmp
              exact .found (firstAt_zero (occursAt_zero.2 ⟨hhead, hcmp⟩))
            · rename_i hcmp
              refine ih.cons (fun ho => ?_) fun hc => ?_
              · have htrue := (occursAt_zero.1 ho).2
                rw [hcmp] at htrue
                cases htrue
              · obtain ⟨-, hb⟩ | ⟨hne, -⟩ | hc := (cutOff_cons hlong).1 hc
                · rw [begins_iff, hcmp] at hb
                  cases hb
                · exact absurd hhead hne
                · exact hc
          · rename_i hhead
            have ho : ¬OccursAt toLower word (a :: b :: c :: rest) 0 := fun h => hhead (occursAt_zero.1 h).1
            split
            · rename_i hrest
              subst hrest
              have hnot : ¬Occurs toLower word [a, b, c] :=
                fun h => (occurs_cons.1 h).elim ho (not_occurs_of_length hw)
              split
              · rename_i hcmp
                exact .cut hnot ((cutOff_cons hlong).2 (.inr (.inl ⟨hhead, rfl, begins_iff.2 hcmp⟩)))
              · rename_i hcmp
                have hlen := congrArg List.length (compareTo_true.1 hcmp)
                simp only [List.length_map, List.length_take, List.length_cons, List.length_nil] at hlen
                omega
              · rename_i hcmp
                refine .absent hnot fun hc => ?_
                obtain ⟨hh, -⟩ | ⟨-, -, hb⟩ | hc := (cutOff_cons hlong).1 hc
                · exact hhead hh
                · rw [begins_iff, hcmp] at hb
                  cases hb
                · exact absurd hc.length_le (by simp)
            · rename_i hrest
              refine ih.cons ho fun hc => ?_
              obtain ⟨hh, -⟩ | ⟨-, h2, -⟩ | hc := (cutOff_cons hlong).1 hc
              · exact absurd hh hhead
              · exact absurd (List.length_eq_zero_iff.1 (Nat.succ.inj (Nat.succ.inj h2))) hrest
              · exact hc

/-! ## The loops of the source search so -/

theorem strncasecmpIn_eq : strncasecmpIn data pos value = compareTo toLower value (data.drop pos) := by
  induction value generalizing pos with
  | nil => rfl
  | cons c value ih =>
      rw [strncasecmpIn]
      cases hb : data[pos]? with
      | none =>
          rw [List.drop_eq_nil_of_le (List.getElem?_eq_none_iff.1 hb)]
          rfl
      | some b =>
          obtain ⟨hlt, rfl⟩ := List.getElem?_eq_some_iff.1 hb
          rw [List.drop_eq_getElem_cons hlt, compareTo, ← ih]
          rfl

theorem comesIn_eq : comesIn data pos value = compareTo id value (data.drop pos) := by
  induction value generalizing pos with
  | nil => rfl
  | cons c value ih =>
      rw [comesIn]
      cases hb : data[pos]? with
      | none =>
          rw [List.drop_eq_nil_of_le (List.getElem?_eq_none_iff.1 hb)]
          rfl
      | some b =>
          obtain ⟨hlt, rfl⟩ := List.getElem?_eq_some_iff.1 hb
          rw [List.drop_eq_getElem_cons hlt, compareTo, ← ih]
          rfl

theorem scan_short (h : s.length ≤ 2) : scan word s = some none := by
  match s, h with
  | [], _ => rfl
  | [a], _ => rfl
  | [a, b], _ => rfl

theorem findDataFromIn_short {rounds n : Nat} (h : n ≤ 2) : findDataFromIn data word rounds pos n = some none := by
  cases rounds with
  | zero => rfl
  | succ rounds => rw [findDataFromIn, if_neg (by omega)]

theorem map_shift (r : Option (Option Nat)) (pos : Nat) :
    (r.map (·.map (· + 1))).map (·.map (· + pos)) = r.map (·.map (· + (pos + 1))) := by
  have hadd : (fun x => x + pos) ∘ (fun x => x + 1) = fun x => x + (pos + 1) := by
    funext x
    show x + 1 + pos = x + (pos + 1)
    omega
  cases r with
  | none => rfl
  | some r => cases r with
    | none => rfl
    | some p => exact congrArg (fun f => some (some (f p))) hadd

/-- One round, when the inner loop has stopped. -/
theorem findDataFromIn_round {x : UInt8} {tail : Bytes} {rounds n p k : Nat} (hn : 2 < n)
    (h : skipToIn data x pos n = some (p, k)) : findDataFromIn data (x :: tail) (rounds + 1) pos n =
      match compareTo toLower (x :: tail) (data.drop p) with
      | none => none
      | some true => some (some p)
      | some false => findDataFromIn data (x :: tail) rounds (p + 1) (k - 1) := by
  rw [findDataFromIn, if_pos hn, List.headD_cons, h]
  show ((strncasecmpIn data p (x :: tail)).bind fun found =>
    if found = true then some (some p) else findDataFromIn data (x :: tail) rounds (p + 1) (k - 1)) = _
  rw [strncasecmpIn_eq]
  cases compareTo toLower (x :: tail) (data.drop p) with
  | none => rfl
  | some found => cases found with
    | true => rfl
    | false => rfl

theorem skipToIn_here {n : Nat} (h : data[pos]? = some a) (hc : ¬(a ≠ c ∧ n + 1 > 2)) :
    skipToIn data c pos (n + 1) = some (pos, n + 1) := by
  rw [skipToIn, h]
  exact if_neg hc

theorem skipToIn_next {n : Nat} (h : data[pos]? = some a) (hc : a ≠ c ∧ n + 1 > 2) :
    skipToIn data c pos (n + 1) = skipToIn data c (pos + 1) n := by
  rw [skipToIn, h]
  exact if_pos hc

theorem findDataFromIn_eq {n rounds : Nat} (hw : 2 < word.length) (hn : n ≤ rounds) (hp : pos + n = data.length) :
    findDataFromIn data word rounds pos n = (scan word (data.drop pos)).map (·.map (· + pos)) := by
  obtain ⟨x, tail, rfl⟩ : ∃ x tail, word = x :: tail := List.exists_cons_of_length_pos (by omega)
  induction n generalizing pos rounds with
  | zero =>
      rw [findDataFromIn_short (Nat.zero_le 2), scan_short (by rw [List.length_drop]; omega)]
      rfl
  | succ n ih =>
      by_cases hlong : n < 2
      · rw [findDataFromIn_short (by omega), scan_short (by rw [List.length_drop]; omega)]
        rfl
      obtain ⟨rounds, rfl⟩ : ∃ k, rounds = k + 1 := ⟨rounds - 1, by omega⟩
      have hpos : pos < data.length := by omega
      have hpos₁ : pos + 1 < data.length := by omega
      have hpos₂ : pos + 2 < data.length := by omega
      have hget : data[pos]? = some data[pos] := List.getElem?_eq_getElem hpos
      have hget₁ : data[pos + 1]? = some data[pos + 1] := List.getElem?_eq_getElem hpos₁
      have hdrop₁ : data.drop (pos + 1) = data[pos + 1] :: data[pos + 2] :: data.drop (pos + 3) := by
        rw [List.drop_eq_getElem_cons hpos₁, List.drop_eq_getElem_cons hpos₂]
      have hdrop : data.drop pos = data[pos] :: data[pos + 1] :: data[pos + 2] :: data.drop (pos + 3) := by
        rw [List.drop_eq_getElem_cons hpos, hdrop₁]
      have hnext : findDataFromIn data (x :: tail) rounds (pos + 1) n =
          ((scan (x :: tail) (data.drop (pos + 1))).map (·.map (· + 1))).map (·.map (· + pos)) :=
        (ih (by omega) (by omega)).trans (map_shift _ _).symm
      rw [hdrop, scan, ← hdrop, ← hdrop₁]
      by_cases hhead : data[pos] = x
      · rw [if_pos (by rw [hhead]; rfl), findDataFromIn_round (by omega) (skipToIn_here hget fun h => h.1 hhead)]
        cases compareTo toLower (x :: tail) (data.drop pos) with
        | none => rfl
        | some found => cases found with
          | true => exact congrArg (fun p => some (some p)) (Nat.zero_add pos).symm
          | false => exact hnext
      · rw [List.head?_cons, if_neg fun h => hhead (Option.some.inj h)]
        have hskip := skipToIn_next (n := n) hget ⟨hhead, by omega⟩
        by_cases hend : n = 2
        · subst hend
          have hnil : data.drop (pos + 3) = [] := List.drop_eq_nil_of_le (by omega)
          rw [if_pos hnil,
            findDataFromIn_round (by omega) (hskip.trans (skipToIn_here hget₁ fun h => absurd h.2 (by decide))),
            hdrop₁, hnil]
          cases compareTo toLower (x :: tail) [data[pos + 1], data[pos + 2]] with
          | none => rfl
          | some found => cases found with
            | true => exact congrArg (fun p => some (some p)) (Nat.add_comm pos 1)
            | false => exact findDataFromIn_short (by decide)
        · have hcons : data.drop (pos + 3) ≠ [] := by
            rw [ne_eq, List.drop_eq_nil_iff]
            omega
          rw [if_neg hcons]
          have hsame : findDataFromIn data (x :: tail) (rounds + 1) pos (n + 1) =
              findDataFromIn data (x :: tail) (rounds + 1) (pos + 1) n := by
            conv_lhs => rw [findDataFromIn, if_pos (show 2 < n + 1 by omega), List.headD_cons, hskip]
            conv_rhs => rw [findDataFromIn, if_pos (show 2 < n by omega), List.headD_cons]
          rw [hsame, map_shift]
          exact ih (by omega) (by omega)

/-- `find_data`: it finds the word where it occurs first; where there is none it returns 0, unless the segment is cut
off. -/
theorem findDataIn_scanned (data : Bytes) (hw : 2 < word.length) : Scanned word data (findDataIn data word) := by
  have heq : findDataIn data word = (scan word (data.drop 0)).map (·.map (· + 0)) :=
    findDataFromIn_eq hw (Nat.le_refl _) (Nat.zero_add _)
  have hid : (scan word data).map (·.map (· + 0)) = scan word data := by
    cases scan word data with
    | none => rfl
    | some r => cases r with
      | none => rfl
      | some p => rfl
  rw [heq, List.drop_zero, hid]
  exact scan_spec hw data

/-! ## The host name and the method -/

/-- The host name: what stands behind the first `Host: `, up to a carriage return, 511 bytes at most. -/
def hostName (data : Bytes) (host : Nat) : Bytes := ((data.drop (host + 6)).take 511).takeWhile (· ≠ 13)

/-- The loop ends in the segment. -/
def HostEnds (data : Bytes) (host : Nat) : Prop := 13 ∈ (data.drop (host + 6)).take 512 ∨ host + 6 + 512 ≤ data.length

theorem readHostIn_end {room : Nat} (h : data[pos]? = none) : readHostIn data room pos = none := by
  cases room <;> rw [readHostIn, h] <;> rfl

theorem readHostIn_return {room : Nat} (h : data[pos]? = some 13) : readHostIn data room pos = some [] := by
  cases room <;> rw [readHostIn, h] <;> rfl

theorem readHostIn_succ {room : Nat} {x : UInt8} (h : data[pos]? = some x) (hx : x ≠ 13) :
    readHostIn data (room + 1) pos = (readHostIn data room (pos + 1)).map (x :: ·) := by
  rw [readHostIn, h]
  refine (if_pos hx).trans ?_
  cases readHostIn data room (pos + 1) with
  | none => rfl
  | some r => rfl

/-- Behind the segment nothing is copied, and there is no carriage return. -/
theorem readHostIn_end_iff {room : Nat} {r : Bytes} (h : data[pos]? = none) : readHostIn data room pos = some r ↔
    (13 ∈ (data.drop pos).take (room + 1) ∨ pos + (room + 1) ≤ data.length) ∧
      r = ((data.drop pos).take room).takeWhile (· ≠ 13) := by
  have hlen := List.getElem?_eq_none_iff.1 h
  rw [readHostIn_end h, List.drop_eq_nil_of_le hlen]
  constructor
  · intro hr
    cases hr
  · rintro ⟨hcr | hcr, -⟩
    · simp at hcr
    · omega

theorem readHostIn_iff {room : Nat} {r : Bytes} : readHostIn data room pos = some r ↔
    (13 ∈ (data.drop pos).take (room + 1) ∨ pos + (room + 1) ≤ data.length) ∧
      r = ((data.drop pos).take room).takeWhile (· ≠ 13) := by
  induction room generalizing pos r with
  | zero =>
      cases hb : data[pos]? with
      | none => exact readHostIn_end_iff hb
      | some b =>
          have hlt := (List.getElem?_eq_some_iff.1 hb).1
          rw [readHostIn, hb, List.take_zero, List.takeWhile_nil]
          constructor
          · intro h
            exact ⟨.inr (by omega), (Option.some.inj h).symm⟩
          · rintro ⟨-, rfl⟩
            rfl
  | succ room ih =>
      cases hb : data[pos]? with
      | none => exact readHostIn_end_iff hb
      | some b =>
          obtain ⟨hlt, hat⟩ := List.getElem?_eq_some_iff.1 hb
          rw [List.drop_eq_getElem_cons hlt, hat, List.take_succ_cons, List.take_succ_cons, List.takeWhile_cons,
            List.mem_cons]
          by_cases hcr : b = 13
          · subst hcr
            rw [readHostIn_return hb]
            constructor
            · intro h
              exact ⟨.inl (.inl rfl), (Option.some.inj h).symm⟩
            · rintro ⟨-, rfl⟩
              rfl
          · rw [readHostIn_succ hb hcr, if_pos (by simp [hcr]), Option.map_eq_some_iff]
            have hpos : pos + 1 + (room + 1) ≤ data.length ↔ pos + (room + 1 + 1) ≤ data.length := by omega
            constructor
            · rintro ⟨r, h, rfl⟩
              obtain ⟨hend, rfl⟩ := ih.1 h
              exact ⟨hend.imp .inr hpos.1, rfl⟩
            · rintro ⟨hend, rfl⟩
              refine ⟨_, ih.2 ⟨?_, rfl⟩, rfl⟩
              obtain (h | h) | h := hend
              · exact absurd h.symm hcr
              · exact .inl h
              · exact .inr (hpos.2 h)

theorem readHostIn_cases (data : Bytes) (p : Nat) :
    HostEnds data p ∧ readHostIn data 511 (p + 6) = some (hostName data p) ∨
    ¬HostEnds data p ∧ readHostIn data 511 (p + 6) = none := by
  by_cases h : HostEnds data p
  · exact .inl ⟨h, readHostIn_iff.2 ⟨h, rfl⟩⟩
  · refine .inr ⟨h, ?_⟩
    cases hr : readHostIn data 511 (p + 6) with
    | none => rfl
    | some r => exact absurd (readHostIn_iff.1 hr).1 h

/-- Where the request target is taken to begin: behind the first of the words that occurs. -/
inductive MethodEnd (data : Bytes) : List Bytes → Nat → Prop
  | here {word : Bytes} {words : List Bytes} {p : Nat} : FirstAt toLower word data p →
      MethodEnd data (word :: words) (p + word.length)
  | next {word : Bytes} {words : List Bytes} {pos1 : Nat} : ¬Occurs toLower word data → MethodEnd data words pos1 →
      MethodEnd data (word :: words) pos1

/-- None of the words that are looked for cuts the segment off: those in front of the first that occurs. -/
inductive WordsEnd (data : Bytes) : List Bytes → Prop
  | nil : WordsEnd data []
  | here {word : Bytes} {words : List Bytes} : Occurs toLower word data → WordsEnd data (word :: words)
  | next {word : Bytes} {words : List Bytes} : ¬CutOff word data → WordsEnd data words → WordsEnd data (word :: words)

theorem MethodEnd.occurs {words : List Bytes} {pos1 : Nat} (h : MethodEnd data words pos1) :
    ∃ word ∈ words, Occurs toLower word data := by
  induction h with
  | here hf => exact ⟨_, .head _, _, hf.occurs⟩
  | next _ _ ih =>
      obtain ⟨word, hmem, ho⟩ := ih
      exact ⟨word, .tail _ hmem, ho⟩

theorem MethodEnd.unique {words : List Bytes} {pos1 pos2 : Nat} (h₁ : MethodEnd data words pos1)
    (h₂ : MethodEnd data words pos2) : pos1 = pos2 := by
  induction h₁ with
  | here hf =>
      cases h₂ with
      | here hf₂ => rw [hf.unique hf₂]
      | next hn => exact absurd ⟨_, hf.occurs⟩ hn
  | next hn _ ih =>
      cases h₂ with
      | here hf => exact absurd ⟨_, hf.occurs⟩ hn
      | next _ h => exact ih h

/-- What `find_method` comes to. -/
inductive MethodFound (data : Bytes) (words : List Bytes) : Option (Option Nat) → Prop
  | found {pos1 : Nat} : WordsEnd data words → MethodEnd data words pos1 → MethodFound data words (some (some pos1))
  | absent : WordsEnd data words → (∀ word ∈ words, ¬Occurs toLower word data) → MethodFound data words (some none)
  | cut : ¬WordsEnd data words → MethodFound data words none

theorem findMethodIn_found (data : Bytes) {words : List Bytes} (hw : ∀ word ∈ words, 2 < word.length) :
    MethodFound data words (findMethodIn data words) := by
  induction words with
  | nil => exact .absent .nil fun _ h => absurd h (List.not_mem_nil)
  | cons word words ih =>
      have ih := ih fun w h => hw w (.tail _ h)
      have hs := findDataIn_scanned data (hw word (.head _))
      rw [findMethodIn]
      generalize findDataIn data word = r at hs
      cases hs with
      | found hf => exact .found (.here ⟨_, hf.occurs⟩) (.here hf)
      | cut hn hc =>
          refine .cut fun h => ?_
          cases h with
          | here ho => exact hn ho
          | next hnc => exact hnc hc
      | absent hn hnc =>
          show MethodFound data (word :: words) (findMethodIn data words)
          generalize findMethodIn data words = r at ih
          cases ih with
          | found he hm => exact .found (.next hnc he) (.next hn hm)
          | absent he ha =>
              refine .absent (.next hnc he) fun w h => ?_
              cases h with
              | head => exact hn
              | tail _ h => exact ha w h
          | cut hne =>
              refine .cut fun h => ?_
              cases h with
              | here ho => exact hn ho
              | next _ he => exact hne he

end TunProxy.Native
