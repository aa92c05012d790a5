import TunProxy.Vpn.Request

/-!
# Lines, and what is taken for a host in one
-/

namespace TunProxy.Vpn

variable {sep s l m : List Char} {a ch : Char} {ps : List (List Char)}

/-! ## `split` -/

theorem not_isPrefixOf (h : a ≠ ch) : ¬(a :: sep).isPrefixOf (ch :: s) := by
  intro hp
  obtain ⟨rest, hrest⟩ := List.isPrefixOf_iff_prefix.1 hp
  exact h (List.cons.inj hrest).1

theorem pieces_append (h : a ∉ l) (s : List Char) :
    pieces (a :: sep) (l ++ a :: (sep ++ s)) = l :: pieces (a :: sep) s := by
  induction l with
  | nil =>
      have hp : (a :: sep).isPrefixOf (a :: (sep ++ s)) := List.isPrefixOf_iff_prefix.2 ⟨s, rfl⟩
      rw [List.nil_append, pieces, if_pos hp, List.length_cons, Nat.add_sub_cancel, List.drop_left]
  | cons ch l ih =>
      obtain ⟨hne, hl⟩ := not_or.1 (List.mem_cons.not.1 h)
      rw [List.cons_append, pieces, if_neg (not_isPrefixOf hne), ih hl]

theorem pieces_of_not_mem (h : a ∉ l) : pieces (a :: sep) l = [l] := by
  induction l with
  | nil => rw [pieces]
  | cons ch l ih =>
      obtain ⟨hne, hl⟩ := not_or.1 (List.mem_cons.not.1 h)
      rw [pieces, if_neg (not_isPrefixOf hne), ih hl]

/-- Nothing but separators: the pieces between them are empty. -/
theorem pieces_all_nil : (∀ p ∈ pieces [a] s, p = []) ↔ ∀ ch ∈ s, ch = a := by
  induction s with
  | nil => simp [pieces]
  | cons ch s ih =>
      by_cases hch : ch = a
      · subst hch
        have hcons : pieces [ch] (ch :: s) = [] :: pieces [ch] s :=
          pieces_append (l := []) List.not_mem_nil s
        rw [hcons, List.forall_mem_cons, ih, List.forall_mem_cons]
        simp only [true_and]
      · rw [pieces, if_neg (not_isPrefixOf (Ne.symm hch))]
        constructor
        · intro h
          split at h
          · cases h _ List.mem_cons_self
          · cases h _ List.mem_cons_self
        · intro h
          exact absurd (h ch List.mem_cons_self) hch

theorem rdropWhile_cons {α : Type} (p : α → Bool) (a : α) (l : List α) :
    (a :: l).rdropWhile p = if l.rdropWhile p = [] then (if p a then [] else [a]) else a :: l.rdropWhile p := by
  unfold List.rdropWhile
  rw [List.reverse_cons, List.dropWhile_append]
  cases h : List.dropWhile p l.reverse with
  | nil => by_cases hp : p a <;> simp [hp]
  | cons b m => simp

/-- Without the empty pieces at its end, the list has one piece. -/
theorem rdropWhile_eq_singleton {v p : List Char} :
    (p :: ps).rdropWhile (·.isEmpty) = [v] ↔ p = v ∧ v ≠ [] ∧ ∀ q ∈ ps, q = [] := by
  have hnil : ps.rdropWhile (·.isEmpty) = [] ↔ ∀ q ∈ ps, q = [] := by
    rw [List.rdropWhile_eq_nil_iff]
    simp only [List.isEmpty_iff]
  rw [rdropWhile_cons, ← hnil]
  by_cases h : ps.rdropWhile (·.isEmpty) = []
  · rw [if_pos h]
    by_cases hp : p = []
    · subst hp
      constructor
      · intro heq
        cases heq
      · rintro ⟨rfl, hne, -⟩
        exact absurd rfl hne
    · rw [if_neg (by simpa using hp)]
      constructor
      · intro heq
        cases heq
        exact ⟨rfl, hp, h⟩
      · rintro ⟨rfl, -, -⟩
        rfl
  · rw [if_neg h]
    constructor
    · intro heq
      exact absurd (List.cons.inj heq).2 h
    · rintro ⟨-, -, h'⟩
      exact absurd h' h

theorem pieces_ne_nil (sep s : List Char) : pieces sep s ≠ [] := by
  cases s with
  | nil => simp [pieces]
  | cons ch s =>
      rw [pieces]
      split
      · exact List.cons_ne_nil _ _
      · split
        · exact List.cons_ne_nil _ _
        · exact List.cons_ne_nil _ _

theorem split_of_pieces {p : List Char} (h : pieces sep s = p :: ps) (hps : ps ≠ []) :
    split sep s = (p :: ps).rdropWhile (·.isEmpty) := by
  rw [split, h]
  cases ps with
  | nil => exact absurd rfl hps
  | cons q ps => rfl

theorem split_append (h : a ∉ l) (s : List Char) :
    split (a :: sep) (l ++ a :: (sep ++ s)) = (l :: pieces (a :: sep) s).rdropWhile (·.isEmpty) := by
  exact split_of_pieces (pieces_append h s) (pieces_ne_nil _ _)

theorem split_of_not_mem (h : a ∉ l) : split (a :: sep) l = [l] := by
  rw [split, pieces_of_not_mem h]

theorem split_pair_iff {n v : List Char} : split [a] s = [n, v] ↔
    ∃ seps, s = n ++ a :: (v ++ seps) ∧ a ∉ n ∧ a ∉ v ∧ v ≠ [] ∧ ∀ ch ∈ seps, ch = a := by
  constructor
  · intro h
    by_cases hs : a ∈ s
    · obtain ⟨n', rest, rfl, hn'⟩ := List.eq_append_cons_of_mem hs
      rw [show n' ++ a :: rest = n' ++ a :: ([] ++ rest) from rfl, split_append hn', rdropWhile_cons] at h
      split at h
      · split at h
        · cases h
        · cases h
      · obtain ⟨rfl, htail⟩ := List.cons.inj h
        by_cases hr : a ∈ rest
        · obtain ⟨v', seps, rfl, hv'⟩ := List.eq_append_cons_of_mem hr
          rw [show v' ++ a :: seps = v' ++ a :: ([] ++ seps) from rfl, pieces_append hv'] at htail
          obtain ⟨rfl, hv, hall⟩ := rdropWhile_eq_singleton.1 htail
          refine ⟨a :: seps, rfl, hn', hv', hv, ?_⟩
          exact List.forall_mem_cons.2 ⟨rfl, pieces_all_nil.1 hall⟩
        · rw [pieces_of_not_mem hr] at htail
          obtain ⟨rfl, hv, -⟩ := rdropWhile_eq_singleton.1 htail
          exact ⟨[], by rw [List.append_nil], hn', hr, hv, List.forall_mem_nil _⟩
    · rw [split_of_not_mem hs] at h
      cases h
  · rintro ⟨seps, rfl, hn, hv, hne, hseps⟩
    have hrest : (pieces [a] (v ++ seps)).rdropWhile (·.isEmpty) = [v] := by
      cases seps with
      | nil =>
          rw [List.append_nil, pieces_of_not_mem hv]
          exact rdropWhile_eq_singleton.2 ⟨rfl, hne, List.forall_mem_nil _⟩
      | cons ch seps =>
          obtain ⟨rfl, hseps⟩ := List.forall_mem_cons.1 hseps
          rw [show v ++ ch :: seps = v ++ ch :: ([] ++ seps) from rfl, pieces_append hv]
          exact rdropWhile_eq_singleton.2 ⟨rfl, hne, pieces_all_nil.2 hseps⟩
    rw [show n ++ a :: (v ++ seps) = n ++ a :: ([] ++ (v ++ seps)) from rfl, split_append hn, rdropWhile_cons, hrest,
      if_neg (List.cons_ne_nil _ _)]

/-! ## The field of the host -/

open HttpHostHeaderParser Http

theorem hostOfLines_cons (line : List Char) (lines : List (List Char)) :
    hostOfLines (line :: lines) = (hostOfLines [line]).or (hostOfLines lines) := by
  rw [hostOfLines, hostOfLines]
  split
  · split
    · rfl
    · rfl
  · rfl

theorem hostOfLine_eq_some {line host : List Char} : hostOfLines [line] = some host ↔ Gives line host := by
  rw [hostOfLines]
  constructor
  · intro h
    split at h
    · rename_i name value hsplit
      obtain ⟨seps, hline, hname, hvalue, hne, hseps⟩ := split_pair_iff.1 hsplit
      split at h
      · rename_i hhost
        exact ⟨name, value, seps, hline, hname, hvalue, hne, hseps, hhost, Option.some.inj h⟩
      · cases h
    · cases h
  · rintro ⟨name, value, seps, hline, hname, hvalue, hne, hseps, hhost, rfl⟩
    rw [split_pair_iff.2 ⟨seps, hline, hname, hvalue, hne, hseps⟩]
    exact if_pos hhost

theorem hostOfLines_append (ls ms : List (List Char)) :
    hostOfLines (ls ++ ms) = (hostOfLines ls).or (hostOfLines ms) := by
  induction ls with
  | nil => rfl
  | cons line ls ih => rw [List.cons_append, hostOfLines_cons, ih, hostOfLines_cons line ls, Option.or_assoc]

theorem hostOfLines_eq_none {ls : List (List Char)} :
    hostOfLines ls = none ↔ ∀ line ∈ ls, ∀ host, ¬Gives line host := by
  induction ls with
  | nil => simp [hostOfLines]
  | cons line ls ih =>
      rw [hostOfLines_cons, Option.or_eq_none_iff, ih, List.forall_mem_cons, Option.eq_none_iff_forall_ne_some]
      simp only [ne_eq, hostOfLine_eq_some]

theorem hostOfLines_eq_some {ls : List (List Char)} {host : List Char} :
    hostOfLines ls = some host ↔ FirstGives ls host := by
  induction ls with
  | nil =>
      constructor
      · intro h
        cases h
      · rintro ⟨before, line, after, h, -⟩
        exact absurd h.symm (by simp)
  | cons line ls ih =>
      rw [hostOfLines_cons, Option.or_eq_some_iff, hostOfLine_eq_some]
      constructor
      · rintro (h | ⟨hnone, h⟩)
        · exact ⟨[], line, ls, rfl, List.forall_mem_nil _, h⟩
        · obtain ⟨before, line', after, rfl, hbefore, hline⟩ := ih.1 h
          refine ⟨line :: before, line', after, rfl, List.forall_mem_cons.2 ⟨?_, hbefore⟩, hline⟩
          exact hostOfLines_eq_none.1 hnone line List.mem_cons_self
      · rintro ⟨before, line', after, heq, hbefore, hline⟩
        cases before with
        | nil =>
            obtain ⟨rfl, rfl⟩ := List.cons.inj heq
            exact .inl hline
        | cons b before =>
            obtain ⟨rfl, rfl⟩ := List.cons.inj heq
            obtain ⟨hb, hbefore⟩ := List.forall_mem_cons.1 hbefore
            refine .inr ⟨hostOfLines_eq_none.2 ?_, ih.2 ⟨before, line', after, rfl, hbefore, hline⟩⟩
            exact List.forall_mem_singleton.2 hb

theorem hostOfLines_nil : hostOfLines [[]] = none := by
  refine hostOfLines_eq_none.2 (List.forall_mem_singleton.2 ?_)
  rintro host ⟨name, value, seps, h, -⟩
  exact absurd h.symm (List.append_ne_nil_of_right_ne_nil _ (List.cons_ne_nil _ _))

/-- The empty lines that `split` leaves out at the end give nothing. -/
theorem hostOfLines_rdropWhile (ls : List (List Char)) : hostOfLines (ls.rdropWhile (·.isEmpty)) = hostOfLines ls := by
  induction ls using List.reverseRecOn with
  | nil => rfl
  | append_singleton ls line ih =>
      by_cases h : line.isEmpty
      · rw [List.rdropWhile_concat_pos _ _ _ h, ih, hostOfLines_append, List.isEmpty_iff.1 h]
        rw [hostOfLines_nil, Option.or_none]
      · rw [List.rdropWhile_concat_neg _ _ _ h]

/-! ## Lines of a header -/

theorem append_unique {n n' r r' : List Char} (h : n ++ a :: r = n' ++ a :: r') (hn : a ∉ n) (hn' : a ∉ n') :
    n = n' ∧ r = r' := by
  induction n generalizing n' with
  | nil =>
      cases n' with
      | nil => exact ⟨rfl, (List.cons.inj h).2⟩
      | cons b n' =>
          obtain ⟨rfl, -⟩ := List.cons.inj h
          exact absurd List.mem_cons_self hn'
  | cons b n ih =>
      cases n' with
      | nil =>
          obtain ⟨rfl, -⟩ := List.cons.inj h
          exact absurd List.mem_cons_self hn
      | cons b' n' =>
          obtain ⟨rfl, htail⟩ := List.cons.inj h
          obtain ⟨rfl, rfl⟩ :=
            ih htail (fun hb => hn (List.mem_cons_of_mem _ hb)) fun hb => hn' (List.mem_cons_of_mem _ hb)
          exact ⟨rfl, rfl⟩

theorem trim_append {before after : List Char} (hbefore : ∀ ch ∈ before, ch ≤ ' ') (hs : ∀ ch ∈ s, ¬ch ≤ ' ')
    (hafter : ∀ ch ∈ after, ch ≤ ' ') (hne : s ≠ []) : trim (before ++ s ++ after) = s := by
  have hdrop : (before ++ s ++ after).dropWhile (· ≤ ' ') = s ++ after := by
    rw [List.append_assoc, List.dropWhile_append_of_pos (by simpa using hbefore)]
    cases s with
    | nil => exact absurd rfl hne
    | cons ch s => rw [List.cons_append, List.dropWhile_cons_of_neg (by simpa using hs ch List.mem_cons_self)]
  obtain ⟨t, ch, rfl⟩ := s.eq_nil_or_concat'.resolve_left hne
  rw [trim, hdrop, List.rdropWhile, List.reverse_append, List.dropWhile_append_of_pos (by simpa using hafter),
    List.reverse_append, List.reverse_singleton, List.singleton_append,
    List.dropWhile_cons_of_neg (by simpa using hs ch (List.mem_append_right _ List.mem_cons_self)), List.reverse_cons,
    List.reverse_reverse]

theorem trim_eq_self (hs : ∀ ch ∈ s, ¬ch ≤ ' ') : trim s = s := by
  by_cases h : s = []
  · subst h
    rfl
  · have := trim_append (List.forall_mem_nil _) hs (List.forall_mem_nil _) h
    rwa [List.nil_append, List.append_nil] at this

theorem not_blank {ch : Char} (h : IsVisible ch) : ¬ch ≤ ' ' := by
  intro hle
  have hbang : '!' ≤ ' ' := Char.le_trans h.1 hle
  exact absurd hbang (by decide)

/-! ## Decoding -/

open Native (Bytes)

variable {c : Charset} {x : UInt8} {b : Bytes}

theorem decode_asciiBytes (c : Charset) {s : List Char} (hs : ∀ ch ∈ s, ch.toNat < 128) (b : Bytes) :
    c.decode (asciiBytes s ++ b) = s ++ c.decode b := by
  induction s with
  | nil => rfl
  | cons ch s ih =>
      obtain ⟨hch, hs⟩ := List.forall_mem_cons.1 hs
      have hlt : UInt8.ofNat ch.toNat < 128 := by
        rw [UInt8.lt_iff_toNat_lt, UInt8.toNat_ofNat', Nat.mod_eq_of_lt (by omega)]
        exact hch
      have hchar : Char.ofNat (UInt8.ofNat ch.toNat).toNat = ch := by
        rw [UInt8.toNat_ofNat', Nat.mod_eq_of_lt (by omega), Char.ofNat_toNat]
      rw [asciiBytes, List.map_cons, List.cons_append, c.ascii _ _ hlt, hchar]
      exact congrArg (ch :: ·) (ih hs)

theorem toNat_ofNat (hx : x < 128) : (Char.ofNat x.toNat).toNat = x.toNat := by
  have hlt : x.toNat < 128 := UInt8.lt_iff_toNat_lt.1 hx
  have hvalid : x.toNat.isValidChar := .inl (by omega)
  rw [Char.ofNat, dif_pos hvalid]
  rfl

/-- No ASCII character comes up that was not there. -/
theorem not_mem_decode (hc : c.Separates) (hx : x < 128) (h : x ∉ b) : Char.ofNat x.toNat ∉ c.decode b := by
  induction hn : b.length using Nat.strongRecOn generalizing b with
  | ind n ih =>
      by_cases hb : ∃ y ∈ b, y < 128
      · obtain ⟨y, hy, hlt⟩ := hb
        obtain ⟨l, m, rfl⟩ := List.append_of_mem hy
        have hne : x ≠ y := fun he => h (he ▸ hy)
        rw [List.length_append, List.length_cons] at hn
        rw [hc.append _ _ _ hlt, List.mem_append, List.mem_cons]
        rintro (hl | he | hm)
        · exact ih l.length (by omega) (fun hl => h (List.mem_append_left _ hl)) rfl hl
        · have htoNat := congrArg Char.toNat he
          rw [toNat_ofNat hx, toNat_ofNat hlt] at htoNat
          exact hne (UInt8.toNat_inj.1 htoNat)
        · exact ih m.length (by omega) (fun hm => h (List.mem_append_right _ (List.mem_cons_of_mem _ hm))) rfl hm
      · have hge := hc.beyond b (fun y hy => UInt8.not_lt.1 fun hlt => hb ⟨y, hy, hlt⟩)
        intro hmem
        have hle := hge _ hmem
        rw [toNat_ofNat hx] at hle
        have hlt := UInt8.lt_iff_toNat_lt.1 hx
        exact absurd hlt (Nat.not_lt.2 hle)

theorem decode_line (hc : c.Separates) (line rest : Bytes) :
    c.decode (line ++ asciiBytes crlf ++ rest) = c.decode line ++ '\r' :: (['\n'] ++ c.decode rest) := by
  rw [List.append_assoc]
  exact (hc.append line 13 _ (by decide)).trans (congrArg (c.decode line ++ '\r' :: ·) (c.ascii 10 rest (by decide)))

/-- The lines of a text are the pieces that the parser takes it apart into. -/
theorem pieces_unlines (hc : c.Separates) {lines : List Bytes} (h : ∀ line ∈ lines, IsLine line) (rest : Bytes) :
    pieces crlf (c.decode (Request.unlines lines ++ rest)) = lines.map c.decode ++ pieces crlf (c.decode rest) := by
  induction lines with
  | nil => rfl
  | cons line lines ih =>
      obtain ⟨hline, hlines⟩ := List.forall_mem_cons.1 h
      have hcr : '\r' ∉ c.decode line := not_mem_decode hc (x := 13) (by decide) hline.1
      rw [Request.unlines, List.flatMap_cons, List.append_assoc, decode_line hc, crlf, pieces_append hcr]
      exact congrArg (c.decode line :: ·) (ih hlines)

end TunProxy.Vpn
