import Mathlib.Data.Bool.AllAny
import TunProxy.Vpn.Lemmas.Lines

/-!
# What the parser finds in a request
-/

namespace TunProxy.Vpn

open Native (Bytes)
open HttpHostHeaderParser Http

variable {c : Charset} {ch : Char} {name host : List Char}

namespace Http

/-! ## Characters -/

theorem IsVisible.lt (h : IsVisible ch) : ch.toNat < 128 := by
  have hle : ch.toNat ≤ '~'.toNat := h.2
  exact Nat.lt_of_le_of_lt hle (by decide)

theorem isVisible_of_isDigit (h : ch.isDigit) : IsVisible ch := by
  simp only [Char.isDigit, Bool.and_eq_true, decide_eq_true_eq] at h
  exact ⟨Char.le_trans (show '!' ≤ '0' by decide) h.1, Char.le_trans h.2 (show '9' ≤ '~' by decide)⟩

/-- What a line of the header is made of where it is ASCII. -/
def IsText (ch : Char) : Prop := IsVisible ch ∨ ch = ' ' ∨ ch = '\t'

theorem IsText.lt (h : IsText ch) : ch.toNat < 128 := by
  obtain h | rfl | rfl := h
  · exact h.lt
  · decide
  · decide

theorem isLine_append {l m : Bytes} : IsLine (l ++ m) ↔ IsLine l ∧ IsLine m := by
  simp only [IsLine, List.mem_append, not_or]
  exact and_and_and_comm

theorem isLine_asciiBytes {s : List Char} (h : ∀ ch ∈ s, IsText ch) : IsLine (asciiBytes s) := by
  have hne : ∀ ch ∈ s, ∀ x : UInt8, x < 32 → x ≠ 9 → UInt8.ofNat ch.toNat ≠ x := by
    rintro ch hch x hx hx9 rfl
    have hlt := (h ch hch).lt
    have hx' := UInt8.lt_iff_toNat_lt.1 hx
    rw [UInt8.toNat_ofNat', Nat.mod_eq_of_lt (by omega)] at hx'
    obtain hv | rfl | rfl := h ch hch
    · have hge : 33 ≤ ch.toNat := hv.1
      exact absurd hx' (Nat.not_lt.2 (Nat.le_trans (by decide) hge))
    · exact absurd hx' (by decide)
    · exact hx9 rfl
  constructor
  · intro hmem
    obtain ⟨ch, hch, heq⟩ := List.mem_map.1 hmem
    exact hne ch hch 13 (by decide) (by decide) heq
  · intro hmem
    obtain ⟨ch, hch, heq⟩ := List.mem_map.1 hmem
    exact hne ch hch 10 (by decide) (by decide) heq

theorem isVisible_of_toLower (h : ch.toLower ∈ "host".toList) : IsVisible ch ∧ ch ≠ ':' := by
  unfold Char.toLower at h
  split at h
  · rename_i hupper
    refine ⟨⟨Char.le_trans (show '!' ≤ 'A' by decide) hupper.1, Char.le_trans hupper.2 (show 'Z' ≤ '~' by decide)⟩, ?_⟩
    rintro rfl
    exact absurd hupper.1 (by decide)
  · have hcases : ch = 'h' ∨ ch = 'o' ∨ ch = 's' ∨ ch = 't' := by simpa using h
    rcases hcases with rfl | rfl | rfl | rfl <;> exact ⟨⟨by decide, by decide⟩, by decide⟩

theorem isVisible_of_isHost (h : IsHost name) : ∀ ch ∈ name, IsVisible ch ∧ ch ≠ ':' := by
  intro ch hch
  refine isVisible_of_toLower ?_
  rw [← show name.map Char.toLower = "host".toList from h]
  exact List.mem_map_of_mem hch

theorem toLower_not_blank (h : IsVisible ch) : ¬ch.toLower ≤ ' ' := by
  have hall : ∀ n < 128, 33 ≤ n → ¬(Char.ofNat n).toLower ≤ ' ' := by decide
  have hge : 33 ≤ ch.toNat := h.1
  have := hall ch.toNat h.lt hge
  rwa [Char.ofNat_toNat] at this

theorem trim_visible (h : ∀ ch ∈ name, IsVisible ch ∧ ch ≠ ':') :
    trim (name.map Char.toLower) = name.map Char.toLower := by
  refine trim_eq_self ?_
  intro ch hch
  obtain ⟨ch, hmem, rfl⟩ := List.mem_map.1 hch
  exact toLower_not_blank (h ch hmem).1

/-! ## The other fields -/

theorem Field.isText_name (f : Field) : ∀ ch ∈ f.name ++ [':'], IsText ch := by
  intro ch hch
  obtain hch | hch := List.mem_append.1 hch
  · exact .inl (f.name_visible ch hch).1
  · rw [List.mem_singleton.1 hch]
    exact .inl ⟨by decide, by decide⟩

theorem Field.decode_line (c : Charset) (f : Field) : c.decode f.line = f.name ++ ':' :: c.decode f.value := by
  rw [Field.line, decode_asciiBytes c (fun ch hch => (f.isText_name ch hch).lt), List.append_assoc]
  rfl

/-- The other fields are not taken for that of the host. -/
theorem Field.not_gives (c : Charset) (f : Field) (host : List Char) : ¬Gives (c.decode f.line) host := by
  rintro ⟨name, value, seps, hline, hname, -, -, -, hhost, -⟩
  rw [f.decode_line] at hline
  obtain ⟨rfl, -⟩ := append_unique hline (fun h => (f.name_visible _ h).2 rfl) hname
  rw [trim_visible f.name_visible] at hhost
  exact f.not_host hhost

/-! ## The field of the host -/

namespace HostField

variable {f : HostField}

theorem isText_text (f : HostField) : ∀ ch ∈ f.text, IsText ch := by
  have hport : ∀ ch ∈ f.portPart, IsText ch := by
    intro ch hch
    unfold portPart at hch
    cases hp : f.port with
    | none =>
        rw [hp] at hch
        cases hch
    | some p =>
        rw [hp] at hch
        obtain rfl | hch := List.mem_cons.1 hch
        · exact .inl ⟨by decide, by decide⟩
        · exact .inl (isVisible_of_isDigit ((f.port_digits p hp).2 ch hch))
  intro ch hch
  simp only [text, List.mem_append, List.mem_cons] at hch
  obtain hch | rfl | ((hch | hch) | hch) | hch := hch
  · exact .inl (isVisible_of_isHost f.isHost ch hch).1
  · exact .inl ⟨by decide, by decide⟩
  · exact .inr (f.blank_before ch hch)
  · exact .inl (f.host_visible ch hch)
  · exact hport ch hch
  · exact .inr (f.blank_after ch hch)

theorem decode_line (c : Charset) (f : HostField) : c.decode f.line = f.text := by
  have h := decode_asciiBytes c (fun ch hch => (f.isText_text ch hch).lt) []
  have hnil : c.decode [] = [] := List.length_eq_zero_iff.1 (Nat.le_zero.1 (c.length_le []))
  rwa [List.append_nil, hnil, List.append_nil] at h

/-- Behind the last separator there are only separators. -/
theorem all_of_append {a : Char} {v seps l r : List Char} (h : l ++ a :: r = v ++ seps) (hv : a ∉ v)
    (hseps : ∀ ch ∈ seps, ch = a) : ∀ ch ∈ r, ch = a := by
  obtain ⟨w, rfl, hw⟩ | ⟨w, rfl, hw⟩ := List.append_eq_append_iff.1 h
  · cases w with
    | nil =>
        intro ch hch
        refine hseps ch ?_
        rw [← List.nil_append seps, ← hw]
        exact List.mem_cons_of_mem _ hch
    | cons b w =>
        obtain ⟨rfl, -⟩ := List.cons.inj hw
        exact absurd (List.mem_append_right _ List.mem_cons_self) hv
  · intro ch hch
    refine hseps ch ?_
    rw [hw]
    exact List.mem_append_right _ (List.mem_cons_of_mem _ hch)

theorem trim_value (f : HostField) : trim (f.before ++ f.host ++ f.after) = f.host := by
  have hblank : ∀ ch : Char, ch = ' ' ∨ ch = '\t' → ch ≤ ' ' := by
    rintro ch (rfl | rfl)
    · decide
    · decide
  apply trim_append
  · exact fun ch h => hblank ch (f.blank_before ch h)
  · exact fun ch h => not_blank (f.host_visible ch h)
  · exact fun ch h => hblank ch (f.blank_after ch h)
  · exact f.host_ne

theorem colon_not_mem_value (hcolon : ':' ∉ f.host) : ':' ∉ f.before ++ f.host ++ f.after := by
  intro h
  obtain h | h := List.mem_append.1 h
  · obtain h | h := List.mem_append.1 h
    · exact absurd (f.blank_before _ h) (by decide)
    · exact hcolon h
  · exact absurd (f.blank_after _ h) (by decide)

/-! A value that is read up to a colon, with nothing but colons behind it. -/

section Value

variable {value seps : List Char} (hrest : f.before ++ f.host ++ f.portPart ++ f.after = value ++ seps)
  (hv : ':' ∉ value) (hseps : ∀ ch ∈ seps, ch = ':')

include hrest hv hseps

/-- A host with a colon ends with a bracket behind it. -/
theorem colon_not_mem_host : ':' ∉ f.host := by
  intro h
  have hlast := f.host_colon h
  obtain ⟨l, r, hlr⟩ := List.append_of_mem h
  have hall := all_of_append (a := ':') (l := f.before ++ l) (r := r ++ f.portPart ++ f.after)
    (by simpa [hlr] using hrest) hv hseps
  rw [hlr, List.getLast?_append_cons, List.getLast?_cons] at hlast
  cases hr : r.getLast? with
  | none =>
      rw [hr] at hlast
      cases hlast
  | some x =>
      rw [hr] at hlast
      cases hlast
      have hbracket := hall ']' (List.mem_append_left _ (List.mem_append_left _ (List.mem_of_getLast? hr)))
      cases hbracket

/-- The colon of a port has digits behind it. -/
theorem port_eq_none : f.port = none := by
  cases hp : f.port with
  | none => rfl
  | some p =>
      obtain ⟨hne, hdigit⟩ := f.port_digits p hp
      have hall := all_of_append (a := ':') (l := f.before ++ f.host) (r := p ++ f.after)
        (by simpa [portPart, hp] using hrest) hv hseps
      have hfirst := hdigit _ (List.head_mem hne)
      rw [hall _ (List.mem_append_left _ (List.head_mem hne))] at hfirst
      cases hfirst

theorem trim_eq_host : trim value = f.host := by
  have hvalue := colon_not_mem_value (colon_not_mem_host hrest hv hseps)
  rw [portPart, port_eq_none hrest hv hseps, Option.elim_none, List.append_nil] at hrest
  cases seps with
  | nil =>
      rw [List.append_nil] at hrest
      rw [← hrest, f.trim_value]
  | cons ch seps =>
      rw [hrest, hseps ch List.mem_cons_self] at hvalue
      exact absurd (List.mem_append_right _ List.mem_cons_self) hvalue

end Value

theorem gives_iff {host : List Char} : Gives f.text host ↔ ':' ∉ f.host ∧ f.port = none ∧ host = f.host := by
  have hname : ':' ∉ f.name := fun h => (isVisible_of_isHost f.isHost _ h).2 rfl
  constructor
  · rintro ⟨name, value, seps, hline, hn, hv, -, hseps, -, rfl⟩
    obtain ⟨rfl, hrest⟩ := append_unique hline hname hn
    exact ⟨colon_not_mem_host hrest hv hseps, port_eq_none hrest hv hseps, trim_eq_host hrest hv hseps⟩
  · rintro ⟨hcolon, hport, rfl⟩
    refine ⟨f.name, f.before ++ f.host ++ f.after, [], ?_, hname, ?_, ?_, List.forall_mem_nil _, ?_, f.trim_value⟩
    · rw [text, portPart, hport]
      simp only [Option.elim_none, List.append_nil]
    · exact colon_not_mem_value hcolon
    · simp [f.host_ne]
    · rw [trim_visible (isVisible_of_isHost f.isHost)]
      exact f.isHost

end HostField

/-! ## The request -/

namespace Request

theorem isText_name (m : Method) : ∀ ch ∈ m.name ++ [' '], IsText ch := by
  have h : ∀ ch ∈ m.name ++ [' '], ('!' ≤ ch ∧ ch ≤ '~') ∨ ch = ' ' ∨ ch = '\t' := by
    cases m <;> exact List.all_iff_forall_prop.1 (by decide)
  exact h

theorem isLine_requestLine (r : Request) : IsLine r.requestLine := by
  have hversion : ∀ ch ∈ " HTTP/1.".toList ++ [r.minor], IsText ch := by
    intro ch hch
    obtain hch | hch := List.mem_append.1 hch
    · have h : ∀ ch ∈ " HTTP/1.".toList, ('!' ≤ ch ∧ ch ≤ '~') ∨ ch = ' ' ∨ ch = '\t' :=
        List.all_iff_forall_prop.1 (by decide)
      exact h ch hch
    · rw [List.mem_singleton.1 hch]
      exact .inl (isVisible_of_isDigit r.minor_digit)
  exact isLine_append.2 ⟨isLine_append.2 ⟨isLine_asciiBytes (isText_name _), r.target_line⟩, isLine_asciiBytes hversion⟩

theorem isLine_lines (r : Request) : ∀ line ∈ r.requestLine :: r.fieldLines, IsLine line := by
  have hfield : ∀ fs : List Field, ∀ line ∈ fs.map Field.line, IsLine line := by
    intro fs line hline
    obtain ⟨f, -, rfl⟩ := List.mem_map.1 hline
    exact isLine_append.2 ⟨isLine_asciiBytes f.isText_name, f.isLine⟩
  intro line hline
  simp only [fieldLines, List.mem_cons, List.mem_append] at hline
  obtain rfl | (hline | hline) | hline := hline
  · exact r.isLine_requestLine
  · exact hfield _ line hline
  · obtain ⟨f, -, rfl⟩ := List.mem_map.1 hline
    exact isLine_asciiBytes f.isText_text
  · exact hfield _ line hline

theorem decode_requestLine (c : Charset) (r : Request) :
    ∃ rest, c.decode r.requestLine = r.method.name ++ ' ' :: rest := by
  refine ⟨c.decode (r.target ++ asciiBytes (" HTTP/1.".toList ++ [r.minor])), ?_⟩
  rw [requestLine, List.append_assoc, decode_asciiBytes c fun ch hch => (isText_name _ ch hch).lt, List.append_assoc]
  rfl

theorem pieces_bytes {c : Charset} (hc : c.Separates) (r : Request) : pieces crlf (c.decode r.bytes) =
    c.decode r.requestLine :: (r.fieldLines.map c.decode ++ [] :: r.bodyLines c) := by
  have hnil : c.decode [] = [] := List.length_eq_zero_iff.1 (Nat.le_zero.1 (c.length_le []))
  have hlines : ∀ line ∈ r.requestLine :: r.fieldLines ++ [[]], IsLine line := by
    intro line hline
    obtain hline | hline := List.mem_append.1 hline
    · exact r.isLine_lines line hline
    · rw [List.mem_singleton.1 hline]
      exact ⟨List.not_mem_nil, List.not_mem_nil⟩
  have hbytes : r.bytes = unlines (r.requestLine :: r.fieldLines ++ [[]]) ++ r.body := by
    rw [bytes, unlines, unlines, List.flatMap_append, List.flatMap_singleton, List.nil_append]
  rw [hbytes, pieces_unlines hc hlines, List.map_append, List.map_cons, List.map_singleton, hnil, List.cons_append,
    List.cons_append, List.append_assoc]
  rfl

/-- The lines that the parser sees: the header, the empty line and what the body looks like. -/
theorem split_bytes {c : Charset} (hc : c.Separates) (r : Request) : split crlf (c.decode r.bytes) =
    c.decode r.requestLine :: (r.fieldLines.map c.decode ++ [] :: r.bodyLines c).rdropWhile (·.isEmpty) := by
  have hne : c.decode r.requestLine ≠ [] := by
    obtain ⟨rest, h⟩ := r.decode_requestLine c
    rw [h]
    exact List.append_ne_nil_of_right_ne_nil _ (List.cons_ne_nil _ _)
  rw [split_of_pieces (r.pieces_bytes hc) (List.append_ne_nil_of_right_ne_nil _ (List.cons_ne_nil _ _)),
    rdropWhile_cons]
  split
  · rename_i hnil
    rw [hnil, if_neg (by simpa using hne)]
  · rfl

/-- The loop over the lines: only the field of the host and the body can give one. -/
theorem hostOfLines_request (c : Charset) (r : Request) :
    hostOfLines (r.fieldLines.map c.decode ++ [] :: r.bodyLines c)
      = (r.host.bind fun f => hostOfLines [f.text]).or (hostOfLines (r.bodyLines c)) := by
  have hfields : ∀ fs : List Field, hostOfLines ((fs.map Field.line).map c.decode) = none := by
    intro fs
    refine hostOfLines_eq_none.2 fun line hline host => ?_
    obtain ⟨l, hl, rfl⟩ := List.mem_map.1 hline
    obtain ⟨f, -, rfl⟩ := List.mem_map.1 hl
    exact f.not_gives c host
  have hempty : hostOfLines ([] :: r.bodyLines c) = hostOfLines (r.bodyLines c) := by
    rw [hostOfLines_cons, hostOfLines_nil, Option.none_or]
  rw [fieldLines, List.map_append, List.map_append, hostOfLines_append, hostOfLines_append, hostOfLines_append, hempty,
    hfields, hfields, Option.none_or, Option.or_none]
  cases r.host with
  | none => rfl
  | some f =>
      rw [Option.toList_some, List.map_singleton, List.map_singleton, f.decode_line]
      rfl

end Request

end Http

/-! ## The parser -/

open Http

theorem searched_iff (m : Method) (rest : List Char) :
    ["GET", "POST", "HEAD", "OPTIONS"].any (·.toList.isPrefixOf (m.name ++ ' ' :: rest)) ↔ m.Searched := by
  have h : ["GET", "POST", "HEAD", "OPTIONS"].any (·.toList.isPrefixOf (m.name ++ ' ' :: rest)) =
    decide m.Searched := by
    cases m <;> rfl
  rw [h, decide_eq_true_iff]

theorem getHttpHost_request (hc : c.Separates) (r : Request) (pre post : Bytes) :
    getHttpHost c (pre ++ r.bytes ++ post) pre.length r.bytes.length = some
      (if r.method.Searched then (r.host.bind fun f => hostOfLines [f.text]).or
        (hostOfLines (r.bodyLines c)) else none) := by
  have hstring : newString c (pre ++ r.bytes ++ post) pre.length r.bytes.length = some (c.decode r.bytes) := by
    rw [newString, if_pos (by simp only [List.length_append]; omega), List.append_assoc, List.drop_left, List.take_left]
  have hsplit := r.split_bytes hc
  obtain ⟨rest, hline⟩ := r.decode_requestLine c
  rw [crlf] at hsplit
  rw [getHttpHost, hstring, Option.bind_eq_bind, Option.bind_some, hsplit, hline]
  simp only [searched_iff, hostOfLines_rdropWhile, r.hostOfLines_request c]
  split
  · rfl
  · rfl

theorem first_byte (m : Method) : ∃ b rest, asciiBytes (m.name ++ [' ']) = b :: rest ∧
    b ∈ "GHPDOTC".toList.map fun ch => UInt8.ofNat ch.toNat := by
  cases m <;> exact ⟨_, _, rfl, by decide⟩

theorem parseHost_request (hc : c.Separates) (r : Request) (pre post : Bytes) :
    parseHost c (pre ++ r.bytes ++ post) pre.length r.bytes.length =
      if r.method.Searched then (r.host.bind fun f => hostOfLines [f.text]).or
        (hostOfLines (r.bodyLines c)) else none := by
  obtain ⟨b, rest, hbytes, hb⟩ : ∃ b rest, r.bytes = b :: rest ∧
    b ∈ "GHPDOTC".toList.map fun ch => UInt8.ofNat ch.toNat := by
    obtain ⟨b, rest, hname, hb⟩ := first_byte r.method
    rw [Request.bytes, Request.unlines, List.flatMap_cons, Request.requestLine, hname]
    exact ⟨b, _, rfl, hb⟩
  have hget : (pre ++ r.bytes ++ post)[pre.length]? = some b := by
    rw [hbytes, List.append_assoc, List.getElem?_append_right (Nat.le_refl _), Nat.sub_self]
    rfl
  rw [parseHost, hget]
  simp only [if_pos hb, getHttpHost_request hc]
  rfl

end TunProxy.Vpn
