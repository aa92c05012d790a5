import TunProxy.Native.Lemmas.HttpBounds

/-!
# Rewriting of requests

When `patch_http_url` turns the target of a request into an absolute one, leaves all other segments alone, and reads no
byte behind the segment.
-/

namespace TunProxy.Native

open Lib

variable {data : Bytes}

/-! ## Requests -/

def crlf : Bytes := [13, 10]

/-- The text of a line, without its end. -/
def Line (text : Bytes) : Prop := 13 ∉ text ∧ 10 ∉ text

/-- The segment begins with a request line: one of the methods, a space, the target and the version. -/
structure HasRequestLine (data word target rest : Bytes) : Prop where
  listed : word ∈ methods
  chars : target ≠ [] ∧ 32 ∉ target ∧ Line target
  line : ∃ version, Line version ∧ data = word ++ target ++ ascii " HTTP/" ++ version ++ crlf ++ rest

/-- The header section has a line `Host: host`. -/
def HasHost (rest host : Bytes) : Prop :=
  ∃ (lines : List Bytes) (behind : Bytes),
  (∀ line ∈ lines, Line line ∧ line ≠ [] ∧ ¬ascii "Host: " <+: line) ∧ Line host ∧
    rest = lines.flatMap (· ++ crlf) ++ ascii "Host: " ++ host ++ 13 :: behind

def isSchemeByte (b : UInt8) : Bool :=
  (65 ≤ b ∧ b ≤ 90) ∨ (97 ≤ b ∧ b ≤ 122) ∨ (48 ≤ b ∧ b ≤ 57) ∨ b = 43 ∨ b = 45 ∨ b = 46

/-- The target is a URL. -/
def IsAbsolute (target : Bytes) : Prop :=
  ∃ scheme behind, scheme ≠ [] ∧ (∀ b ∈ scheme, isSchemeByte b = true) ∧ target = scheme ++ ascii "://" ++ behind

/-- A request for a path, with the name of its host. -/
def Asks (data word host : Bytes) : Prop :=
  ∃ target rest, HasRequestLine data word target rest ∧ target.head? = some 0x2F ∧ HasHost rest host

/-- What is to be left alone: what begins with no request line, and where the target is a URL already. -/
def Foreign (data : Bytes) : Prop :=
  (∀ word target rest, ¬HasRequestLine data word target rest) ∨
    ∃ word target rest, HasRequestLine data word target rest ∧ IsAbsolute target

/-- `patch_http_url` writes the host in front of the target of a request for a path, leaves alone what it should, and
does not read behind the segment. -/
structure Rewrites (data : Bytes) (heap : Nat → UInt8) : Prop where
  asks : ∀ word host, Asks data word host → ∃ new, patchHttpUrl (memAt data heap) data.length = .some new ∧
    new = word ++ ascii "http://" ++ host ++ data.drop word.length ∧ new.length = data.length + (7 + host.length)
  foreign : Foreign data → patchHttpUrl (memAt data heap) data.length = .none
  bounds : patchHttpUrlIn data ≠ none

/-! ## What it does, in terms of what occurs in the segment -/

/-- No `Host: ` and none of the words occurs, or the first of the words is followed by a URL. -/
def LeftAlone (data : Bytes) : Prop :=
  ¬Occurs toLower (ascii "Host: ") data ∨ (∀ word ∈ methods, ¬Occurs toLower word data) ∨
    ∃ pos1, MethodEnd data methods pos1 ∧ ascii "http:" <+: data.drop pos1

/-- What `patch_http_url` comes to. -/
inductive Patched (data : Bytes) : Patch → Prop
  | alone : LeftAlone data → Patched data .none
  | done {p pos1 : Nat} : FirstAt toLower (ascii "Host: ") data p → MethodEnd data methods pos1 →
      ¬ascii "http:" <+: data.drop pos1 →
      Patched data (.some (data.take pos1 ++ ascii "http://" ++ hostName data p ++ data.drop pos1))

/-- It reads no byte behind the segment: no search is cut off, the host name ends in the segment or is too long, and the
segment does not end within `http:`. -/
def InBounds (data : Bytes) : Prop :=
  (¬Occurs toLower (ascii "Host: ") data ∧ ¬CutOff (ascii "Host: ") data) ∨
    ∃ p, FirstAt toLower (ascii "Host: ") data p ∧ HostEnds data p ∧ WordsEnd data methods ∧
      ∀ pos1, MethodEnd data methods pos1 → ¬((data.drop pos1).length < 5 ∧ data.drop pos1 <+: ascii "http:")

theorem methods_length : ∀ word ∈ methods, 2 < word.length := by
  have h : (methods.all fun word => decide (2 < word.length)) = true := rfl
  intro word hw
  exact of_decide_eq_true (List.all_eq_true.1 h word hw)

theorem comesIn_true {pos : Nat} {value : Bytes} : comesIn data pos value = some true ↔ value <+: data.drop pos := by
  rw [comesIn_eq, compareTo_true, List.map_id, List.map_id, List.prefix_iff_eq_take, eq_comm]

theorem comesIn_none {pos : Nat} {value : Bytes} :
    comesIn data pos value = none ↔ (data.drop pos).length < value.length ∧ data.drop pos <+: value := by
  rw [comesIn_eq, compareTo_none, List.map_id, List.map_id, List.prefix_iff_eq_take]

/-- The result, or none where a byte behind the segment is read. -/
theorem patchHttpUrlIn_cases (data : Bytes) : (∃ r, patchHttpUrlIn data = some r ∧ Patched data r ∧ InBounds data) ∨
    patchHttpUrlIn data = none ∧ ¬InBounds data := by
  have hhost : Scanned (ascii "Host: ") data _ := findDataIn_scanned data (by decide)
  have hmethod := findMethodIn_found data methods_length
  unfold patchHttpUrlIn
  generalize findDataIn data (ascii "Host: ") = found at hhost
  cases hhost with
  | absent hn hc => exact .inl ⟨.none, rfl, .alone (.inl hn), .inl ⟨hn, hc⟩⟩
  | cut hn hc =>
      refine .inr ⟨rfl, ?_⟩
      rintro (⟨-, hnc⟩ | ⟨p, hf, -⟩)
      · exact hnc hc
      · exact hn ⟨p, hf.occurs⟩
  | @found p hf =>
      -- what `InBounds` says when the host is found
      have hin : InBounds data ↔ HostEnds data p ∧ WordsEnd data methods ∧ ∀ pos1, MethodEnd data methods pos1 →
          ¬((data.drop pos1).length < 5 ∧ data.drop pos1 <+: ascii "http:") := by
        constructor
        · rintro (⟨hn, -⟩ | ⟨p', hf', h⟩)
          · exact absurd ⟨p, hf.occurs⟩ hn
          · rwa [hf.unique hf']
        · exact fun h => .inr ⟨p, hf, h⟩
      rw [hin]
      obtain ⟨hends, hname⟩ | ⟨hends, hname⟩ := readHostIn_cases data p
      · show (∃ r, ((readHostIn data 511 (p + 6)).bind _) = some r ∧ _) ∨
          ((readHostIn data 511 (p + 6)).bind _) = none ∧ _
        rw [hname, Option.bind_some]
        generalize findMethodIn data methods = found at hmethod
        cases hmethod with
        | absent he ha =>
            refine .inl ⟨.none, rfl, .alone (.inr (.inl ha)), hends, he, fun pos1 hm => ?_⟩
            obtain ⟨word, hmem, ho⟩ := hm.occurs
            exact absurd ho (ha word hmem)
        | cut he => exact .inr ⟨rfl, fun h => he h.2.1⟩
        | @found pos1 he hm =>
            show (∃ r, ((comesIn data pos1 (ascii "http:")).bind _) = some r ∧ _) ∨
              ((comesIn data pos1 (ascii "http:")).bind _) = none ∧ _
            cases hc : comesIn data pos1 (ascii "http:") with
            | none => exact .inr ⟨rfl, fun h => h.2.2 pos1 hm (comesIn_none.1 hc)⟩
            | some already =>
                have hlong : ∀ q, MethodEnd data methods q →
                    ¬((data.drop q).length < 5 ∧ data.drop q <+: ascii "http:") := by
                  intro q hq h
                  rw [hq.unique hm] at h
                  cases hc.symm.trans (comesIn_none.2 h)
                cases already with
                | true => exact .inl ⟨.none, rfl, .alone (.inr (.inr ⟨pos1, hm, comesIn_true.1 hc⟩)), hends, he, hlong⟩
                | false =>
                    have hnot : ¬ascii "http:" <+: data.drop pos1 := fun h => by
                      cases hc.symm.trans (comesIn_true.2 h)
                    exact .inl ⟨_, rfl, .done hf hm hnot, hends, he, hlong⟩
      · refine .inr ⟨?_, fun h => hends h.1⟩
        show ((readHostIn data 511 (p + 6)).bind _) = none
        rw [hname]
        rfl

theorem Patched.unique {r r' : Patch} (h : Patched data r) (h' : Patched data r') : r = r' := by
  have hnot {p pos1 : Nat} (hf : FirstAt toLower (ascii "Host: ") data p) (hm : MethodEnd data methods pos1)
      (hn : ¬ascii "http:" <+: data.drop pos1) : ¬LeftAlone data := by
    rintro (ha | ha | ⟨pos2, hm', ha⟩)
    · exact ha ⟨p, hf.occurs⟩
    · obtain ⟨word, hmem, ho⟩ := hm.occurs
      exact ha word hmem ho
    · rw [hm'.unique hm] at ha
      exact hn ha
  cases h with
  | alone ha =>
      cases h' with
      | alone => rfl
      | done hf hm hn => exact absurd ha (hnot hf hm hn)
  | done hf hm hn =>
      cases h' with
      | alone ha => exact absurd ha (hnot hf hm hn)
      | done hf' hm' _ => rw [hf.unique hf', hm.unique hm']

/-! ## The request target -/

theorem methods_upper : ∀ word ∈ methods, 0x68 ∉ word := by
  have h : (methods.all fun word => word.all fun b => b != 0x68) = true := rfl
  intro word hw hb
  exact absurd rfl (bne_iff_ne.1 (List.all_eq_true.1 (List.all_eq_true.1 h word hw) _ hb))

/-- A text that begins with h is inserted in front of the slash, or the segments differ. -/
theorem insert_eq {word rest : Bytes} {q : Nat} (url behind : Bytes) (hw : 0x68 ∉ word)
    (hd : data = word ++ 0x2F :: rest)
    (h : data.take q ++ 0x68 :: url ++ data.drop q = word ++ 0x68 :: behind) : q = word.length := by
  obtain hlt | heq | hgt := Nat.lt_trichotomy q word.length
  · have hget := congrArg (·[q]?) h
    have hlen : (data.take q).length = q := by
      rw [hd, List.length_take, List.length_append]
      omega
    rw [List.append_assoc, List.getElem?_append_right (by omega), hlen, Nat.sub_self,
      List.getElem?_append_left hlt] at hget
    exact absurd (List.mem_of_getElem? hget.symm) hw
  · exact heq
  · have hget := congrArg (·[word.length]?) h
    rw [List.append_assoc, List.getElem?_append_left (by rw [hd]; simp; omega), List.getElem?_take_of_lt hgt, hd,
      List.getElem?_append_right (Nat.le_refl _), List.getElem?_append_right (Nat.le_refl _), Nat.sub_self] at hget
    exact absurd (Option.some.inj hget) (by decide)

/-- What is read behind the first `Host: ` is the host, and the target is found. -/
def FindsTarget (data word host : Bytes) : Prop :=
  (∃ p, FirstAt toLower (ascii "Host: ") data p ∧ hostName data p = host) ∧ MethodEnd data methods word.length

/-- The segment is the word, and what begins with a slash. -/
theorem Asks.split {word host : Bytes} (h : Asks data word host) :
    word ∈ methods ∧ ∃ rest, data = word ++ 0x2F :: rest := by
  obtain ⟨target, rest, ⟨hw, -, version, -, rfl⟩, hslash, -⟩ := h
  obtain ⟨target, rfl⟩ := List.head?_eq_some_iff.1 hslash
  refine ⟨hw, target ++ ascii " HTTP/" ++ version ++ crlf ++ rest, ?_⟩
  simp only [List.append_assoc, List.cons_append]

theorem asks_iff {word host : Bytes} {r : Patch} (h : Asks data word host) (hr : Patched data r) :
    r = .some (word ++ ascii "http://" ++ host ++ data.drop word.length) ↔ FindsTarget data word host := by
  obtain ⟨hw, rest, hd⟩ := h.split
  have htake : data.take word.length = word := by rw [hd, List.take_left]
  constructor
  · rintro rfl
    generalize hnew : word ++ ascii "http://" ++ host ++ data.drop word.length = new at hr
    cases hr with
    | @done p pos1 hf hm hn =>
        have heq : data.take pos1 ++ ascii "http://" ++ hostName data p ++ data.drop pos1 =
            word ++ ascii "http://" ++ host ++ data.drop word.length := hnew.symm
        have hcons : ascii "http://" = 0x68 :: ascii "ttp://" := rfl
        have hpos : pos1 = word.length := by
          refine insert_eq (ascii "ttp://" ++ hostName data p) (ascii "ttp://" ++ host ++ data.drop word.length)
            (methods_upper word hw) hd ?_
          simpa only [List.append_assoc, hcons, List.cons_append] using heq
        rw [hpos, htake] at heq
        refine ⟨⟨p, hf, ?_⟩, hpos ▸ hm⟩
        exact List.append_cancel_left (List.append_cancel_right heq)
  · rintro ⟨⟨p, hf, rfl⟩, hm⟩
    have hn : ¬ascii "http:" <+: data.drop word.length := by
      rw [hd, List.drop_left]
      rintro ⟨behind, h⟩
      exact absurd (List.cons.inj h).1 (by decide)
    have hdone := Patched.done hf hm hn
    rw [htake] at hdone
    exact hr.unique hdone

/-! ## Exactly when the claim is met -/

/-- The code reads nothing behind the segment exactly where `InBounds`; it rewrites a request for a path exactly where
it finds the target and the host; and it leaves alone what it should exactly where `LeftAlone`. -/
theorem patch_http_url_iff (data : Bytes) (heap : Nat → UInt8) : Rewrites data heap ↔
    InBounds data ∧ (∀ word host, Asks data word host → FindsTarget data word host) ∧
    (Foreign data → LeftAlone data) := by
  have hresult {r : Patch} (h : patchHttpUrlIn data = some r) : patchHttpUrl (memAt data heap) data.length = r :=
    patchHttpUrlIn_some h heap
  obtain ⟨r, hr, hp, hin⟩ | ⟨hnone, hout⟩ := patchHttpUrlIn_cases data
  · have hr' := hresult hr
    constructor
    · intro h
      refine ⟨hin, fun word host ha => ?_, fun hf => ?_⟩
      · obtain ⟨new, hnew, rfl, -⟩ := h.asks word host ha
        exact (asks_iff ha hp).1 (hr'.symm.trans hnew)
      · rw [← hr', h.foreign hf] at hp
        cases hp with
        | alone ha => exact ha
    · rintro ⟨-, hasks, hforeign⟩
      refine ⟨fun word host ha => ?_, fun hf => ?_, fun hn => ?_⟩
      · have hnew := (asks_iff ha hp).2 (hasks word host ha)
        refine ⟨_, hr'.trans hnew, rfl, ?_⟩
        obtain ⟨hw, rest, hd⟩ := ha.split
        rw [hd, List.drop_left]
        simp only [List.length_append, show (ascii "http://").length = 7 from rfl]
        omega
      · exact hr'.trans (hp.unique (.alone (hforeign hf)))
      · rw [hr] at hn
        cases hn
  · constructor
    · intro h
      exact absurd hnone h.bounds
    · rintro ⟨hin, -⟩
      exact absurd hin hout

/-- A request with a body in which another method occurs, in front of its own in the list. -/
def putWithBody : Bytes := ascii "PUT /a HTTP/1.1\r\nHost: h\r\n\r\nGET b"

theorem patch_http_url_not_target : Asks putWithBody (ascii "PUT ") (ascii "h") ∧ ¬Rewrites putWithBody fun _ => 0 := by
  have hasks : Asks putWithBody (ascii "PUT ") (ascii "h") := by
    refine ⟨ascii "/a", ascii "Host: h\r\n\r\nGET b", ⟨?_, ?_, ascii "1.1", ?_, rfl⟩, rfl, [],
      ascii "\n\r\nGET b", ?_, ?_, rfl⟩
    · exact .tail _ (.tail _ (.head _))
    · exact ⟨by decide, by decide, by decide, by decide⟩
    · exact ⟨by decide, by decide⟩
    · intro line hline
      cases hline
    · exact ⟨by decide, by decide⟩
  refine ⟨hasks, fun h => ?_⟩
  obtain ⟨new, hnew, rfl, -⟩ := h.asks _ _ hasks
  exact absurd hnew (by decide +kernel)

end TunProxy.Native
