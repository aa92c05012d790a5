import TunProxy.Vpn.Lemmas.Request

/-!
# The host of a request
-/

namespace TunProxy.Vpn

open Native (Bytes)
open HttpHostHeaderParser Http

variable {c : Charset}

/-- The host of the header is found exactly where the request is readable to the parser. -/
theorem parseHost_host_iff (hc : c.Separates) (r : Request) (pre post : Bytes) :
    parseHost c (pre ++ r.bytes ++ post) pre.length r.bytes.length = r.givenHost ↔ r.Readable c := by
  rw [parseHost_request hc, Request.givenHost, Request.Readable]
  cases r.host with
  | none =>
      rw [Option.bind_none, Option.none_or, Option.map_none, ← hostOfLines_eq_none]
      by_cases hm : r.method.Searched
      · rw [if_pos hm]
        exact ⟨fun h _ => h, fun h => h hm⟩
      · rw [if_neg hm]
        exact ⟨fun _ h => absurd h hm, fun _ => rfl⟩
  | some f =>
      rw [Option.bind_some, Option.map_some]
      by_cases hm : r.method.Searched
      · rw [if_pos hm, Option.or_eq_some_iff, hostOfLine_eq_some, f.gives_iff, hostOfLines_eq_none,
          hostOfLines_eq_some]
        constructor
        · rintro (⟨hcolon, hport, -⟩ | ⟨-, hfirst⟩)
          · exact ⟨hm, .inl ⟨hcolon, hport⟩⟩
          · exact ⟨hm, .inr hfirst⟩
        · rintro ⟨-, ⟨hcolon, hport⟩ | hfirst⟩
          · exact .inl ⟨hcolon, hport, rfl⟩
          · by_cases hplain : ':' ∉ f.host ∧ f.port = none
            · exact .inl ⟨hplain.1, hplain.2, rfl⟩
            · refine .inr ⟨List.forall_mem_singleton.2 fun host hgives => ?_, hfirst⟩
              obtain ⟨hcolon, hport, -⟩ := f.gives_iff.1 hgives
              exact hplain ⟨hcolon, hport⟩
      · rw [if_neg hm]
        constructor
        · intro h
          cases h
        · rintro ⟨h, -⟩
          exact absurd h hm

/-! ## A request that is not searched -/

theorem usAscii_separates : Charset.usAscii.Separates where
  append l x m hx := by
    simp only [Charset.usAscii, List.map_append, List.map_cons, if_pos hx]
  beyond l h ch hch := by
    obtain ⟨x, hx, rfl⟩ := List.mem_map.1 hch
    rw [if_neg (UInt8.not_lt.2 (h x hx))]
    decide

/-- `Host: a` -/
def hostA : HostField where
  name := "Host".toList
  before := [' ']
  host := ['a']
  port := none
  after := []
  isHost := show "Host".toList.map Char.toLower = "host".toList by decide
  blank_before := List.forall_mem_singleton.2 (by decide)
  host_ne := List.cons_ne_nil _ _
  host_visible := by
    intro ch hch
    rw [List.mem_singleton.1 hch]
    exact ⟨by decide, by decide⟩
  host_colon := by decide
  port_digits := by
    intro p hp
    cases hp
  blank_after := List.forall_mem_nil _

/-- `PUT / HTTP/1.1` with the host `a` and nothing else. -/
def putRequest : Request where
  method := .PUT
  target := [47]
  minor := '1'
  before := []
  host := some hostA
  after := []
  body := []
  target_line := ⟨by decide, by decide⟩
  minor_digit := by decide

def getRequest : Request := { putRequest with method := .GET }

/-- The host of the GET is read, and that of the PUT is not. -/
theorem parseHost_host_iff_put :
    (parseHost .usAscii ([] ++ putRequest.bytes ++ []) 0 putRequest.bytes.length = putRequest.givenHost
      ↔ putRequest.Readable .usAscii) ∧
    parseHost .usAscii ([] ++ getRequest.bytes ++ []) 0 getRequest.bytes.length = some ['a'] :=
  ⟨parseHost_host_iff usAscii_separates putRequest [] [],
    (parseHost_host_iff usAscii_separates getRequest [] []).2 ⟨by decide, .inl ⟨by decide, rfl⟩⟩⟩

theorem parseHost_not_host : ¬∀ (c : Charset), c.Separates → ∀ (r : Request) (pre post : Bytes),
    parseHost c (pre ++ r.bytes ++ post) pre.length r.bytes.length = r.givenHost := by
  intro h
  have hput := h .usAscii usAscii_separates putRequest [] []
  rw [parseHost_request usAscii_separates, if_neg (by decide)] at hput
  cases hput

end TunProxy.Vpn
