import TunProxy.Lib.Run
import TunProxy.Dns.Lemmas.Proxy

/-!
# Query identifiers

Every query that is sent upstream gets the next identifier of a counter that wraps around. A response goes to
the client that asked.
-/

namespace TunProxy.Dns

open Native (Bytes)
open Vpn
open Lib Lib.Bytes
open CommonMethods

variable {w : World} {es : List Event} {e : Event} {i j n : Nat} {id : BitVec 16}

/-! ## The queries so far -/

/-- The proxy, the queries that got an identifier so far, and the indexes of those that were answered. -/
structure World where
  proxy : DnsProxy
  issued : List QueryState
  answered : List Nat

/-- The identifier of the query with the index `i`. -/
def identifier (i : Nat) : BitVec 16 := BitVec.ofNat 16 (i + 1)

/-- Of the first `n` queries, the last one with the identifier. -/
def lastIssued (id : BitVec 16) : Nat → Option Nat
  | 0 => none
  | n + 1 => if identifier n = id then some n else lastIssued id n

/-- What a packet says of the query in it. -/
def queryOf (data : Bytes) (udp : Nat) (time : BitVec 64) : Option QueryState := do
  QueryState.ofPacket data udp (← readShort data (udp + 8)) time

/-- The query that is answered when the datagram is delivered: the last one with its identifier. -/
def answeredBy (datagram : Bytes) (n : Nat) : Output → Option Nat
  | .tun _ => do lastIssued (← readShort datagram 0) n
  | _ => none

/-- A query is issued where the counter moves. -/
def World.step (w : World) : Event → World
  | .request config data udp p clock =>
      let r := react w.proxy (.request config data udp p clock)
      if r.1.queryID = w.proxy.queryID then { w with proxy := r.1 }
      else { w with proxy := r.1, issued := w.issued ++ (queryOf data udp clock.query).toList }
  | .response config datagram =>
      let r := react w.proxy (.response config datagram)
      { w with proxy := r.1, answered := w.answered ++ (answeredBy datagram w.issued.length r.2).toList }

def World.start : World := { proxy := startProxy, issued := [], answered := [] }

/-- The packet that `onDnsRequestReceived` is called with is the one in the datagram. -/
def Event.WellFormed : Event → Prop
  | .request _ data udp p _ => IsQuery data udp p
  | .response _ _ => True

theorem lastIssued_eq_some :
    lastIssued id n = some i ↔ i < n ∧ identifier i = id ∧ ∀ j, j < n → identifier j = id → j ≤ i := by
  induction n with
  | zero => simp [lastIssued]
  | succ n ih =>
      unfold lastIssued
      split
      · rename_i hn
        constructor
        · intro h
          cases h
          exact ⟨Nat.lt_succ_self _, hn, fun j hj _ => Nat.le_of_lt_succ hj⟩
        · rintro ⟨hi, -, hlast⟩
          have := hlast n (Nat.lt_succ_self n) hn
          rw [Option.some.injEq]
          omega
      · rename_i hn
        rw [ih]
        constructor
        · rintro ⟨hi, hid, hlast⟩
          refine ⟨by omega, hid, fun j hj hjd => ?_⟩
          rcases Nat.lt_succ_iff_lt_or_eq.1 hj with hj | rfl
          · exact hlast j hj hjd
          · exact absurd hjd hn
        · rintro ⟨hi, hid, hlast⟩
          refine ⟨?_, hid, fun j hj => hlast j (by omega)⟩
          rcases Nat.lt_succ_iff_lt_or_eq.1 hi with hi | rfl
          · exact hi
          · exact absurd hid hn

/-- Fewer than 65536 queries after another one, the identifier is not in use again. -/
theorem identifier_inj (h : identifier i = identifier j) (hij : i ≤ j) (hlt : j - i < 65536) : i = j := by
  have h := congrArg BitVec.toNat h
  simp only [identifier, BitVec.toNat_ofNat] at h
  omega

/-! ## The invariant -/

/-- The table knows a query under its identifier only while no later query has it, and not once it is answered. -/
structure Inv (w : World) : Prop where
  counter : w.proxy.queryID = BitVec.ofNat 16 w.issued.length
  table : ∀ k state, w.proxy.queryArray.lookup k = some state → ∃ i, w.issued[i]? = some state ∧
    k = (identifier i).toInt ∧ lastIssued (identifier i) w.issued.length = some i ∧ i ∉ w.answered
  answered_lt : ∀ i ∈ w.answered, i < w.issued.length
  nodup : w.answered.Nodup

theorem inv_start : Inv World.start := by
  refine ⟨rfl, ?_, ?_, List.nodup_nil⟩
  · intro k state h
    have h : (∅ : AList fun _ : Int => QueryState).lookup k = some state := h
    rw [AList.lookup_empty] at h
    cases h
  · intro i hi
    cases hi

theorem lookup_clearExpiredQueries {queries : AList fun _ : Int => QueryState} {now : BitVec 64} {k : Int}
    {state : QueryState} (h : (clearExpiredQueries queries now).lookup k = some state) :
    queries.lookup k = some state := by
  have hm : (⟨k, state⟩ : Sigma fun _ : Int => QueryState) ∈ (clearExpiredQueries queries now).entries :=
    AList.mem_lookup_iff.1 h
  exact AList.mem_lookup_iff.2 (List.mem_filter.1 hm).1

theorem lookup_erase_some {queries : AList fun _ : Int => QueryState} {k k' : Int} {state : QueryState}
    (h : (queries.erase k).lookup k' = some state) : k' ≠ k ∧ queries.lookup k' = some state := by
  have hne : k' ≠ k := by
    rintro rfl
    rw [AList.lookup_erase] at h
    cases h
  rw [AList.lookup_erase_ne hne] at h
  exact ⟨hne, h⟩

theorem Inv.of_queries {proxy : DnsProxy} (hw : Inv w) (hq : proxy.queries = w.proxy.queries) :
    Inv { w with proxy } where
  counter := (congrArg Prod.snd hq).trans hw.counter
  table k state h := by
    have hqa : proxy.queryArray = w.proxy.queryArray := congrArg Prod.fst hq
    exact hw.table k state (hqa ▸ h)
  answered_lt := hw.answered_lt
  nodup := hw.nodup

theorem Inv.erase {proxy : DnsProxy} {k : Int} (hw : Inv w)
    (hq : proxy.queries = (w.proxy.queryArray.erase k, w.proxy.queryID)) : Inv { w with proxy } where
  counter := (congrArg Prod.snd hq).trans hw.counter
  table k' state h := by
    have hqa : proxy.queryArray = w.proxy.queryArray.erase k := congrArg Prod.fst hq
    dsimp only at h
    rw [hqa] at h
    exact hw.table k' state (lookup_erase_some h).2
  answered_lt := hw.answered_lt
  nodup := hw.nodup

/-- The next query takes an identifier over from the one that had it before. -/
theorem Inv.issue {proxy : DnsProxy} {data : Bytes} {udp : Nat} {clock : Clock} {state : QueryState} (hw : Inv w)
    (h : Issued data udp clock w.proxy proxy state) : Inv { w with proxy, issued := w.issued ++ [state] } := by
  have hid : identifier w.issued.length = w.proxy.queryID + 1 := by
    rw [hw.counter, identifier, BitVec.ofNat_add]
    rfl
  refine ⟨?_, ?_, ?_, hw.nodup⟩
  · rw [h.queryID, ← hid, List.length_append]
    rfl
  · intro k state' hl
    dsimp only at hl ⊢
    rw [h.queryArray, ← hid] at hl
    rw [List.length_append, List.length_singleton]
    by_cases hk : k = (identifier w.issued.length).toInt
    · subst hk
      rw [AList.lookup_insert] at hl
      cases hl
      refine ⟨w.issued.length, by simp, rfl, by simp [lastIssued], fun hi => ?_⟩
      exact absurd (hw.answered_lt _ hi) (Nat.lt_irrefl _)
    · rw [AList.lookup_insert_ne hk] at hl
      obtain ⟨i, hi, rfl, hlast, hans⟩ := hw.table k state' (lookup_clearExpiredQueries hl)
      refine ⟨i, ?_, rfl, ?_, hans⟩
      · rw [List.getElem?_append_left (lastIssued_eq_some.1 hlast).1, hi]
      · rw [lastIssued, if_neg, hlast]
        intro heq
        exact hk (congrArg _ heq.symm)
  · intro i hi
    have := hw.answered_lt i hi
    simp only [List.length_append, List.length_singleton]
    omega

/-- An answered query is no longer in the table. -/
theorem Inv.answer {proxy : DnsProxy} {state : QueryState} (hw : Inv w)
    (hl : w.proxy.queryArray.lookup id.toInt = some state)
    (hq : proxy.queries = (w.proxy.queryArray.erase id.toInt, w.proxy.queryID)) :
    ∃ i, lastIssued id w.issued.length = some i ∧ w.issued[i]? = some state ∧ i ∉ w.answered ∧
      Inv { w with proxy, answered := w.answered ++ [i] } := by
  obtain ⟨i, hi, hk, hlast, hans⟩ := hw.table _ _ hl
  obtain rfl : id = identifier i := BitVec.eq_of_toInt_eq hk
  have hlt := (lastIssued_eq_some.1 hlast).1
  refine ⟨i, hlast, hi, hans, ?_, ?_, ?_, ?_⟩
  · exact (congrArg Prod.snd hq).trans hw.counter
  · intro k state' hl'
    have hqa : proxy.queryArray = w.proxy.queryArray.erase (identifier i).toInt := congrArg Prod.fst hq
    dsimp only at hl' ⊢
    rw [hqa] at hl'
    obtain ⟨hne, hl'⟩ := lookup_erase_some hl'
    obtain ⟨i', hi', rfl, hlast', hans'⟩ := hw.table k state' hl'
    refine ⟨i', hi', rfl, hlast', ?_⟩
    intro hm
    rcases List.mem_append.1 hm with hm | hm
    · exact hans' hm
    · obtain rfl := List.mem_singleton.1 hm
      exact hne rfl
  · intro j hj
    rcases List.mem_append.1 hj with hj | hj
    · exact hw.answered_lt j hj
    · obtain rfl := List.mem_singleton.1 hj
      exact hlt
  · exact List.nodup_append.2 ⟨hw.nodup, List.nodup_singleton i, by
      rintro a ha b hb rfl
      obtain rfl := List.mem_singleton.1 hb
      exact hans ha⟩

/-! ## Steps -/

theorem succ_ne (v : BitVec 16) : v + 1 ≠ v := by
  intro h
  have h := congrArg BitVec.toNat h
  rw [BitVec.toNat_add] at h
  have := v.isLt
  have h1 : (1 : BitVec 16).toNat = 1 := rfl
  omega

theorem Issued.queryOf {data : Bytes} {udp : Nat} {clock : Clock} {s t : DnsProxy} {state : QueryState}
    (h : Issued data udp clock s t state) : queryOf data udp clock.query = some state := by
  obtain ⟨id, hid, hst⟩ := h.read
  rw [Dns.queryOf, hid, Option.bind_eq_bind, Option.bind_some, hst]

theorem step_request {config : Config} {data : Bytes} {udp : Nat} {p : DnsPacket} {clock : Clock} {state : QueryState}
    (h : Issued data udp clock w.proxy (react w.proxy (.request config data udp p clock)).1 state) :
    w.step (.request config data udp p clock) =
      { w with proxy := (react w.proxy (.request config data udp p clock)).1, issued := w.issued ++ [state] } := by
  rw [World.step, if_neg (by rw [h.queryID]; exact succ_ne _), h.queryOf]
  rfl

theorem inv_step (hw : Inv w) (he : e.WellFormed) : Inv (w.step e) := by
  cases e with
  | request config data udp p clock =>
      rcases request_spec config clock he w.proxy with ⟨hq, -⟩ | ⟨state, h, -⟩
      · have hs : w.step (.request config data udp p clock)
            = { w with proxy := (react w.proxy (.request config data udp p clock)).1 } :=
          if_pos (congrArg Prod.snd hq)
        rw [hs]
        exact hw.of_queries hq
      · rw [step_request h]
        exact hw.issue h
  | response config datagram =>
      rcases response_spec config datagram w.proxy with ⟨hq, hn⟩ | ⟨id, state, d, hid, hl, hd, -, hq⟩
      · have ha : answeredBy datagram w.issued.length (react w.proxy (.response config datagram)).2 = none := by
          cases hout : (react w.proxy (.response config datagram)).2 with
          | tun d => exact absurd hout (hn d)
          | nothing => rfl
          | upstream g => rfl
        rw [World.step, ha, Option.toList_none, List.append_nil]
        rcases hq with hq | ⟨k, hq⟩
        · exact hw.of_queries hq
        · exact hw.erase hq
      · obtain ⟨i, hlast, -, -, hinv⟩ := hw.answer hl hq
        have ha : answeredBy datagram w.issued.length (react w.proxy (.response config datagram)).2 = some i := by
          rw [hd, answeredBy, hid]
          exact hlast
        rw [World.step, ha]
        exact hinv

theorem inv_run (h : Run World.step (fun _ e => e.WellFormed) World.start es w) : Inv w :=
  h.invariant' inv_start fun _ _ hw he => inv_step hw he

/-- In every run, whatever is sent and received next:
a query that goes upstream carries the identifier of its index, and is the client's in all other bytes;
a response that is delivered answers a query that was issued with its identifier and has not been answered, the
only such one with fewer than 65536 queries issued since; it goes to the client that asked, with the client's
identifier, as if from the server that was asked, and its length fields are right. -/
theorem response_answers (h : Run World.step (fun _ e => e.WellFormed) World.start es w) :
    w.answered.Nodup ∧
    (∀ config data udp p clock g, IsQuery data udp p →
      (react w.proxy (.request config data udp p clock)).2 = .upstream g →
      ∃ query, queryOf data udp clock.query = some query ∧
        (w.step (.request config data udp p clock)).issued = w.issued ++ [query] ∧
        g.data = toBE 2 (identifier w.issued.length).toNat ++ slice (udp + 10) (p.size - 2) data ∧
        g.address = query.remoteIP ∧ g.port = query.remotePort) ∧
    ∀ config datagram d, (react w.proxy (.response config datagram)).2 = .tun d →
      ∃ id i query, readShort datagram 0 = some id ∧ w.issued[i]? = some query ∧ identifier i = id ∧
        (∀ j, j < w.issued.length → identifier j = id → w.issued.length - 1 - j < 65536 → j = i) ∧
        i ∉ w.answered ∧ (w.step (.response config datagram)).answered = w.answered ++ [i] ∧ d.Answers query := by
  have hw := inv_run h
  refine ⟨hw.nodup, ?_, ?_⟩
  · intro config data udp p clock g hp hg
    rcases request_spec config clock hp w.proxy with ⟨-, hn⟩ | ⟨query, hi, hn | hu⟩
    · rw [hn] at hg
      cases hg
    · rw [hn] at hg
      cases hg
    · rw [hu] at hg
      cases hg
      have hid : w.proxy.queryID + 1 = identifier w.issued.length := by
        rw [hw.counter, identifier, BitVec.ofNat_add]
        rfl
      exact ⟨query, hi.queryOf, by rw [step_request hi], by rw [hid], rfl, rfl⟩
  · intro config datagram d hd
    rcases response_spec config datagram w.proxy with ⟨-, hn⟩ | ⟨id, state, d', hid, hl, hd', ha, hq⟩
    · exact absurd hd (hn d)
    · obtain rfl : d = d' := by
        rw [hd] at hd'
        cases hd'
        rfl
      obtain ⟨i, hlast, hi, hans, -⟩ := hw.answer hl hq
      obtain ⟨hlt, hidi, hmax⟩ := lastIssued_eq_some.1 hlast
      refine ⟨id, i, state, hid, hi, hidi, ?_, hans, ?_, ha⟩
      · intro j hj hjd hrecent
        exact identifier_inj (hjd.trans hidi.symm) (hmax j hj hjd) (by omega)
      · have hby : answeredBy datagram w.issued.length (react w.proxy (.response config datagram)).2 = some i := by
          rw [hd, answeredBy, hid]
          exact hlast
        rw [World.step, hby]
        rfl

/-! ## A query and its response -/

def directConfig : Config where
  needProxy _ _ := false
  dnsTTL := 30
  hashCode _ := 0

/-- A query for the domain `a` with the identifier `id`. -/
def sampleMessage (id : BitVec 16) : Bytes :=
  toBE 2 id.toNat ++ [1, 0, 0, 1, 0, 0, 0, 0, 0, 0, 1, 97, 0, 0, 1, 0, 1]

def sampleQueryPacket : Bytes :=
  [0x45, 0, 0, 47, 0, 0, 0, 0, 64, 17, 0, 0, 10, 8, 0, 2, 8, 8, 8, 8, 0x30, 0x39, 0, 53, 0, 27, 0, 0]
    ++ sampleMessage 0x1234

def sampleDnsPacket : DnsPacket where
  header := {
    id := 0x1234, flags := .parse 0x0100, questionCount := 1, resourceCount := 0, aResourceCount := 0
    eResourceCount := 0, offset := 28 }
  questions := [{ domain := ['a'], type := 1, cls := 1, offset := 40, length := 7 }]
  resources := []
  aResources := []
  eResources := []
  size := 19

def sampleRequest : Event := .request directConfig sampleQueryPacket 20 sampleDnsPacket ⟨0, 0⟩

theorem sampleRequest_wellFormed : sampleRequest.WellFormed :=
  ⟨19, { array := sampleQueryPacket, arrayOffset := 28, position := 0, limit := 19 }, dif_pos (by decide),
    by decide +kernel⟩

def Output.isTun : Output → Bool
  | .tun _ => true
  | _ => false

theorem Output.isTun_iff {out : Output} : out.isTun = true ↔ ∃ d, out = .tun d := by
  cases out with
  | tun d => simp [Output.isTun]
  | nothing => simp [Output.isTun]
  | upstream g => simp [Output.isTun]

/-- The response that carries the identifier 1 is delivered, to the client whose query got this identifier. -/
theorem response_answers_first :
    ∃ d i query, (react (World.start.step sampleRequest).proxy (.response directConfig (sampleMessage 1))).2 = .tun d ∧
      (World.start.step sampleRequest).issued[i]? = some query ∧ identifier i = 1 ∧ d.Answers query := by
  have hout :
    (react (World.start.step sampleRequest).proxy (.response directConfig (sampleMessage 1))).2.isTun = true := by
    decide +kernel
  obtain ⟨d, hd⟩ := Output.isTun_iff.1 hout
  have h := (response_answers (.snoc .nil sampleRequest_wellFormed)).2.2 directConfig (sampleMessage 1) d hd
  obtain ⟨id, i, query, hid, hi, hidi, -, -, -, ha⟩ := h
  have h1 : readShort (sampleMessage 1) 0 = some 1 := by decide
  rw [h1] at hid
  cases hid
  exact ⟨d, i, query, hd, hi, hidi, ha⟩

end TunProxy.Dns
