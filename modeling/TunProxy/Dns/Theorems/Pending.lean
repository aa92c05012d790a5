import TunProxy.Dns.Theorems.QueryId
import TunProxy.Lib.Expiring

/-!
# How long the DNS proxy waits for a response

Queries are forgotten when they are answered, when their identifier is needed again, and ten seconds after they were
sent, but not before.
-/

namespace TunProxy.Dns

open Native (Bytes)
open Vpn
open Lib Lib.Bytes Lib.Expiring
open CommonMethods

/-- `QUERY_TIMEOUT_NS`, in the units of the clock. -/
abbrev queryTimeout : Nat := 10000000000

/-- The proxy at a time, with the times when its queries were sent, and the identifiers that have come back, each with
the number of queries before it. -/
structure TimedWorld where
  world : World
  now : Nat
  sent : List Nat
  back : List (BitVec 16 × Nat)

/-- An event from a time to another one. -/
structure TimedEvent where
  event : Event
  time : Nat
  done : Nat

def TimedWorld.step (x : TimedWorld) (e : TimedEvent) : TimedWorld :=
  let world := x.world.step e.event
  match e.event with
  | .request _ _ _ _ _ =>
      { world, now := e.done, back := x.back
        sent := if world.issued.length = x.world.issued.length then x.sent else x.sent ++ [e.time] }
  | .response _ datagram =>
      { world, now := e.done, sent := x.sent
        back := x.back ++ ((readShort datagram 0).map fun id => (id, x.world.issued.length)).toList }

/-- Time passes, and the clock shows it. It does not come round to its first reading. -/
structure TimedWorld.Ticks (begin : Nat) (x : TimedWorld) (e : TimedEvent) : Prop where
  wellFormed : e.event.WellFormed
  le_time : x.now ≤ e.time
  time_le : e.time ≤ e.done
  done_lt : e.done < begin + 2 ^ 63
  shows : ∀ config data udp p clock, e.event = .request config data udp p clock →
    clock.query = shown e.time ∧ clock.clear = shown e.done

def TimedWorld.start (begin : Nat) : TimedWorld := { world := .start, now := begin, sent := [], back := [] }

/-- The query `i` is waited for: there is no response to it, and it is not old. -/
structure TimedWorld.Waits (x : TimedWorld) (i : Nat) : Prop where
  recent : x.world.issued.length ≤ i + 65536
  unanswered : ∀ r ∈ x.back, r.1 = identifier i → r.2 ≤ i
  young : ∀ n, x.sent[i]? = some n → x.now ≤ n + queryTimeout

variable {x : TimedWorld} {e : TimedEvent} {es : List TimedEvent} {begin i n : Nat} {last : Int → Option Nat}

/-! ## The times of the queries -/

/-- The table has the time of each query that has its identifier and was not answered. -/
structure Waiting (begin : Nat) (x : TimedWorld) (last : Int → Option Nat) : Prop where
  inv : Inv x.world
  length_sent : x.sent.length = x.world.issued.length
  tracks : Tracks QueryState.queryNanoTime queryTimeout begin x.world.proxy.queryArray last x.now
  times : ∀ i n, x.sent[i]? = some n → x.world.issued.length ≤ i + 65536 →
    (∀ r ∈ x.back, r.1 = identifier i → r.2 ≤ i) → last (identifier i).toInt = some n

theorem waiting_start (begin : Nat) : Waiting begin (TimedWorld.start begin) fun _ => none :=
  ⟨inv_start, rfl, Tracks.empty _ _ _, by simp [TimedWorld.start]⟩

theorem clearExpiredQueries_eq (queries : AList fun _ : Int => QueryState) (clock : BitVec 64) :
    clearExpiredQueries queries clock = clear QueryState.queryNanoTime queryTimeout clock queries := by
  apply AList.ext
  refine List.filter_congr fun e _ => ?_
  rw [expired, QUERY_TIMEOUT_NS, ← decide_not, decide_eq_decide, not_lt]
  rfl

/-- A response takes at most the query with its identifier out of the table. -/
theorem response_erases (config : Config) (datagram : Bytes) (s : DnsProxy) :
    (react s (.response config datagram)).1.queries = s.queries ∨
    ∃ id, readShort datagram 0 = some id ∧
      (react s (.response config datagram)).1.queries = (s.queryArray.erase id.toInt, s.queryID) := by
  obtain ⟨t, hq, h⟩ := responseMethod_eq config datagram s
  have hqa : t.queryArray = s.queryArray := congrArg Prod.fst hq
  have hqi : t.queryID = s.queryID := congrArg Prod.snd hq
  rw [react_fst, Event.method]
  rcases h with ⟨fault, h⟩ | h | ⟨p, -, -, -, -, hid, h⟩
  · rw [final, h]
    exact .inl hq
  · rw [final, h]
    exact .inl hq
  · have hf := onDnsResponseReceived_queries config p t
    have hfin : (final (handlePacket config p) t).queries = (final (onDnsResponseReceived config p) t).queries := by
      unfold final handlePacket
      cases hm : onDnsResponseReceived config p t with
      | error fault t' => rw [bind_of_error hm]
      | ok o t' =>
          rw [bind_of_ok hm]
          cases o with
          | none => rfl
          | some d => rfl
    have hr : final (responseMethod config datagram) s = final (handlePacket config p) t := by simp only [final, h]
    rw [hr, hfin, hf]
    cases t.queryArray.lookup p.header.id.toInt with
    | none => exact .inl hq
    | some state => exact .inr ⟨_, hid, by rw [hqa, hqi]⟩

theorem step_world (x : TimedWorld) (e : TimedEvent) : (x.step e).world = x.world.step e.event := by
  unfold TimedWorld.step
  cases e.event with
  | request config data udp p clock => rfl
  | response config datagram => rfl

theorem Waiting.inv_step (hw : Waiting begin x last) (hx : x.Ticks begin e) : Inv (x.step e).world :=
  step_world x e ▸ Dns.inv_step hw.inv hx.wellFormed

/-- A query that is sent. -/
structure Sends (x : TimedWorld) (e : TimedEvent) (state : QueryState) (proxy : DnsProxy) : Prop where
  step : x.step e = {
    world := { x.world with proxy, issued := x.world.issued ++ [state] }
    now := e.done, sent := x.sent ++ [e.time], back := x.back }
  queryNanoTime : state.queryNanoTime = shown e.time
  queryArray : proxy.queryArray = (clear QueryState.queryNanoTime queryTimeout (shown e.done)
    x.world.proxy.queryArray).insert (identifier x.world.issued.length).toInt state

theorem sends_of_issued {config : Config} {data : Bytes} {udp : Nat} {p : DnsPacket} {clock : Clock}
    {state : QueryState} (hw : Inv x.world) (hx : x.Ticks begin e) (he : e.event = .request config data udp p clock)
    (h : Issued data udp clock x.world.proxy (react x.world.proxy (.request config data udp p clock)).1 state) :
    Sends x e state (react x.world.proxy (.request config data udp p clock)).1 := by
  obtain ⟨hquery, hclear⟩ := hx.shows _ _ _ _ _ he
  refine ⟨?_, ?_, ?_⟩
  · simp [TimedWorld.step, he, step_request h]
  · obtain ⟨id, -, hst⟩ := h.read
    simp only [QueryState.ofPacket, Option.bind_eq_bind, Option.bind_eq_some_iff] at hst
    obtain ⟨_, _, _, _, _, _, _, _, hst⟩ := hst
    cases hst
    exact hquery
  · have hid : x.world.proxy.queryID + 1 = identifier x.world.issued.length := by
      rw [hw.counter, identifier, BitVec.ofNat_add]
      rfl
    rw [h.queryArray, hid, clearExpiredQueries_eq, hclear]

/-- A request is sent as a query, or the queries stay as they are. -/
theorem request_sends {config : Config} {data : Bytes} {udp : Nat} {p : DnsPacket} {clock : Clock} (hw : Inv x.world)
    (hx : x.Ticks begin e) (he : e.event = .request config data udp p clock) :
    (∃ proxy, x.step e = { x with world := { x.world with proxy }, now := e.done } ∧
      proxy.queryArray = x.world.proxy.queryArray) ∨ ∃ state proxy, Sends x e state proxy := by
  have hwf := hx.wellFormed
  rw [he] at hwf
  rcases request_spec config clock hwf x.world.proxy with ⟨hq, -⟩ | ⟨state, h, -⟩
  · have hid : (react x.world.proxy (.request config data udp p clock)).1.queryID = x.world.proxy.queryID :=
      congrArg Prod.snd hq
    exact .inl ⟨_, by simp [TimedWorld.step, he, World.step, hid], congrArg Prod.fst hq⟩
  · exact .inr ⟨state, _, sends_of_issued hw hx he h⟩

theorem Waiting.send {state : QueryState} {proxy : DnsProxy} (hw : Waiting begin x last) (hx : x.Ticks begin e)
    (h : Sends x e state proxy) :
    Waiting begin (x.step e) (Function.update last (identifier x.world.issued.length).toInt (some e.time)) := by
  have hinv := hw.inv_step hx
  rw [h.step] at hinv ⊢
  refine ⟨hinv, by simp [hw.length_sent], ?_, ?_⟩
  · dsimp only
    rw [h.queryArray]
    exact (hw.tracks.clear (hx.le_time.trans hx.time_le) hx.done_lt).insert (Nat.le_refl e.done)
      (hw.tracks.start_le.trans hx.le_time) hx.time_le h.queryNanoTime
  · intro i n hi hrecent hback
    simp only [List.length_append, List.length_singleton] at hrecent
    by_cases hlt : i < x.world.issued.length
    · -- the new query has another identifier
      have hne : (identifier i).toInt ≠ (identifier x.world.issued.length).toInt := by
        intro heq
        have := identifier_inj (BitVec.eq_of_toInt_eq heq) (by omega) (by omega)
        omega
      rw [Function.update_of_ne hne]
      rw [List.getElem?_append_left (hw.length_sent ▸ hlt)] at hi
      exact hw.times i n hi (by omega) hback
    · have hlen : i < (x.sent ++ [e.time]).length := (List.getElem?_eq_some_iff.1 hi).1
      simp only [List.length_append, List.length_singleton, hw.length_sent] at hlen
      obtain rfl : i = x.world.issued.length := by omega
      rw [← hw.length_sent, List.getElem?_concat_length] at hi
      rw [Function.update_self, hi]

/-- A response, whatever it takes out of the table. -/
theorem Waiting.receive {config : Config} {datagram : Bytes} (hw : Waiting begin x last) (hx : x.Ticks begin e)
    (he : e.event = .response config datagram) : ∃ last', Waiting begin (x.step e) last' := by
  have hwait := hx.le_time.trans hx.time_le
  have hinv := hw.inv_step hx
  have hstep : x.step e = {
      world := x.world.step (.response config datagram), now := e.done, sent := x.sent
      back := x.back ++ ((readShort datagram 0).map fun id => (id, x.world.issued.length)).toList } := by
    simp [TimedWorld.step, he]
  rw [hstep] at hinv ⊢
  have htimes : ∀ i n, x.sent[i]? = some n → x.world.issued.length ≤ i + 65536 →
      (∀ r ∈ x.back ++ ((readShort datagram 0).map fun id => (id, x.world.issued.length)).toList,
        r.1 = identifier i → r.2 ≤ i) → last (identifier i).toInt = some n :=
    fun i n hi hrecent hback => hw.times i n hi hrecent fun r hr => hback r (List.mem_append_left _ hr)
  rcases response_erases config datagram x.world.proxy with hq | ⟨id, hid, hq⟩
  · have hqa : (react x.world.proxy (.response config datagram)).1.queryArray = x.world.proxy.queryArray :=
      congrArg Prod.fst hq
    refine ⟨last, hinv, hw.length_sent, ?_, htimes⟩
    dsimp only [World.step]
    rw [hqa]
    exact hw.tracks.wait hwait
  · have hqa : (react x.world.proxy (.response config datagram)).1.queryArray
        = x.world.proxy.queryArray.erase id.toInt := congrArg Prod.fst hq
    refine ⟨Function.update last id.toInt none, hinv, hw.length_sent, ?_, ?_⟩
    · dsimp only [World.step]
      rw [hqa]
      exact hw.tracks.erase.wait hwait
    · intro i n hi hrecent hback
      -- else the response came after the query `i` and has its identifier
      have hne : (identifier i).toInt ≠ id.toInt := by
        intro heq
        have hlt := (List.getElem?_eq_some_iff.1 hi).1
        have := hback (id, x.world.issued.length) (by simp [hid]) (BitVec.eq_of_toInt_eq heq).symm
        rw [hw.length_sent] at hlt
        dsimp only at this
        omega
      rw [Function.update_of_ne hne]
      exact htimes i n hi hrecent hback

theorem waiting_step (hw : Waiting begin x last) (hx : x.Ticks begin e) :
    ∃ last', Waiting begin (x.step e) last' := by
  cases he : e.event with
  | request config data udp p clock =>
      rcases request_sends hw.inv hx he with ⟨proxy, hstep, hqa⟩ | ⟨state, proxy, h⟩
      · have hinv := hw.inv_step hx
        rw [hstep] at hinv ⊢
        refine ⟨last, hinv, hw.length_sent, ?_, hw.times⟩
        dsimp only
        rw [hqa]
        exact hw.tracks.wait (hx.le_time.trans hx.time_le)
      · exact ⟨_, hw.send hx h⟩
  | response config datagram => exact hw.receive hx he

theorem waiting_run (h : Run TimedWorld.step (TimedWorld.Ticks begin) (TimedWorld.start begin) es x) :
    ∃ last, Waiting begin x last :=
  h.invariant' (I := fun x => ∃ last, Waiting begin x last) ⟨_, waiting_start begin⟩
    fun _ _ ⟨_, hw⟩ hx => waiting_step hw hx

/-- The query of a client, and nine seconds later a response to another one. -/
def sampleWait : List TimedEvent :=
  [⟨sampleRequest, 0, 0⟩, ⟨.response directConfig (sampleMessage 2), 9000000000, 9000000000⟩]

theorem sampleWait_run :
    Run TimedWorld.step (TimedWorld.Ticks 0) (.start 0) sampleWait (sampleWait.foldl TimedWorld.step (.start 0)) := by
  have hfirst : (TimedWorld.start 0).Ticks 0 ⟨sampleRequest, 0, 0⟩ := by
    refine ⟨sampleRequest_wellFormed, Nat.le_refl 0, Nat.le_refl 0, by decide, ?_⟩
    intro config data udp p clock h
    cases h
    exact ⟨rfl, rfl⟩
  refine .snoc (.snoc .nil hfirst) ⟨trivial, Nat.zero_le _, Nat.le_refl _, by decide, ?_⟩
  intro config data udp p clock h
  cases h

end TunProxy.Dns
