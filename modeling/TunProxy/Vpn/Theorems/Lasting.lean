import TunProxy.Lib.Expiring
import TunProxy.Vpn.Theorems.Transparency

/-!
# How long the NAT knows a connection

A session is cleared away only when there are many, and none that was used in the last minute.
-/

namespace TunProxy.Vpn

open Native (Bytes)
open Lib Lib.Expiring CommonMethods NatSessionManager

variable {env : Env} {s s' s₀ : Service} {data : Bytes} {size : Nat} {clock : Clock} {out : Option Bytes} {t : Sessions}
  {k : Int} {ip : BitVec 32} {port : BitVec 16} {last : Int → Option Nat} {start now n : Nat}

/-! ## Times -/

/-- `SESSION_TIMEOUT_NS`. -/
abbrev sessionTimeout : Nat := 60000000000

/-- The times at which the clock is read while an input is handled, from `arrives` to `done`. -/
structure Clock.During (clock : Clock) (arrives done n₁ n₂ n₃ : Nat) : Prop where
  get : clock.get = shown n₁
  clear : clock.clear = shown n₂
  create : clock.create = shown n₃
  last : clock.last = shown done
  get_le : arrives ≤ n₁
  clear_le : n₁ ≤ n₂
  create_le : n₂ ≤ n₃
  last_le : n₃ ≤ done

/-- The times of the sessions. -/
abbrev Timed (start : Nat) (t : Sessions) (last : Int → Option Nat) (now : Nat) : Prop :=
  Tracks NatSession.lastNanoTime sessionTimeout start t last now

theorem timed_getSession (h : Timed start t last now) (hn : now ≤ n) :
    ∃ last', Timed start (getSession t k (shown n)).1 last' n ∧ Advances last last' := by
  unfold getSession
  cases t.lookup k with
  | none => exact ⟨last, h.wait hn, .refl last⟩
  | some session => exact ⟨_, h.use hn rfl, h.advances hn⟩

theorem timed_createSession (env : Env) (k : Int) (ip : BitVec 32) (port : BitVec 16) {n₂ n₃ : Nat}
    (h : Timed start t last now) (hclear : clock.clear = shown n₂)
    (hcreate : clock.create = shown n₃) (hn : now ≤ n₂) (hle : n₂ ≤ n₃) (hlt : n₃ < start + 2 ^ 63) :
    ∃ last', Timed start (createSession env t k ip port clock).1 last' n₃ ∧ Advances last last' := by
  have hkept : Timed start (if t.keys.length > MAX_SESSION_COUNT then clearExpiredSessions t clock.clear else t) last
      n₂ := by
    split
    · rw [hclear]
      exact h.clear hn (by omega)
    · exact h.wait hn
  exact ⟨_, hkept.use hle hcreate, hkept.advances hle⟩

/-- The session of a packet was used when the packet was done. -/
theorem timed_countPacket (env : Env) (k : Int) (ip : BitVec 32) (port : BitVec 16) {arrives done n₁ n₂ n₃ : Nat}
    (h : Timed start t last now) (hn : now ≤ arrives)
    (hc : clock.During arrives done n₁ n₂ n₃) (hlt : done < start + 2 ^ 63) :
    ∃ last', Timed start (countPacket env t k ip port clock).1 last' done ∧ Advances last last' ∧
      last' k = some done := by
  have hclear := hc.clear_le
  have hcreate := hc.create_le
  have hlast := hc.last_le
  obtain ⟨last₁, h₁, hadv₁⟩ := timed_getSession (k := k) h (hn.trans hc.get_le)
  rw [← hc.get] at h₁
  obtain ⟨last₂, h₂, hadv₂⟩ := timed_createSession env k ip port h₁ hc.clear hc.create hclear hcreate (by omega)
  have hkept : Timed start (getSession t k clock.get).1 last₁ n₃ := h₁.wait (by omega)
  have hcreated : ∀ e : NatSession, e.lastNanoTime = clock.last → ∃ last', Timed start
      ((createSession env (getSession t k clock.get).1 k ip port clock).1.insert k e) last' done ∧
      Advances last last' ∧ last' k = some done := fun e he =>
    ⟨_, h₂.use hlast (he.trans hc.last), hadv₁.trans (hadv₂.trans (h₂.advances hlast)), Function.update_self ..⟩
  unfold countPacket
  generalize getSession t k clock.get = found at hkept hcreated
  obtain ⟨t₁, found⟩ := found
  cases found with
  | none => exact hcreated _ rfl
  | some session =>
      by_cases hne : session.remoteIP ≠ ip ∨ session.remotePort ≠ port
      · simp only [hne, if_true]
        exact hcreated _ rfl
      · simp only [hne, if_false]
        exact ⟨_, hkept.use hlast hc.last, hadv₁.trans (hkept.advances hlast), Function.update_self ..⟩

/-! ## What is done to the table -/

/-- The host that the data of a packet names. -/
def namedHost (charset : Charset) (data : Bytes) : Option (List Char) := do
  let offset ← IPHeader.getHeaderLength data
  let tcpDataSize : Int := (← IPHeader.getDataLength data) - (← TCPHeader.getHeaderLength data offset)
  let dataOffset := offset + (← TCPHeader.getHeaderLength data offset)
  HttpHostHeaderParser.parseHost charset data dataOffset tcpDataSize.toNat

/-- The session `e` is `e₀` after a packet in it was forwarded. -/
structure Sent (env : Env) (data : Bytes) (e₀ e : NatSession) : Prop where
  last : e.lastNanoTime = e₀.lastNanoTime
  remoteIP : e.remoteIP = e₀.remoteIP
  remotePort : e.remotePort = e₀.remotePort
  host : e.remoteHost = e₀.remoteHost ∨ namedHost env.charset data = some e.remoteHost

/-- What handling a packet does to the table. -/
inductive Turns (env : Env) (clock : Clock) (data : Bytes) (s s' : Service) : Prop
  | idle (hc : clientConn s data = none) (h : s'.sessions = s.sessions)
  | server (hc : clientConn s data = none) (k : Int) (h : s'.sessions = (getSession s.sessions k clock.get).1)
  | client (c : Conn) (hc : clientConn s data = some c)
      (h : s'.sessions = (countPacket env s.sessions c.sport.toInt c.dest c.dport clock).1 ∨
        ∃ e, Sent env data (countPacket env s.sessions c.sport.toInt c.dest c.dport clock).2 e ∧
          s'.sessions = (countPacket env s.sessions c.sport.toInt c.dest c.dport clock).1.insert c.sport.toInt e)

theorem countPacket_last (env : Env) (t : Sessions) (k : Int) (ip : BitVec 32) (port : BitVec 16) (clock : Clock) :
    (countPacket env t k ip port clock).2.lastNanoTime = clock.last := by
  rcases countPacket_snd env t k ip port clock with ⟨e, -, h⟩ | ⟨-, host, h⟩
  · rw [h]
  · rw [h]

theorem findHost_sent {offset n : Nat} {m : Int} {e : NatSession} (ho : IPHeader.getHeaderLength data = some offset)
    (hn : TCPHeader.getHeaderLength data offset = some n) (hm : IPHeader.getDataLength data = some m)
    (sent : BitVec 32) :
    Sent env data e { findHost env e data (offset + n) (m - n) with bytesSent := sent } := by
  have hhost : namedHost env.charset data
      = HttpHostHeaderParser.parseHost env.charset data (offset + n) (m - n).toNat := by simp [namedHost, ho, hn, hm]
  unfold findHost
  split
  · split
    · rename_i host hparse
      exact ⟨rfl, rfl, rfl, .inr (hhost.trans hparse)⟩
    · exact ⟨rfl, rfl, rfl, .inl rfl⟩
  · exact ⟨rfl, rfl, rfl, .inl rfl⟩

theorem fromClient_turns {offset : Nat} (ho : IPHeader.getHeaderLength data = some offset)
    (h : fromClient env s data size offset clock = some (s', out)) :
    ∃ c : Conn, TCPHeader.getSourcePort data offset = some c.sport ∧
      IPHeader.getDestinationIP data = some c.dest ∧ TCPHeader.getDestinationPort data offset = some c.dport ∧
      (s'.sessions = (countPacket env s.sessions c.sport.toInt c.dest c.dport clock).1 ∨
        ∃ e, Sent env data (countPacket env s.sessions c.sport.toInt c.dest c.dport clock).2 e ∧
          s'.sessions = (countPacket env s.sessions c.sport.toInt c.dest c.dport clock).1.insert c.sport.toInt e) := by
  simp only [fromClient, Option.bind_eq_bind, Option.bind_eq_some_iff] at h
  obtain ⟨sport, hs, dest, hd, dport, hdp, m, hm, n, hn, h⟩ := h
  refine ⟨⟨sport, dest, dport⟩, hs, hd, hdp, ?_⟩
  split at h
  · cases h
    exact .inl rfl
  · simp only [Option.bind_eq_some_iff] at h
    obtain ⟨n', hn', _, -, _, -, _, -, _, -, h⟩ := h
    cases hn.symm.trans hn'
    cases h
    exact .inr ⟨_, findHost_sent ho hn hm _, rfl⟩

theorem onIPPacketReceived_turns (h : onIPPacketReceived env s data size clock = some (s', out)) :
    Turns env clock data s s' := by
  have hidle : s' = s → (∀ c, clientConn s data ≠ some c) → Turns env clock data s s' := by
    rintro rfl hc
    exact .idle (Option.eq_none_iff_forall_ne_some.2 hc) rfl
  simp only [onIPPacketReceived, Option.bind_eq_bind, Option.bind_eq_some_iff] at h
  obtain ⟨proto, hp, h⟩ := h
  split at h
  · rename_i htcp
    simp only [Option.bind_eq_some_iff] at h
    obtain ⟨offset, ho, source, hs, h⟩ := h
    split at h
    · rename_i hsource
      obtain ⟨sport, hsp, h⟩ := Option.bind_eq_some_iff.1 h
      split at h
      · rename_i hport
        obtain ⟨k, rfl⟩ := fromServer_sessions h
        refine .server (Option.eq_none_iff_forall_ne_some.2 fun c hc => ?_) k rfl
        obtain ⟨-, -, hne, o, ho', hsp', -⟩ := clientConn_eq_some.1 hc
        cases ho.symm.trans ho'
        cases hsp.symm.trans hsp'
        exact hne hport
      · rename_i hport
        obtain ⟨c, hcs, hcd, hcp, hsessions⟩ := fromClient_turns ho h
        refine .client c (clientConn_eq_some.2 ⟨htcp ▸ hp, hsource ▸ hs, ?_, offset, ho, hcs, hcd, hcp⟩) hsessions
        cases hsp.symm.trans hcs
        exact hport
    · rename_i hsource
      cases h
      refine hidle rfl fun c hc => ?_
      obtain ⟨-, hs', -⟩ := clientConn_eq_some.1 hc
      cases hs.symm.trans hs'
      exact hsource rfl
  · rename_i htcp
    cases h
    refine hidle rfl fun c hc => ?_
    obtain ⟨hp', -⟩ := clientConn_eq_some.1 hc
    cases hp.symm.trans hp'
    exact htcp rfl

/-- A packet of a client is done when its session was used. -/
theorem Turns.timed {arrives done n₁ n₂ n₃ : Nat} (ht : Turns env clock data s s') (h : Timed start s.sessions last now)
    (hn : now ≤ arrives) (hc : clock.During arrives done n₁ n₂ n₃) (hlt : done < start + 2 ^ 63) :
    ∃ last', Timed start s'.sessions last' done ∧ Advances last last' ∧
      ∀ c, clientConn s data = some c → last' c.sport.toInt = some done := by
  have hget := hc.get_le
  have hclear := hc.clear_le
  have hcreate := hc.create_le
  have hlast := hc.last_le
  cases ht with
  | idle hconn ht =>
      rw [ht]
      exact ⟨last, h.wait (by omega), .refl last, by simp [hconn]⟩
  | server hconn k ht =>
      obtain ⟨last', h', hadv⟩ := timed_getSession (k := k) h (hn.trans hget)
      rw [ht, hc.get]
      exact ⟨last', h'.wait (by omega), hadv, by simp [hconn]⟩
  | client c hconn ht =>
      obtain ⟨last', h', hadv, hdone⟩ := timed_countPacket env c.sport.toInt c.dest c.dport h hn hc hlt
      rcases ht with ht | ⟨e, he, ht⟩
      · rw [ht]
        refine ⟨last', h', hadv, fun c' hc' => ?_⟩
        rw [hconn, Option.some.injEq] at hc'
        rw [← hc', hdone]
      · rw [ht]
        have hused := he.last.trans ((countPacket_last ..).trans hc.last)
        refine ⟨_, h'.use (Nat.le_refl done) hused, hadv.trans (h'.advances (Nat.le_refl done)),
          fun c' hc' => ?_⟩
        rw [hconn, Option.some.injEq] at hc'
        rw [← hc', Function.update_self]

/-! ## Runs -/

/-- An input, and when it is handled. -/
structure Handling where
  input : Input
  arrives : Nat
  done : Nat

/-- The clock shows the time. -/
def Handling.Reads (h : Handling) : Prop :=
  match h.input with
  | .packet _ _ clock => ∃ n₁ n₂ n₃, clock.During h.arrives h.done n₁ n₂ n₃
  | .accepted _ now => ∃ n, h.arrives ≤ n ∧ n ≤ h.done ∧ now = shown n

def timedStep (env : Env) (x : Option Service × Nat) (h : Handling) : Option Service × Nat :=
  (step env x.1 h.input, h.done)

/-- One input is handled after the other. The clock does not come round to its first reading. -/
def Timely (start : Nat) (x : Option Service × Nat) (h : Handling) : Prop :=
  x.2 ≤ h.arrives ∧ h.Reads ∧ h.done < start + 2 ^ 63

/-- The connection of the latest packet clients sent from the port, and when that packet arrived. -/
def lastPacket (s : Service) (sport : BitVec 16) (hs : List Handling) : Option (Conn × Nat) :=
  hs.foldl (fun last h =>
    match h.input with
    | .packet data _ _ =>
        match clientConn s data with
        | some c => if c.sport = sport then some (c, h.arrives) else last
        | none => last
    | .accepted _ _ => last) none

theorem lastPacket_packet {hs : List Handling} {arrives done : Nat} {sport : BitVec 16} :
    lastPacket s sport (hs ++ [⟨.packet data size clock, arrives, done⟩]) = match clientConn s data with
      | some c => if c.sport = sport then some (c, arrives) else lastPacket s sport hs
      | none => lastPacket s sport hs := by
  rw [lastPacket, List.foldl_append]
  rfl

theorem lastPacket_accepted {hs : List Handling} {arrives done : Nat} {sport : BitVec 16} {time : BitVec 64} :
    lastPacket s sport (hs ++ [⟨.accepted port time, arrives, done⟩]) = lastPacket s sport hs := by
  rw [lastPacket, List.foldl_append]
  rfl

theorem lastPacket_conn (s : Service) (sport : BitVec 16) (hs : List Handling) :
    (lastPacket s sport hs).map Prod.fst = latest s sport (hs.map Handling.input) := by
  induction hs using List.reverseRecOn with
  | nil => rfl
  | append_singleton hs i ih =>
      obtain ⟨input, arrives, done⟩ := i
      rw [List.map_append, List.map_singleton]
      cases input with
      | packet data size clock =>
          rw [lastPacket_packet, latest_packet]
          cases clientConn s data with
          | none => exact ih
          | some c =>
              simp only []
              split
              · rfl
              · exact ih
      | accepted port time => rw [lastPacket_accepted, latest_accepted, ih]

/-- The times of the sessions after a run. -/
structure Kept (start : Nat) (s₀ : Service) (hs : List Handling) (s : Service) (now : Nat) : Prop where
  latest : Latest s₀ (hs.map Handling.input) s
  timed : ∃ last, Timed start s.sessions last now ∧
    ∀ sport c n, lastPacket s₀ sport hs = some (c, n) → ∃ m, last sport.toInt = some m ∧ n ≤ m

theorem Kept.step {hs : List Handling} {i : Handling} (h : Kept start s₀ hs s now) (hi : Timely start (some s, now) i)
    (hr : react env s i.input = some (s', out)) : Kept start s₀ (hs ++ [i]) s' i.done := by
  obtain ⟨hn, hreads, hlt⟩ := hi
  obtain ⟨last, htimed, hlast⟩ := h.timed
  refine ⟨by simpa using latest_react h.latest hr, ?_⟩
  obtain ⟨input, arrives, done⟩ := i
  cases input with
  | packet data size clock =>
      obtain ⟨n₁, n₂, n₃, hc⟩ := hreads
      obtain ⟨last', htimed', hadv, hdone⟩ := (onIPPacketReceived_turns hr).timed htimed hn hc hlt
      refine ⟨last', htimed', fun sport c n hl => ?_⟩
      have hbefore : lastPacket s₀ sport hs = some (c, n) → ∃ m, last' sport.toInt = some m ∧ n ≤ m := by
        intro hl
        obtain ⟨m, hm, hle⟩ := hlast sport c n hl
        obtain ⟨m', hm', hle'⟩ := hadv _ m hm
        exact ⟨m', hm', hle.trans hle'⟩
      have hsame : clientConn s data = clientConn s₀ data := by simp only [clientConn, h.latest.localIP, h.latest.port]
      rw [lastPacket_packet, ← hsame] at hl
      split at hl
      · rename_i c' hconn
        split at hl
        · rename_i hsport
          cases hl
          refine ⟨done, hsport ▸ hdone c hconn, ?_⟩
          exact hc.get_le.trans (hc.clear_le.trans (hc.create_le.trans hc.last_le))
        · exact hbefore hl
      · exact hbefore hl
  | accepted port time =>
      obtain ⟨n, harrives, hdone, htime⟩ := hreads
      cases hr
      obtain ⟨last', htimed', hadv⟩ := timed_getSession (k := port.toInt) htimed (hn.trans harrives)
      refine ⟨last', ?_, fun sport c n' hl => ?_⟩
      · rw [← htime] at htimed'
        exact htimed'.wait hdone
      · rw [lastPacket_accepted] at hl
        obtain ⟨m, hm, hle⟩ := hlast sport c n' hl
        obtain ⟨m', hm', hle'⟩ := hadv _ m hm
        exact ⟨m', hm', hle.trans hle'⟩

theorem lasts_of_run {hs : List Handling} (h₀ : s₀.sessions = ∅)
    (h : Run (timedStep env) (Timely start) (some s₀, start) hs (some s, now)) : Kept start s₀ hs s now := by
  refine h.invariant (I := fun hs x => ∀ s, x.1 = some s → Kept start s₀ hs s x.2) ?_ ?_ s rfl
  · rintro s ⟨⟩
    have hstart : Reaches env s₀ [] s₀ := ⟨h₀, rfl⟩
    exact ⟨latest_of_run hstart, _, h₀ ▸ Tracks.empty _ _ start, fun sport c n hl => by cases hl⟩
  · rintro hs ⟨o, now⟩ i hI hi s' hs'
    simp only [timedStep, step, Option.bind_eq_bind, Option.bind_eq_some_iff] at hs'
    obtain ⟨s, rfl, ⟨s'', out⟩, hr, ⟨⟩⟩ := hs'
    exact (hI s rfl).step hi hr

/-- What the local server answers within a minute of the client's latest packet reaches the client, from where the
packet was for. -/
theorem nat_delivers {hs : List Handling} {c : Conn} {header : Nat} (h₀ : s₀.sessions = ∅)
    (h : Run (timedStep env) (Timely start) (some s₀, start) hs (some s, now))
    (hlast : lastPacket s₀ c.sport hs = some (c, n)) (hn : now ≤ n + sessionTimeout) (hp : IsTcp data size header)
    (hc : c.answers s₀ data) :
    ∃ s' p, onIPPacketReceived env s data size clock = some (s', some p) ∧
      fourTuple p = some (c.dest, c.dport, s₀.localIP, c.sport) := by
  have hlasts := lasts_of_run h₀ h
  obtain ⟨last, htimed, huse⟩ := hlasts.timed
  obtain ⟨m, hm, hle⟩ := huse c.sport c n hlast
  have hmem : c.sport.toInt ∈ s.sessions := htimed.kept _ m hm (by omega)
  obtain ⟨e, he⟩ := Option.isSome_iff_exists.1 (AList.lookup_isSome.2 hmem)
  obtain ⟨c', hc', -, -, hport⟩ := hlasts.latest.sessions c.sport e he
  rw [← lastPacket_conn, hlast, Option.map_some, Option.some.injEq] at hc'
  subst hc'
  obtain ⟨g, hg, rfl⟩ := hp.read
  rw [Conn.answers, Segment.fourTuple hg] at hc
  simp only [Option.some.injEq, Prod.mk.injEq] at hc
  obtain ⟨hsource, hsport, hdest, hdport⟩ := hc
  rw [onIPPacketReceived_eq hp hg, hlasts.latest.localIP, hlasts.latest.port, if_pos hsource, if_pos hsport]
  rcases fromServer_spec s clock hp hg with ⟨hnone, -⟩ | ⟨session, p, hsession, hrun, hrw⟩
  · rw [hdport, he] at hnone
    cases hnone
  · refine ⟨_, p, hrun, ?_⟩
    rw [hdport, he, Option.some.injEq] at hsession
    rw [hrw.fourTuple hp (Nat.le_refl _), hlasts.latest.localIP, hdest, hdport, ← hsession, hport]

/-! ## The size of the table -/

theorem keys_length_le {t' : Sessions} (h : ∀ k, k ∈ t → k ∈ t') : t.keys.length ≤ t'.keys.length :=
  (List.subperm_of_subset t.keys_nodup fun k hk => AList.mem_keys.1 (h k (AList.mem_keys.2 hk))).length_le

theorem keys_insert_of_mem {e : NatSession} (hk : k ∈ t) : (t.insert k e).keys.length ≤ t.keys.length :=
  keys_length_le fun _ hk' => ((AList.mem_insert _).1 hk').elim (fun h => h ▸ hk) id

theorem keys_insert_le {e : NatSession} : (t.insert k e).keys.length ≤ t.keys.length + 1 := by
  rw [AList.keys_insert, List.length_cons]
  exact Nat.succ_le_succ List.length_erase_le

theorem mem_getSession {k' : Int} {time : BitVec 64} (h : k' ∈ (getSession t k time).1) : k' ∈ t := by
  obtain ⟨e, he⟩ := Option.isSome_iff_exists.1 (AList.lookup_isSome.2 h)
  obtain ⟨e₀, he₀, -⟩ := lookup_getSession he
  exact AList.lookup_isSome.1 (Option.isSome_iff_exists.2 ⟨e₀, he₀⟩)

/-- Where the port has a session, a new one takes its place. -/
theorem mem_countPacket {k' : Int} (hk : k ∈ t) (h : k' ∈ (countPacket env t k ip port clock).1) : k' ∈ t := by
  obtain ⟨e, he⟩ := Option.isSome_iff_exists.1 (AList.lookup_isSome.2 h)
  rcases lookup_countPacket he with ⟨rfl, -⟩ | ⟨-, he₀⟩
  · exact hk
  · exact AList.lookup_isSome.1 (Option.isSome_iff_exists.2 ⟨e, he₀⟩)

theorem countPacket_new (env : Env) (ip : BitVec 32) (port : BitVec 16) (clock : Clock) (hk : k ∉ t) :
    ∃ e₁ e₂, (countPacket env t k ip port clock).1 =
      ((if t.keys.length > MAX_SESSION_COUNT then clearExpiredSessions t clock.clear else t).insert k e₁).insert k e₂ ∧
      e₂.lastNanoTime = clock.last := by
  have hnone : t.lookup k = none := AList.lookup_eq_none.2 hk
  simp only [countPacket, getSession, hnone, createSession]
  exact ⟨_, _, rfl, rfl⟩

/-- Only a packet from a port without a session makes the table longer. -/
theorem Turns.opens (ht : Turns env clock data s s') (hlt : s.sessions.keys.length < s'.sessions.keys.length) :
    ∃ k e₁ e₂, e₂.lastNanoTime = clock.last ∧
      s'.sessions = ((if s.sessions.keys.length > MAX_SESSION_COUNT then clearExpiredSessions s.sessions clock.clear
        else s.sessions).insert k e₁).insert k e₂ := by
  have hshrinks : ¬∀ k, k ∈ s'.sessions → k ∈ s.sessions := fun h => absurd (keys_length_le h) (by omega)
  cases ht with
  | idle hc ht => exact absurd (fun k hk => ht ▸ hk) hshrinks
  | server hc k ht => exact absurd (fun k' hk => mem_getSession (ht ▸ hk)) hshrinks
  | client c hc ht =>
      have hnew : c.sport.toInt ∉ s.sessions := by
        intro hk
        refine hshrinks fun k' hk' => ?_
        rcases ht with ht | ⟨e, -, ht⟩
        · exact mem_countPacket hk (ht ▸ hk')
        · rw [ht, AList.mem_insert] at hk'
          rcases hk' with rfl | hk'
          · exact hk
          · exact mem_countPacket hk hk'
      obtain ⟨e₁, e₂, heq, hlast⟩ := countPacket_new env c.dest c.dport clock hnew
      rcases ht with ht | ⟨e, he, ht⟩
      · exact ⟨c.sport.toInt, e₁, e₂, hlast, ht.trans heq⟩
      · refine ⟨c.sport.toInt, e₁, e, he.last.trans (countPacket_last ..), ?_⟩
        rw [ht, heq, AList.insert_insert]

/-- A SYN from a port, which is handled at once. -/
def sampleHandling (sport : Nat) : Handling where
  input := .packet (tcpPacket 0x0A080002 0x01010101 (BitVec.ofNat 16 sport) 80 TCPHeader.SYN 7 []) 40 ⟨0, 0, 0, 0⟩
  arrives := 0
  done := 0

theorem sampleHandling_timely (o : Option Service) (sport : Nat) : Timely 0 (o, 0) (sampleHandling sport) := by
  have hreads : (sampleHandling sport).Reads :=
    ⟨0, 0, 0, rfl, rfl, rfl, rfl, Nat.le_refl 0, Nat.le_refl 0, Nat.le_refl 0, Nat.le_refl 0⟩
  exact ⟨Nat.le_refl 0, hreads, Nat.two_pow_pos 63⟩

theorem sampleHandling_run (sports : List Nat) : Run (timedStep asciiEnv) (Timely 0) (some startService, 0)
    (sports.map sampleHandling) ((sports.map sampleHandling).foldl (timedStep asciiEnv) (some startService, 0)) := by
  refine Run.ofAllOk ?_
  generalize some startService = o
  induction sports generalizing o with
  | nil => trivial
  | cons sport sports ih => exact ⟨sampleHandling_timely o sport, ih _⟩

def sampleConn : Conn := ⟨1000, 0x01010101, 80⟩

theorem nat_delivers_sample : ∃ s s' p, step asciiEnv (some startService) (sampleHandling 1000).input = some s ∧
    onIPPacketReceived asciiEnv s synAck 40 ⟨0, 0, 0, 0⟩ = some (s', some p) ∧
    fourTuple p = some (0x01010101, 80, 0x0A080002, 1000) := by
  obtain ⟨s, hs⟩ : ∃ s, step asciiEnv (some startService) (sampleHandling 1000).input = some s :=
    Option.isSome_iff_exists.1 (by decide +kernel)
  have hrun := sampleHandling_run [1000]
  simp only [List.map_cons, List.map_nil, List.foldl_cons, List.foldl_nil, timedStep, hs] at hrun
  have hlast : lastPacket startService sampleConn.sport [sampleHandling 1000] = some (sampleConn, 0) := by
    decide +kernel
  obtain ⟨s', p, hp⟩ : ∃ s' p, onIPPacketReceived asciiEnv s synAck 40 ⟨0, 0, 0, 0⟩ = some (s', some p) ∧
      fourTuple p = some (0x01010101, 80, 0x0A080002, 1000) :=
    nat_delivers rfl hrun hlast (by decide) synAck_isTcp rfl
  exact ⟨s, s', p, hs, hp⟩

end TunProxy.Vpn
