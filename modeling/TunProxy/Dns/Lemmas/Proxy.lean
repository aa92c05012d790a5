import TunProxy.Dns.Lemmas.Packet
import TunProxy.Dns.Proxy
import TunProxy.Vpn.Lemmas.Packet

/-!
# What handling one packet does to the proxy
-/

namespace TunProxy.Dns

open Native (Bytes)
open Vpn
open Lib Lib.Bytes
open CommonMethods

variable {s s' : DnsProxy} {config : Config} {p p' : DnsPacket} {data d : Bytes} {udp : Nat} {clock : Clock}

/-! ## The parts of the methods -/

theorem orThrow_ok {α : Type} {fault : Fault} {o : Option α} {a : α} :
    orThrow fault o s = .ok a s' ↔ o = some a ∧ s = s' := by
  cases o with
  | none =>
      constructor
      · intro h
        cases h
      · rintro ⟨h, -⟩
        cases h
  | some a' => exact pure_ok.trans (by simp)

theorem edit_ok {change : Bytes → Option Bytes} {u : Unit} :
    edit change s = .ok u s' ↔ ∃ d, change s.receiveBuffer = some d ∧ s' = { s with receiveBuffer := d } := by
  unfold edit
  rw [bind_ok]
  constructor
  · rintro ⟨s₁, _, h₁, h⟩
    obtain ⟨rfl, rfl⟩ := get_ok.1 h₁
    obtain ⟨d, _, h₂, h⟩ := bind_ok.1 h
    obtain ⟨hd, rfl⟩ := orThrow_ok.1 h₂
    exact ⟨d, hd, (modify_ok.1 h).symm⟩
  · rintro ⟨d, hd, rfl⟩
    exact ⟨s, s, rfl, bind_ok.2 ⟨d, s, orThrow_ok.2 ⟨hd, rfl⟩, rfl⟩⟩

/-- What only the lookup of a query and the issue of one change. -/
def DnsProxy.queries (s : DnsProxy) : (AList fun _ : Int => QueryState) × BitVec 16 := (s.queryArray, s.queryID)

theorem keeps_orThrow {α : Type} (fault : Fault) (o : Option α) : Keeps DnsProxy.queries (orThrow fault o) := by
  cases o with
  | none => exact .throw
  | some a => exact .pure

theorem keeps_edit (change : Bytes → Option Bytes) : Keeps DnsProxy.queries (edit change) :=
  .bind .get fun _ => .bind (keeps_orThrow _ _) fun _ => .modify fun _ => rfl

theorem keeps_dnsPollution (config : Config) (p : DnsPacket) : Keeps DnsProxy.queries (dnsPollution config p) := by
  refine .ite (fun _ => ?_) fun _ => .pure
  refine .bind (keeps_orThrow _ _) fun question => .ite (fun _ => ?_) fun _ => .pure
  refine .bind (keeps_orThrow _ _) fun realIP => .ite (fun _ => ?_) fun _ => .pure
  refine .bind .get fun _ => .bind (keeps_orThrow _ _) fun r => ?_
  refine .bind (.modify fun _ => rfl) fun _ => .bind .get fun _ => .bind (keeps_orThrow _ _) fun r => ?_
  exact .bind (.modify fun _ => rfl) fun _ => .pure

theorem keeps_sendUDPPacket : Keeps DnsProxy.queries sendUDPPacket :=
  .bind (keeps_edit _) fun _ => .bind .get fun _ => .bind (keeps_orThrow _ _) fun _ =>
    .ite (fun _ => .throw) fun _ => .pure

/-! ## Tampering -/

/-- The packet that is delivered has its old header, and a size that fits into a datagram. -/
theorem dnsPollution_ok (hs : 12 ≤ p.size) (hs' : p.size ≤ 512) (hq : ∀ q ∈ p.questions, q.length ≤ 512)
    (h : dnsPollution config p s = .ok p' s') : p'.header = p.header ∧ 12 ≤ p'.size ∧ p'.size ≤ 540 := by
  have same : ∀ {t t'}, (pure p : Method DnsPacket) t = .ok p' t' →
      p'.header = p.header ∧ 12 ≤ p'.size ∧ p'.size ≤ 540 := by
    intro t t' h
    obtain ⟨rfl, -⟩ := pure_ok.1 h
    exact ⟨rfl, hs, by omega⟩
  unfold dnsPollution at h
  split at h
  · obtain ⟨question, s₁, h₁, h⟩ := bind_ok.1 h
    split at h
    · obtain ⟨realIP, s₂, -, h⟩ := bind_ok.1 h
      split at h
      · obtain ⟨_, s₃, -, h⟩ := bind_ok.1 h
        obtain ⟨⟨maps, fakeIP⟩, s₄, -, h⟩ := bind_ok.1 h
        obtain ⟨_, s₅, -, h⟩ := bind_ok.1 h
        obtain ⟨_, s₆, -, h⟩ := bind_ok.1 h
        obtain ⟨⟨raw, p₁⟩, s₇, h₇, h⟩ := bind_ok.1 h
        obtain ⟨_, s₈, -, h⟩ := bind_ok.1 h
        obtain ⟨rfl, -⟩ := pure_ok.1 h
        obtain ⟨ht, -⟩ := orThrow_ok.1 h₇
        -- what was tampered with is the size, beside the array
        obtain ⟨q, hqh, ht⟩ := Option.bind_eq_some_iff.1 ht
        obtain ⟨_, -, ht⟩ := Option.bind_eq_some_iff.1 ht
        obtain ⟨_, -, ht⟩ := Option.bind_eq_some_iff.1 ht
        obtain ⟨_, -, ht⟩ := Option.bind_eq_some_iff.1 ht
        obtain ⟨_, -, ht⟩ := Option.bind_eq_some_iff.1 ht
        cases ht
        have := hq q (List.mem_of_mem_head? hqh)
        exact ⟨rfl, by dsimp only; omega, by dsimp only; omega⟩
      · exact same h
    · exact same h
  · exact same h

/-! ## Responses -/

/-- What the client gets: its own identifier and address, and the server's as the source. -/
structure Delivery.Answers (d : Delivery) (state : QueryState) : Prop where
  id : readShort d.packet 28 = some state.clientQueryID
  source : IPHeader.getSourceIP d.packet = some state.remoteIP
  dest : IPHeader.getDestinationIP d.packet = some state.clientIP
  sourcePort : UDPHeader.getSourcePort d.packet 20 = some state.remotePort
  destPort : UDPHeader.getDestinationPort d.packet 20 = some state.clientPort
  totalLength : IPHeader.getTotalLength d.packet = some (28 + d.size)
  udpLength : UDPHeader.getTotalLength d.packet 20 = some (8 + d.size)
  length : d.packet.length = 28 + d.size

/-- The header fields are written one after the other, apart from each other and from the checksums. -/
theorem answers_of_writes {state : QueryState} {size total : Nat} {ok : Bool}
    {d₀ d₁ d₂ d₃ d₄ d₅ d₆ d₇ d₈ d₉ : Bytes} (hs : 12 ≤ size) (hs' : size ≤ 540)
    (w₁ : writeShort d₀ 28 state.clientQueryID = some d₁)
    (w₂ : IPHeader.setSourceIP d₁ state.remoteIP = some d₂)
    (w₃ : IPHeader.setDestinationIP d₂ state.clientIP = some d₃)
    (w₄ : IPHeader.setProtocol d₃ IPHeader.UDP = some d₄)
    (w₅ : IPHeader.setTotalLength d₄ (20 + 8 + size) = some d₅)
    (w₆ : UDPHeader.setSourcePort d₅ 20 state.remotePort = some d₆)
    (w₇ : UDPHeader.setDestinationPort d₆ 20 state.clientPort = some d₇)
    (w₈ : UDPHeader.setTotalLength d₇ 20 (8 + size) = some d₈)
    (w₉ : computeUDPChecksum d₈ 20 = some (d₉, ok)) (ht : IPHeader.getTotalLength d₉ = some total)
    (hle : total ≤ d₉.length) : Delivery.Answers { packet := d₉.take total, size } state := by
  have f₂ := writeInt_frame w₂
  have f₃ := writeInt_frame w₃
  have f₄ := writeByte_frame w₄
  have f₅ := writeShort_frame w₅
  have f₆ := writeShort_frame w₆
  have f₇ := writeShort_frame w₇
  have f₈ := writeShort_frame w₈
  have f₉ := (computeUDPChecksum_frame w₉).2
  have hlen : readShort d₉ 2 = some (BitVec.ofNat 16 (20 + 8 + size)) := by
    rw [← readShort_written w₅]
    simp (disch := omega) only [readShort, f₆, f₇, f₈, f₉]
  obtain rfl : 28 + size = total := by
    rw [IPHeader.getTotalLength, hlen] at ht
    simp only [Option.bind_eq_bind, Option.bind_some, Option.pure_def, Option.some.injEq, BitVec.toNat_ofNat] at ht
    omega
  have hshort : ∀ i, i + 2 ≤ 28 + size → readShort (d₉.take (28 + size)) i = readShort d₉ i := by
    intro i hi
    simp only [readShort, List.getElem?_take, if_pos (show i < 28 + size by omega),
      if_pos (show i + 1 < 28 + size by omega)]
  have hint : ∀ i, i + 4 ≤ 28 + size → readInt (d₉.take (28 + size)) i = readInt d₉ i := by
    intro i hi
    simp only [readInt, List.getElem?_take, if_pos (show i < 28 + size by omega),
      if_pos (show i + 1 < 28 + size by omega), if_pos (show i + 2 < 28 + size by omega),
      if_pos (show i + 3 < 28 + size by omega)]
  constructor
  · rw [hshort 28 (by omega), ← readShort_written w₁]
    simp (disch := omega) only [readShort, f₂, f₃, f₄, f₅, f₆, f₇, f₈, f₉]
  · rw [IPHeader.getSourceIP, hint 12 (by omega), ← readInt_written w₂]
    simp (disch := omega) only [readInt, f₃, f₄, f₅, f₆, f₇, f₈, f₉]
  · rw [IPHeader.getDestinationIP, hint 16 (by omega), ← readInt_written w₃]
    simp (disch := omega) only [readInt, f₄, f₅, f₆, f₇, f₈, f₉]
  · rw [UDPHeader.getSourcePort, hshort 20 (by omega), ← readShort_written w₆]
    simp (disch := omega) only [readShort, f₇, f₈, f₉]
  · rw [UDPHeader.getDestinationPort, hshort 22 (by omega), ← readShort_written w₇]
    simp (disch := omega) only [readShort, f₈, f₉]
  · rw [IPHeader.getTotalLength, hshort 2 (by omega)]
    exact ht
  · have hu : readShort d₉ 24 = some (BitVec.ofNat 16 (8 + size)) := by
      rw [← readShort_written w₈]
      simp (disch := omega) only [readShort, f₉]
    rw [UDPHeader.getTotalLength, hshort 24 (by omega), hu]
    simp only [Option.bind_eq_bind, Option.bind_some, Option.pure_def, Option.some.injEq, BitVec.toNat_ofNat]
    omega
  · exact List.length_take_of_le hle

theorem answerQuery_ok {delivery : Delivery} {state : QueryState} (hoff : p.header.offset = 28) (hs : 12 ≤ p.size)
    (hs' : p.size ≤ 512) (hq : ∀ q ∈ p.questions, q.length ≤ 512)
    (h : answerQuery config p state s = .ok (some delivery) s') : delivery.Answers state := by
  obtain ⟨p', s₂, hp, h⟩ := bind_ok.1 h
  obtain ⟨hh, hp₁, hp₂⟩ := dnsPollution_ok hs hs' hq hp
  obtain ⟨_, _, h₁, h⟩ := bind_ok.1 h
  obtain ⟨d₁, w₁, rfl⟩ := edit_ok.1 h₁
  obtain ⟨_, _, h₂, h⟩ := bind_ok.1 h
  obtain ⟨d₂, w₂, rfl⟩ := edit_ok.1 h₂
  obtain ⟨_, _, h₃, h⟩ := bind_ok.1 h
  obtain ⟨d₃, w₃, rfl⟩ := edit_ok.1 h₃
  obtain ⟨_, _, h₄, h⟩ := bind_ok.1 h
  obtain ⟨d₄, w₄, rfl⟩ := edit_ok.1 h₄
  obtain ⟨_, _, h₅, h⟩ := bind_ok.1 h
  obtain ⟨d₅, w₅, rfl⟩ := edit_ok.1 h₅
  obtain ⟨_, _, h₆, h⟩ := bind_ok.1 h
  obtain ⟨d₆, w₆, rfl⟩ := edit_ok.1 h₆
  obtain ⟨_, _, h₇, h⟩ := bind_ok.1 h
  obtain ⟨d₇, w₇, rfl⟩ := edit_ok.1 h₇
  obtain ⟨_, _, h₈, h⟩ := bind_ok.1 h
  obtain ⟨d₈, w₈, rfl⟩ := edit_ok.1 h₈
  obtain ⟨packet, _, h₉, h⟩ := bind_ok.1 h
  obtain ⟨h, -⟩ := pure_ok.1 h
  cases h
  obtain ⟨_, _, hc, h₉⟩ := bind_ok.1 h₉
  obtain ⟨d₉, w₉, rfl⟩ := edit_ok.1 hc
  obtain ⟨_, _, hg, h₉⟩ := bind_ok.1 h₉
  obtain ⟨rfl, rfl⟩ := get_ok.1 hg
  obtain ⟨total, _, htotal, h₉⟩ := bind_ok.1 h₉
  obtain ⟨ht, rfl⟩ := orThrow_ok.1 htotal
  split at h₉
  · exact absurd h₉ throw_ok
  rename_i hle
  obtain ⟨rfl, -⟩ := pure_ok.1 h₉
  obtain ⟨⟨d, ok⟩, hcrc, hd⟩ := Option.map_eq_some_iff.1 w₉
  obtain rfl : d = d₉ := hd
  dsimp only at *
  rw [DnsHeader.setID, hh, hoff] at w₁
  exact answers_of_writes hp₁ hp₂ w₁ w₂ w₃ w₄ w₅ w₆ w₇ w₈ hcrc ht (Nat.le_of_not_lt hle)

theorem onDnsResponseReceived_ok {delivery : Delivery} (hoff : p.header.offset = 28) (hs : 12 ≤ p.size)
    (hs' : p.size ≤ 512) (hq : ∀ q ∈ p.questions, q.length ≤ 512)
    (h : onDnsResponseReceived config p s = .ok (some delivery) s') :
    ∃ state, s.queryArray.lookup p.header.id.toInt = some state ∧ delivery.Answers state := by
  obtain ⟨_, s₀, h₀, h⟩ := bind_ok.1 h
  obtain ⟨rfl, rfl⟩ := get_ok.1 h₀
  cases hl : s.queryArray.lookup p.header.id.toInt with
  | none =>
      rw [hl] at h
      obtain ⟨h, -⟩ := pure_ok.1 h
      cases h
  | some state =>
      rw [hl] at h
      obtain ⟨_, s₁, -, h⟩ := bind_ok.1 h
      exact ⟨state, rfl, answerQuery_ok hoff hs hs' hq h⟩

theorem keeps_answerQuery (config : Config) (p : DnsPacket) (state : QueryState) :
    Keeps DnsProxy.queries (answerQuery config p state) := by
  refine .bind (keeps_dnsPollution config p) fun p => ?_
  refine .bind (keeps_edit _) fun _ => .bind (keeps_edit _) fun _ => .bind (keeps_edit _) fun _ => ?_
  refine .bind (keeps_edit _) fun _ => .bind (keeps_edit _) fun _ => .bind (keeps_edit _) fun _ => ?_
  refine .bind (keeps_edit _) fun _ => .bind (keeps_edit _) fun _ => ?_
  exact .bind keeps_sendUDPPacket fun _ => .pure

/-- However the handling of a response ends, at most the query with its identifier is no longer known. -/
theorem onDnsResponseReceived_queries (config : Config) (p : DnsPacket) (s : DnsProxy) :
    (final (onDnsResponseReceived config p) s).queries =
      match s.queryArray.lookup p.header.id.toInt with
      | none => s.queries
      | some _ => (s.queryArray.erase p.header.id.toInt, s.queryID) := by
  unfold onDnsResponseReceived
  rw [final_get]
  cases hl : s.queryArray.lookup p.header.id.toInt with
  | none => rfl
  | some state =>
      dsimp only
      rw [final_modify]
      exact keeps_answerQuery config p state _

theorem react_fst (s : DnsProxy) (e : Event) : (react s e).1 = final e.method s := by
  unfold react final
  cases e.method s with
  | ok out s' => rfl
  | error fault s' => rfl

theorem orThrow_some {α : Type} (fault : Fault) (a : α) (s : DnsProxy) : orThrow fault (some a) s = .ok a s := rfl

theorem orThrow_none {α : Type} (fault : Fault) (s : DnsProxy) :
    (orThrow fault none : Method α) s = .error fault s := rfl

theorem ofSlice_eq_some {n limit : Nat} {b : ByteBuffer} (h : ByteBuffer.ofSlice data n limit = some b) :
    n + limit ≤ data.length ∧ b.array = data ∧ b.arrayOffset = n ∧ b.position = 0 ∧ b.limit = limit := by
  unfold ByteBuffer.ofSlice at h
  split at h
  · rename_i hle
    cases h
    exact ⟨hle, rfl, rfl, rfl, rfl⟩
  · cases h

/-- What `run` does with a packet that was decoded. -/
def handlePacket (config : Config) (p : DnsPacket) : Method Output := do
  match ← onDnsResponseReceived config p with
  | some delivery => return .tun delivery
  | none => return .nothing

/-- The state after the datagram was received, and what becomes of it there: it is not a packet, or one with the
datagram's identifier. -/
theorem responseMethod_eq (config : Config) (datagram : Bytes) (s : DnsProxy) :
    ∃ t, t.queries = s.queries ∧
      ((∃ fault, responseMethod config datagram s = .error fault t) ∨
      responseMethod config datagram s = .ok .nothing t ∨
      ∃ p : DnsPacket, p.header.offset = 28 ∧ 12 ≤ p.size ∧ p.size ≤ 512 ∧ (∀ q ∈ p.questions, q.length ≤ 512) ∧
        readShort datagram 0 = some p.header.id ∧ responseMethod config datagram s = handlePacket config p t) := by
  generalize hd : patch 28 (datagram.take (s.receiveBuffer.length - 28)) s.receiveBuffer = d
  refine ⟨{ s with receiveBuffer := d }, rfl, ?_⟩
  have he : edit (fun data => some (patch 28 (datagram.take (data.length - 28)) data)) s
      = .ok () { s with receiveBuffer := d } := edit_ok.2 ⟨d, by rw [hd], rfl⟩
  unfold responseMethod
  rw [bind_of_ok he, bind_of_ok (get_ok.2 ⟨rfl, rfl⟩)]
  dsimp only
  cases hb : ByteBuffer.ofSlice d 28 (min datagram.length (d.length - 28)) with
  | none => exact .inl ⟨_, bind_of_error (orThrow_none _ _)⟩
  | some b =>
      rw [bind_of_ok (orThrow_some _ _ _)]
      obtain ⟨hle, rfl, hoff, hpos, hlim⟩ := ofSlice_eq_some hb
      cases hp : DnsPacket.fromBytes b with
      | error e => exact .inl ⟨_, rfl⟩
      | ok o =>
          cases o with
          | none => exact .inr (.inl rfl)
          | some p =>
              have hh := DnsPacket.fromBytes_ok hpos hp
              have hge := hh.size_ge
              refine .inr (.inr ⟨p, hh.offset.trans hoff, ?_, ?_, ?_, ?_, rfl⟩)
              · rw [hh.size]
                exact hge
              · rw [hh.size]
                exact hh.size_le
              · exact fun q hq => (hh.questions q hq).trans hh.size_le
              · have hlen : b.array.length = s.receiveBuffer.length := by
                  rw [← hd]
                  simp only [patch, List.length_append, List.length_take, List.length_drop]
                  omega
                have hfit : 28 + (datagram.take (s.receiveBuffer.length - 28)).length ≤ s.receiveBuffer.length := by
                  rw [List.length_take]
                  omega
                have hbyte : ∀ i, i < 2 → b.array[28 + i]? = datagram[i]? := by
                  intro i hi
                  rw [← hd, getElem?_patch hfit, if_pos (by rw [List.length_take]; omega), List.getElem?_take,
                    if_pos (by omega), Nat.add_sub_cancel_left]
                rw [hh.id, hoff, ← readShort_eq (by omega), readShort, readShort, hbyte 0 (by omega),
                  hbyte 1 (by omega)]

/-- However it ends: what is known of the queries, and whether a packet is delivered. -/
theorem response_spec (config : Config) (datagram : Bytes) (s : DnsProxy) :
    let r := react s (.response config datagram)
    ((r.1.queries = s.queries ∨ ∃ k, r.1.queries = (s.queryArray.erase k, s.queryID)) ∧ ∀ d, r.2 ≠ .tun d) ∨
    ∃ id state d, readShort datagram 0 = some id ∧ s.queryArray.lookup id.toInt = some state ∧ r.2 = .tun d ∧
      d.Answers state ∧ r.1.queries = (s.queryArray.erase id.toInt, s.queryID) := by
  intro r
  obtain ⟨t, hq, h⟩ := responseMethod_eq config datagram s
  have hqa : t.queryArray = s.queryArray := congrArg Prod.fst hq
  have hqi : t.queryID = s.queryID := congrArg Prod.snd hq
  rcases h with ⟨fault, h⟩ | h | ⟨p, hoff, hs, hs', hqs, hid, h⟩
  · have hr : r = (t, .nothing) := by simp only [r, react, Event.method, h]
    rw [hr]
    exact .inl ⟨.inl hq, fun d hd => by cases hd⟩
  · have hr : r = (t, .nothing) := by simp only [r, react, Event.method, h]
    rw [hr]
    exact .inl ⟨.inl hq, fun d hd => by cases hd⟩
  · -- the table after the lookup, and the three ways to end
    have hf := onDnsResponseReceived_queries config p t
    have hk : (final (onDnsResponseReceived config p) t).queries = s.queries ∨
        ∃ k, (final (onDnsResponseReceived config p) t).queries = (s.queryArray.erase k, s.queryID) := by
      rw [hf]
      cases t.queryArray.lookup p.header.id.toInt with
      | none => exact .inl hq
      | some state => exact .inr ⟨p.header.id.toInt, by rw [hqa, hqi]⟩
    cases hm : onDnsResponseReceived config p t with
    | error fault t' =>
        have hr : r = (t', .nothing) := by
          simp only [r, react, Event.method, h, handlePacket, bind_of_error hm]
        rw [final, hm] at hk
        rw [hr]
        exact .inl ⟨hk, fun d hd => by cases hd⟩
    | ok o t' =>
        cases o with
        | none =>
            have hr : r = (t', .nothing) := by
              simp only [r, react, Event.method, h, handlePacket, bind_of_ok hm]
              rfl
            rw [final, hm] at hk
            rw [hr]
            exact .inl ⟨hk, fun d hd => by cases hd⟩
        | some d =>
            have hr : r = (t', .tun d) := by
              simp only [r, react, Event.method, h, handlePacket, bind_of_ok hm]
              rfl
            obtain ⟨state, hl, ha⟩ := onDnsResponseReceived_ok hoff hs hs' hqs hm
            rw [final, hm, hl] at hf
            rw [hr]
            exact .inr ⟨p.header.id, state, d, hid, hqa ▸ hl, rfl, ha, by rw [← hqa, ← hqi]; exact hf⟩

/-! ## Requests -/

/-- The packet `p` is the DNS packet of the UDP datagram at `udp`. -/
def IsQuery (data : Bytes) (udp : Nat) (p : DnsPacket) : Prop :=
  ∃ limit b, ByteBuffer.ofSlice data (udp + 8) limit = some b ∧ DnsPacket.fromBytes b = .ok (some p)

theorem keeps_interceptDns (config : Config) (data : Bytes) (udp : Nat) (p : DnsPacket) :
    Keeps DnsProxy.queries (interceptDns config data udp p) := by
  refine .bind (keeps_orThrow _ _) fun question => .ite (fun _ => ?_) fun _ => .pure
  refine .bind .get fun _ => .ite (fun _ => ?_) fun _ => .pure
  refine .bind .get fun _ => .bind (keeps_orThrow _ _) fun _ => ?_
  exact .bind (.modify fun _ => rfl) fun _ => keeps_orThrow _ _

/-- The query in `data` has become known under the next identifier. -/
structure Issued (data : Bytes) (udp : Nat) (clock : Clock) (s t : DnsProxy) (state : QueryState) : Prop where
  read : ∃ id, readShort data (udp + 8) = some id ∧ QueryState.ofPacket data udp id clock.query = some state
  queryID : t.queryID = s.queryID + 1
  queryArray : t.queryArray = (clearExpiredQueries s.queryArray clock.clear).insert (s.queryID + 1).toInt state

theorem forwardQuery_spec (clock : Clock) (hp : IsQuery data udp p) (s : DnsProxy) :
    (∃ fault t, forwardQuery data udp p clock s = .error fault t ∧
      (t.queries = s.queries ∨ ∃ state, Issued data udp clock s t state)) ∨
    ∃ state t, Issued data udp clock s t state ∧ forwardQuery data udp p clock s = .ok {
        data := toBE 2 (s.queryID + 1).toNat ++ slice (udp + 10) (p.size - 2) data
        address := state.remoteIP, port := state.remotePort } t := by
  obtain ⟨limit, b, hb, hpb⟩ := hp
  obtain ⟨hle, rfl, hoff, hpos, hlim⟩ := ofSlice_eq_some hb
  have hh := DnsPacket.fromBytes_ok hpos hpb
  have hge := hh.size_ge
  have hid : readShort b.array (udp + 8) = some p.header.id := by
    rw [readShort_eq (by omega), hh.id, hoff]
  have hset : p.header.setID b.array (s.queryID + 1)
      = some (patch (udp + 8) (toBE 2 (s.queryID + 1).toNat) b.array) := by
    rw [DnsHeader.setID, hh.offset, hoff, writeShort_eq (by omega)]
  unfold forwardQuery
  cases hst : QueryState.ofPacket b.array udp p.header.id clock.query with
  | none => exact .inl ⟨_, s, bind_of_error (orThrow_none _ _), .inl rfl⟩
  | some state =>
      rw [bind_of_ok (orThrow_some _ _ _), bind_of_ok (modify_ok (u := ()).2 rfl), bind_of_ok (get_ok.2 ⟨rfl, rfl⟩)]
      dsimp only
      rw [hset, bind_of_ok (orThrow_some _ _ _), bind_of_ok (modify_ok (u := ()).2 rfl),
        bind_of_ok (modify_ok (u := ()).2 rfl)]
      have hissued : Issued b.array udp clock s { s with
          queryID := s.queryID + 1
          queryArray := (clearExpiredQueries s.queryArray clock.clear).insert (s.queryID + 1).toInt state } state :=
        ⟨⟨p.header.id, hid, hst⟩, rfl, rfl⟩
      have hfit : udp + 8 + (toBE 2 (s.queryID + 1).toNat).length ≤ b.array.length := by
        rw [length_toBE]
        omega
      split
      · exact .inl ⟨_, _, rfl, .inr ⟨state, hissued⟩⟩
      · split
        · exact .inl ⟨_, _, rfl, .inr ⟨state, hissued⟩⟩
        · refine .inr ⟨state, _, hissued, ?_⟩
          have hsize : 2 ≤ p.size := by
            rw [hh.size]
            omega
          rw [slice_patch_start hfit (by simpa using hsize), length_toBE]
          rfl

/-- Either nothing has changed for the queries, or the query is known under the next identifier; if it is sent, then
with this identifier in the place of its own. -/
theorem request_spec (config : Config) (clock : Clock) (hp : IsQuery data udp p) (s : DnsProxy) :
    let r := react s (.request config data udp p clock)
    (r.1.queries = s.queries ∧ r.2 = .nothing) ∨
    ∃ state, Issued data udp clock s r.1 state ∧
      (r.2 = .nothing ∨ r.2 = .upstream {
        data := toBE 2 (s.queryID + 1).toNat ++ slice (udp + 10) (p.size - 2) data
        address := state.remoteIP, port := state.remotePort }) := by
  intro r
  have hk := keeps_interceptDns config data udp p s
  cases hi : interceptDns config data udp p s with
  | error fault t =>
      have hr : r = (t, .nothing) := by
        simp only [r, react, Event.method, onDnsRequestReceived, bind_of_error (bind_of_error hi)]
      rw [final, hi] at hk
      rw [hr]
      exact .inl ⟨hk, rfl⟩
  | ok o t =>
      rw [final, hi] at hk
      have hqa : t.queryArray = s.queryArray := congrArg Prod.fst hk
      have hqi : t.queryID = s.queryID := congrArg Prod.snd hk
      have issued : ∀ {t' state}, Issued data udp clock t t' state → Issued data udp clock s t' state :=
        fun h => ⟨h.read, by rw [h.queryID, hqi], by rw [h.queryArray, hqa, hqi]⟩
      cases o with
      | some d =>
          have ho : onDnsRequestReceived config data udp p clock s = .ok none t := by
            rw [onDnsRequestReceived, bind_of_ok hi]
            rfl
          have hr : r = (t, .nothing) := by
            simp only [r, react, Event.method, bind_of_ok ho]
            rfl
          rw [hr]
          exact .inl ⟨hk, rfl⟩
      | none =>
          rcases forwardQuery_spec clock hp t with ⟨fault, t', hf, ht⟩ | ⟨state, t', ht, hf⟩
          · have ho : onDnsRequestReceived config data udp p clock s = .error fault t' := by
              rw [onDnsRequestReceived, bind_of_ok hi]
              exact bind_of_error hf
            have hr : r = (t', .nothing) := by
              simp only [r, react, Event.method, bind_of_error ho]
            rw [hr]
            rcases ht with ht | ⟨state, ht⟩
            · exact .inl ⟨ht.trans hk, rfl⟩
            · exact .inr ⟨state, issued ht, .inl rfl⟩
          · have ho : onDnsRequestReceived config data udp p clock s = .ok (some {
                data := toBE 2 (s.queryID + 1).toNat ++ slice (udp + 10) (p.size - 2) data
                address := state.remoteIP, port := state.remotePort }) t' := by
              rw [onDnsRequestReceived, bind_of_ok hi, ← hqi]
              exact bind_of_ok hf
            have hr : r = (t', .upstream {
                data := toBE 2 (s.queryID + 1).toNat ++ slice (udp + 10) (p.size - 2) data
                address := state.remoteIP, port := state.remotePort }) := by
              simp only [r, react, Event.method, bind_of_ok ho]
              rfl
            rw [hr]
            exact .inr ⟨state, issued ht, .inr rfl⟩

end TunProxy.Dns
