import TunProxy.Native.Tcp.Moves

/-!
# The bytes in the log of calls
-/

namespace TunProxy.Native

variable {s : TcpSession} {io calls : List Io} {c : Io}

/-- Bytes the socket took from `send` of queued data. -/
def Io.accepted : Io → Bytes
  | .send data ret => data.take ret.toNat
  | _ => []

/-- Bytes read from the socket for the client. -/
def Io.received : Io → Bytes
  | .recv bytes => bytes
  | _ => []

/-- Bytes written to the tun for the client. -/
def Io.delivered : Io → Bytes
  | .tun packet true => packet.data
  | _ => []

def accepted (io : List Io) : Bytes := io.flatMap Io.accepted
def received (io : List Io) : Bytes := io.flatMap Io.received
def delivered (io : List Io) : Bytes := io.flatMap Io.delivered

@[simp] theorem accepted_append : accepted (io ++ calls) = accepted io ++ accepted calls := List.flatMap_append
@[simp] theorem received_append : received (io ++ calls) = received io ++ received calls := List.flatMap_append
@[simp] theorem delivered_append : delivered (io ++ calls) = delivered io ++ delivered calls := List.flatMap_append

@[simp] theorem accepted_nil : accepted [] = [] := rfl
@[simp] theorem received_nil : received [] = [] := rfl
@[simp] theorem delivered_nil : delivered [] = [] := rfl

@[simp] theorem accepted_cons : accepted (c :: io) = c.accepted ++ accepted io := List.flatMap_cons
@[simp] theorem received_cons : received (c :: io) = c.received ++ received io := List.flatMap_cons
@[simp] theorem delivered_cons : delivered (c :: io) = c.delivered ++ delivered io := List.flatMap_cons

@[simp] theorem tunPacket_data {data : Bytes} {syn ack fin rst : Bool} :
    (tunPacket s data syn ack fin rst).data = data := rfl

@[simp] theorem ackPacket_data {remoteSeq : U32} : (ackPacket s remoteSeq).data = [] := rfl

/-- A call that writes no data to the tun and reads none for the client. -/
def Io.idle (c : Io) : Prop := c.received = [] ∧ ∀ packet ok, c = .tun packet ok → packet.data = []

theorem Io.idle_tun {packet : TunPacket} {ok : Bool} (h : packet.data = []) : (Io.tun packet ok).idle :=
  ⟨rfl, by rintro _ _ ⟨⟩; exact h⟩

theorem Io.delivered_of_idle (h : c.idle) : c.delivered = [] := by
  cases c with
  | tun packet ok => cases ok <;> simp [Io.delivered, h.2 packet _ rfl]
  | _ => rfl

theorem Io.idle_of_quiet (h : c.quiet = true) : c.idle := by
  cases c <;> simp_all [Io.quiet, Io.idle, Io.received]

theorem received_idle (h : ∀ c ∈ calls, c.idle) : received calls = [] := by
  simp only [received, List.flatMap_eq_nil_iff]
  exact fun c hc => (h c hc).1

theorem delivered_idle (h : ∀ c ∈ calls, c.idle) : delivered calls = [] := by
  simp only [delivered, List.flatMap_eq_nil_iff]
  exact fun c hc => Io.delivered_of_idle (h c hc)

theorem accepted_quiet (h : ∀ c ∈ calls, c.quiet = true) : accepted calls = [] := by
  simp only [accepted, List.flatMap_eq_nil_iff]
  intro c hc
  have := h c hc
  cases c <;> simp_all [Io.quiet, Io.accepted]

/-! ## What the changes of a session add -/

/-- All calls after `io` are idle. -/
def IdleSince (io io' : List Io) : Prop := ∃ calls, io' = io ++ calls ∧ ∀ c ∈ calls, c.idle

theorem IdleSince.refl (io : List Io) : IdleSince io io := ⟨[], by simp, by simp⟩

theorem IdleSince.snoc {io' : List Io} (h : IdleSince io io') (hc : c.idle) : IdleSince io (io' ++ [c]) := by
  obtain ⟨calls, rfl, hi⟩ := h
  refine ⟨calls ++ [c], by simp, ?_⟩
  intro c' hc'
  rcases List.mem_append.1 hc' with h | h
  · exact hi c' h
  · rw [List.mem_singleton.1 h]
    exact hc

end TunProxy.Native
