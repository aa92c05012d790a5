import Mathlib.Data.List.Dedup
import TunProxy.Lib.Run
import TunProxy.Relay.Lemmas.Callbacks

/-!
# The phases of a pair

Which keys are valid, which remainder is pending and which keys are still selected: what holds of every pair that is not
disposed, between any two callbacks.
-/

namespace TunProxy.Relay

open Lib
open Native (Bytes)

variable {w w' : Pair} {t u : Side} {b : ByteBuffer} {e : CallbackEnv} {op : Ops} {bytes : Bytes}

/-- What was read from `t` was written to its brother, behind the request, or waits there. -/
def Pair.Relayed (w : Pair) (t : Side) : Prop :=
  ∃ relayed, (w.tunnel t.brother).written = (w.tunnel t.brother).request ++ relayed ∧
    (w.tunnel t).received = relayed ++ (w.tunnel t.brother).remaining

/-- The keys of an established pair: both tunnels are read, or only `t`, or the brother of `t` has to write its
remainder. -/
inductive Mode (w : Pair) : Prop
  | both (hkey : ∀ t, (w.tunnel t).key = .valid .read) (hnil : ∀ t, (w.tunnel t).remaining = [])
  | oneWay (t : Side) (hkey : (w.tunnel t).key = .valid .read) (hother : (w.tunnel t.brother).key.isValid = false)
      (hnil : ∀ t, (w.tunnel t).remaining = [])
  | blocked (t : Side) (hkey : (w.tunnel t.brother).key = .valid .write) (hother : (w.tunnel t).key.isValid = false)
      (hnil : (w.tunnel t).remaining = [])

/-- A selected key that is still to be handled. A ready set for reading is out of date where the channel waits for
writing: then the key of the brother was cancelled since `select`. -/
structure Pending (w : Pair) (t : Side) (op : Ops) : Prop where
  present : (w.tunnel t).key ≠ .absent
  read : (w.tunnel t).key = .valid .read → op = .read
  write : (w.tunnel t).key = .valid .write → op = .write ∨ op = .read ∧ (w.tunnel t.brother).key = .cancelled

structure Established (w : Pair) : Prop where
  established : ∀ t, (w.tunnel t).isTunnelEstablished = true
  relayed : ∀ t, w.Relayed t
  mode : Mode w
  pending : ∀ t op, (t, op) ∈ w.selected → Pending w t op

/-- Nothing was read or written yet. -/
structure Tunnel.Fresh (u : Tunnel) : Prop where
  remain : u.remain = none
  request : u.request = []
  received : u.received = []
  written : u.written = []

/-- The remote tunnel alone is registered. -/
structure Pair.Waiting (w : Pair) (op : Ops) : Prop where
  raw : (w.tunnel .localTunnel).kind = .raw
  absent : (w.tunnel .localTunnel).key = .absent
  fresh : (w.tunnel .localTunnel).Fresh
  key : (w.tunnel .remoteTunnel).key = .valid op
  selected : w.selected = [] ∨ w.selected = [(.remoteTunnel, op)]

inductive Phase (w : Pair) : Prop
  | connecting (h : w.Waiting .connect) (hfresh : (w.tunnel .remoteTunnel).Fresh)
      (hkind : (w.tunnel .remoteTunnel).kind ≠ .httpConnect true)
  | requesting (h : w.Waiting .write) (hkind : (w.tunnel .remoteTunnel).kind = .httpConnect false)
  | requested (h : w.Waiting .read) (hkind : (w.tunnel .remoteTunnel).kind = .httpConnect false)
      (hremaining : (w.tunnel .remoteTunnel).remaining = []) (hreceived : (w.tunnel .remoteTunnel).received = [])
      (hwritten : (w.tunnel .remoteTunnel).written = (w.tunnel .remoteTunnel).request)
  | established (h : Established w)

/-! ## Established pairs -/

theorem Key.cancel_cancelled {key : Key} (h : key.isValid = true) : key.cancel = .cancelled := by
  cases key with
  | valid op => rfl
  | absent => cases h
  | cancelled => cases h

theorem Key.absent_of_not {key : Key} (hv : key.isValid = false) (hc : key ≠ .cancelled) : key = .absent := by
  cases key with
  | valid op => cases hv
  | absent => rfl
  | cancelled => exact absurd rfl hc

/-- A tunnel is read only while its brother has nothing left to write. -/
theorem Mode.remaining_brother (h : Mode w) (hv : (w.tunnel t).key.isValid = true) :
    (w.tunnel t.brother).remaining = [] := by
  cases h with
  | both hkey hnil => exact hnil _
  | oneWay u hkey hother hnil => exact hnil _
  | blocked u hkey hother hnil =>
      rcases Side.eq_or_brother u t with rfl | rfl
      · rw [hother] at hv
        cases hv
      · simpa using hnil

theorem Mode.key (h : Mode w) (hv : (w.tunnel t).key.isValid = true) :
    (w.tunnel t).key = .valid .read ∨ (w.tunnel t).key = .valid .write := by
  cases h with
  | both hkey hnil => exact .inl (hkey t)
  | oneWay u hkey hother hnil =>
      rcases Side.eq_or_brother u t with rfl | rfl
      · exact .inl hkey
      · rw [hother] at hv
        cases hv
  | blocked u hkey hother hnil =>
      rcases Side.eq_or_brother u t with rfl | rfl
      · rw [hother] at hv
        cases hv
      · exact .inr hkey

theorem Mode.remaining_nil (h : Mode w) (hread : (w.tunnel t).key = .valid .read) : (w.tunnel t).remaining = [] := by
  cases h with
  | both hkey hnil => exact hnil t
  | oneWay u hkey hother hnil => exact hnil t
  | blocked u hkey hother hnil =>
      rcases Side.eq_or_brother u t with rfl | rfl
      · exact hnil
      · rw [hkey] at hread
        cases hread

/-- The brother of a tunnel that has to write is not read. -/
theorem Mode.brother_of_write (h : Mode w) (hwrite : (w.tunnel t).key = .valid .write) :
    (w.tunnel t.brother).key.isValid = false ∧ (w.tunnel t.brother).remaining = [] := by
  cases h with
  | both hkey hnil =>
      rw [hkey] at hwrite
      cases hwrite
  | oneWay u hkey hother hnil =>
      rcases Side.eq_or_brother u t with rfl | rfl
      · rw [hkey] at hwrite
        cases hwrite
      · rw [hwrite] at hother
        cases hother
  | blocked u hkey hother hnil =>
      rcases Side.eq_or_brother u t with rfl | rfl
      · rw [hwrite] at hother
        cases hother
      · rw [Side.brother_brother]
        exact ⟨hother, hnil⟩

/-- Where a tunnel is read, its brother is read as well unless its key is gone. -/
theorem Mode.brother_of_read (h : Mode w) (hread : (w.tunnel t).key = .valid .read)
    (habsent : (w.tunnel t.brother).key ≠ .absent) (hcancelled : (w.tunnel t.brother).key ≠ .cancelled) :
    (w.tunnel t.brother).key = .valid .read := by
  cases h with
  | both hkey hnil => exact hkey _
  | oneWay u hkey hother hnil =>
      rcases Side.eq_or_brother u t with rfl | rfl
      · exact absurd (Key.absent_of_not hother hcancelled) habsent
      · rw [hread] at hother
        cases hother
  | blocked u hkey hother hnil =>
      rcases Side.eq_or_brother u t with rfl | rfl
      · rw [hread] at hother
        cases hother
      · rw [hkey] at hread
        cases hread

/-- What depends on keys and remainders alone. -/
theorem Mode.congr (h : Mode w) (hkey : ∀ t, (w'.tunnel t).key = (w.tunnel t).key)
    (hremain : ∀ t, (w'.tunnel t).remaining = (w.tunnel t).remaining) : Mode w' := by
  cases h with
  | both hk hnil => exact .both (fun t => (hkey t).trans (hk t)) fun t => (hremain t).trans (hnil t)
  | oneWay t hk hother hnil =>
      exact .oneWay t ((hkey t).trans hk) (by rw [hkey, hother]) fun t => (hremain t).trans (hnil t)
  | blocked t hk hother hnil =>
      exact .blocked t ((hkey _).trans hk) (by rw [hkey, hother]) ((hremain t).trans hnil)

theorem Pending.congr (h : Pending w t op) (hkey : ∀ t, (w'.tunnel t).key = (w.tunnel t).key) : Pending w' t op := by
  refine ⟨?_, ?_, ?_⟩
  · rw [hkey]
    exact h.present
  · rw [hkey]
    exact h.read
  · rw [hkey, hkey]
    exact h.write

/-- A selected key that was cancelled. -/
theorem Pending.cancelled (h : (w.tunnel t).key = .cancelled) : Pending w t op := by
  refine ⟨?_, ?_, ?_⟩ <;> simp [h]

/-- The same bytes came and went. -/
theorem Pair.Relayed.congr (h : w.Relayed t)
    (hwritten : (w'.tunnel t.brother).written = (w.tunnel t.brother).written)
    (hrequest : (w'.tunnel t.brother).request = (w.tunnel t.brother).request)
    (hremaining : (w'.tunnel t.brother).remaining = (w.tunnel t.brother).remaining)
    (hreceived : (w'.tunnel t).received = (w.tunnel t).received) : w'.Relayed t := by
  rw [Relayed, hwritten, hrequest, hremaining, hreceived]
  exact h

/-- One callback of reading, where bytes came and all of them were written. -/
theorem Established.forwarded_all (h : Established w) (hv : (w.tunnel t).key.isValid = true) (buffer : ByteBuffer)
    (hb : b.rest = bytes) : Established ((w.read t bytes buffer).wrote t.brother b.rest) := by
  obtain ⟨relayed, hwritten, hreceived⟩ := h.relayed t
  have hnil := h.mode.remaining_brother hv
  rw [hnil, List.append_nil] at hreceived
  generalize hw' : Pair.wrote _ _ _ = w'
  have ht : w'.tunnel t = { w.tunnel t with received := (w.tunnel t).received ++ bytes } := by
    rw [← hw']
    simp [Pair.wrote, Tunnel.receive_established (h.established t)]
  have hbro : w'.tunnel t.brother = { w.tunnel t.brother with written := (w.tunnel t.brother).written ++ bytes } := by
    rw [← hw']
    simp [Pair.wrote, hb]
  have hkey : ∀ u, (w'.tunnel u).key = (w.tunnel u).key := Side.forall_of t (by rw [ht]) (by rw [hbro])
  have hremaining : ∀ u, (w'.tunnel u).remaining = (w.tunnel u).remaining :=
    Side.forall_of t (by rw [ht]; rfl) (by rw [hbro]; rfl)
  constructor
  · exact Side.forall_of t (by rw [ht]; exact h.established t) (by rw [hbro]; exact h.established _)
  · refine Side.forall_of t ?_ ?_
    · refine ⟨relayed ++ bytes, ?_, ?_⟩
      · rw [hbro]
        simp [hwritten]
      · rw [hremaining, hnil, ht]
        simp [hreceived]
    · apply (h.relayed t.brother).congr
      · rw [Side.brother_brother, ht]
      · rw [Side.brother_brother, ht]
      · exact hremaining _
      · rw [hbro]
  · exact h.mode.congr hkey hremaining
  · intro u op hu
    rw [← hw'] at hu
    exact (h.pending u op hu).congr hkey

/-- One callback of reading, where a part of what came has to wait: now the brother has to write. -/
theorem Established.forwarded_part (h : Established w) (hv : (w.tunnel t).key.isValid = true) (hp : Pending w t .read)
    (hkey : (w.tunnel t.brother).key ≠ .cancelled) {r : ByteBuffer} {n : Nat} (hr : r.rest = bytes.drop n)
    (ht : w'.tunnel t = { w.tunnel t with received := (w.tunnel t).received ++ bytes, key := .cancelled })
    (hbro : w'.tunnel t.brother =
      { w.tunnel t.brother with
        written := (w.tunnel t.brother).written ++ bytes.take n, remain := some r, key := .valid .write })
    (hselected : w'.selected = w.selected) : Established w' := by
  obtain ⟨relayed, hwritten, hreceived⟩ := h.relayed t
  rw [h.mode.remaining_brother hv, List.append_nil] at hreceived
  -- a ready set that is out of date would have met a cancelled key
  have hread : (w.tunnel t).key = .valid .read := by
    rcases h.mode.key hv with hread | hwrite
    · exact hread
    · rcases hp.write hwrite with hop | ⟨-, hcancelled⟩
      · cases hop
      · exact absurd hcancelled hkey
  have hremaining : (w'.tunnel t).remaining = (w.tunnel t).remaining := by
    rw [ht]
    rfl
  constructor
  · exact Side.forall_of t (by rw [ht]; exact h.established t) (by rw [hbro]; exact h.established _)
  · refine Side.forall_of t ?_ ?_
    · refine ⟨relayed ++ bytes.take n, ?_, ?_⟩
      · rw [hbro]
        simp [hwritten]
      · rw [ht, hbro]
        simp [Tunnel.remaining, hr, hreceived]
    · apply (h.relayed t.brother).congr
      · rw [Side.brother_brother, ht]
      · rw [Side.brother_brother, ht]
      · rw [Side.brother_brother, hremaining]
      · rw [hbro]
  · apply Mode.blocked t
    · rw [hbro]
    · rw [ht]
      rfl
    · rw [hremaining, h.mode.remaining_nil hread]
  · intro u op hu
    rw [hselected] at hu
    have hold := h.pending u op hu
    rcases Side.eq_or_brother t u with rfl | rfl
    · exact .cancelled (by rw [ht])
    · -- the brother was registered when the keys were selected, so it was read
      have hbrother := h.mode.brother_of_read hread hold.present hkey
      refine ⟨?_, ?_, fun _ => .inr ⟨hold.read hbrother, ?_⟩⟩
      · rw [hbro]
        intro hk
        cases hk
      · rw [hbro]
        intro hk
        cases hk
      · rw [Side.brother_brother, ht]

theorem Established.forwarded (h : Established w) (hv : (w.tunnel t).key.isValid = true) (hp : Pending w t .read)
    (buffer : ByteBuffer) (hb : b.rest = bytes) {all : Bool} (hf : Forwarded (w.read t bytes buffer) t b all w') :
    Established w' := by
  cases hf with
  | all => exact h.forwarded_all hv buffer hb
  | part n hn r hr hkey =>
      rw [hb] at hr
      apply h.forwarded_part hv hp (by simpa using hkey) hr
      · simp [Pair.wrote, Tunnel.receive_established (h.established t), Key.cancel_cancelled hv]
      · simp [Pair.wrote, hb]
      · rfl

/-- One callback of writing, where a part of the remainder has to wait again. -/
theorem Established.resumed_part (h : Established w) (hkey : (w.tunnel t).key = .valid .write)
    (hb : (w.tunnel t).remain = some b) {n : Nat}
    (ht : w'.tunnel t =
      { w.tunnel t with written := (w.tunnel t).written ++ b.rest.take n, remain := some (b.advance n) })
    (hbro : w'.tunnel t.brother = w.tunnel t.brother) (hselected : w'.selected = w.selected) : Established w' := by
  obtain ⟨relayed, hwritten, hreceived⟩ := h.relayed t.brother
  rw [Side.brother_brother] at hwritten hreceived
  rw [Tunnel.remaining, hb] at hreceived
  have hother := h.mode.brother_of_write hkey
  have hkeys : ∀ u, (w'.tunnel u).key = (w.tunnel u).key := Side.forall_of t (by rw [ht]) (by rw [hbro])
  constructor
  · exact Side.forall_of t (by rw [ht]; exact h.established t) (by rw [hbro]; exact h.established _)
  · refine Side.forall_of t ?_ ?_
    · apply (h.relayed t).congr
      · rw [hbro]
      · rw [hbro]
      · rw [hbro]
      · rw [ht]
    · refine ⟨relayed ++ b.rest.take n, ?_, ?_⟩
      · rw [Side.brother_brother, ht]
        simp [hwritten]
      · rw [Side.brother_brother, ht, hbro]
        simp [Tunnel.remaining, ByteBuffer.advance_rest, hreceived]
  · apply Mode.blocked t.brother
    · rw [Side.brother_brother, ht]
      exact hkey
    · rw [hbro]
      exact hother.1
    · rw [hbro]
      exact hother.2
  · intro u op hu
    rw [hselected] at hu
    exact (h.pending u op hu).congr hkeys

/-- One callback of writing, where nothing is left: now the brother is read. -/
theorem Established.resumed_all (h : Established w) (hkey : (w.tunnel t).key = .valid .write)
    (hcancelled : (w.tunnel t.brother).key ≠ .cancelled) (hb : (w.tunnel t).remain = some b)
    (ht : w'.tunnel t =
      { w.tunnel t with
        written := (w.tunnel t).written ++ b.rest, remain := some (b.advance b.remaining), key := .cancelled })
    (hbro : w'.tunnel t.brother = { w.tunnel t.brother with key := .valid .read })
    (hselected : w'.selected = w.selected) : Established w' := by
  obtain ⟨relayed, hwritten, hreceived⟩ := h.relayed t.brother
  rw [Side.brother_brother] at hwritten hreceived
  rw [Tunnel.remaining, hb] at hreceived
  have hother := h.mode.brother_of_write hkey
  have hempty : (w'.tunnel t).remaining = [] := by
    rw [ht]
    simp [Tunnel.remaining, ByteBuffer.advance_rest, ← ByteBuffer.rest_length]
  have hremaining : (w'.tunnel t.brother).remaining = (w.tunnel t.brother).remaining := by
    rw [hbro]
    rfl
  constructor
  · exact Side.forall_of t (by rw [ht]; exact h.established t) (by rw [hbro]; exact h.established _)
  · refine Side.forall_of t ?_ ?_
    · apply (h.relayed t).congr
      · rw [hbro]
      · rw [hbro]
      · exact hremaining
      · rw [ht]
    · refine ⟨relayed ++ b.rest, ?_, ?_⟩
      · rw [Side.brother_brother, ht]
        simp [hwritten]
      · rw [Side.brother_brother, hempty, hbro]
        simp [hreceived]
  · apply Mode.oneWay t.brother
    · rw [hbro]
    · rw [Side.brother_brother, ht]
      rfl
    · exact Side.forall_of t hempty (hremaining.trans hother.2)
  · intro u op hu
    rw [hselected] at hu
    rcases Side.eq_or_brother t u with rfl | rfl
    · exact .cancelled (by rw [ht])
    · -- a selected key is not absent
      exact absurd (Key.absent_of_not hother.1 hcancelled) (h.pending _ op hu).present

theorem Established.resumed (h : Established w) (hv : (w.tunnel t).key.isValid = true) (hp : Pending w t .write)
    (hb : (w.tunnel t).remain = some b) (hr : Resumed w t b w') : Established w' := by
  have hkey : (w.tunnel t).key = .valid .write := by
    rcases h.mode.key hv with hread | hwrite
    · cases hp.read hread
    · exact hwrite
  cases hr with
  | part n hn =>
      apply h.resumed_part (n := n) hkey hb
      · simp [Pair.wrote]
      · simp [Pair.wrote]
      · rfl
  | all hcancelled he =>
      apply h.resumed_all hkey hcancelled hb
      · simp [Pair.wrote, Key.cancel_cancelled hv]
      · simp [Pair.wrote]
      · rfl

/-! ## The other phases -/

/-- Both tunnels start to be read. -/
theorem established_of_opened (hkey : ∀ t, (w.tunnel t).key = .valid .read)
    (he : ∀ t, (w.tunnel t).isTunnelEstablished = true) (hnil : ∀ t, (w.tunnel t).remaining = [])
    (hreceived : ∀ t, (w.tunnel t).received = [])
    (hwritten : ∀ t, (w.tunnel t).written = (w.tunnel t).request) (hselected : w.selected = []) : Established w := by
  refine ⟨he, fun t => ⟨[], ?_, ?_⟩, .both hkey hnil, fun t op ht => ?_⟩
  · rw [hwritten, List.append_nil]
  · rw [hreceived, hnil, List.append_nil]
  · rw [hselected] at ht
    cases ht

theorem Tunnel.Fresh.remaining {v : Tunnel} (h : v.Fresh) : v.remaining = [] := by rw [Tunnel.remaining, h.remain]

theorem httpConnect_false {kind : Kind} {established : Bool} (h : kind = .httpConnect established)
    (hkind : kind ≠ .httpConnect true) : established = false := by
  cases established with
  | false => rfl
  | true => exact absurd h hkind

theorem Phase.connected {request : Bytes} (h : w.Waiting .connect) (hfresh : (w.tunnel .remoteTunnel).Fresh)
    (hkind : (w.tunnel .remoteTunnel).kind ≠ .httpConnect true) (hs : w.selected = [])
    (hc : Connected w .remoteTunnel request w') : Phase w' := by
  have hne : Side.localTunnel ≠ Side.remoteTunnel := by decide
  cases hc with
  | raw hraw =>
      refine .established (established_of_opened ?_ ?_ ?_ ?_ ?_ hs) <;> intro t <;> cases t <;>
        simp [Side.brother, Pair.update, hne, Tunnel.isTunnelEstablished, hraw, h.raw, h.fresh.received,
          h.fresh.written,
          h.fresh.request, hfresh.received, hfresh.written, hfresh.request, Tunnel.remaining,
          h.fresh.remain, hfresh.remain]
  | sent hhttp buffer =>
      have hfalse := httpConnect_false hhttp hkind
      refine .requested ⟨?_, ?_, ?_, ?_, .inl hs⟩ ?_ ?_ ?_ ?_
      · simpa [Pair.update, hne] using h.raw
      · simpa [Pair.update, hne] using h.absent
      · simpa [Pair.update, hne] using h.fresh
      · simp [Pair.update]
      · simp [Pair.update, hhttp, hfalse]
      · simp [Pair.update, Tunnel.remaining, hfresh.remain]
      · simpa [Pair.update] using hfresh.received
      · simp [Pair.update, hfresh.written]
  | part hhttp buffer r n hr =>
      have hfalse := httpConnect_false hhttp hkind
      refine .requesting ⟨?_, ?_, ?_, ?_, .inl hs⟩ ?_
      · simpa [Pair.update, hne] using h.raw
      · simpa [Pair.update, hne] using h.absent
      · simpa [Pair.update, hne] using h.fresh
      · simp [Pair.update]
      · simp [Pair.update, hhttp, hfalse]

theorem Established.buffer (buffer : ByteBuffer) (h : Established w) : Established { w with buffer } := by
  refine ⟨h.established, h.relayed, h.mode.congr (fun _ => rfl) fun _ => rfl, fun t op ht => ?_⟩
  exact (h.pending t op ht).congr fun _ => rfl

theorem Phase.buffer (buffer : ByteBuffer) (h : Phase w) : Phase { w with buffer } := by
  cases h with
  | connecting h hfresh hkind => exact .connecting ⟨h.1, h.2, h.3, h.4, h.5⟩ hfresh hkind
  | requesting h hkind => exact .requesting ⟨h.1, h.2, h.3, h.4, h.5⟩ hkind
  | requested h hkind hremaining hreceived hwritten =>
      exact .requested ⟨h.1, h.2, h.3, h.4, h.5⟩ hkind hremaining hreceived hwritten
  | established h => exact .established (h.buffer buffer)

/-- The answer of the proxy. -/
theorem Phase.answered (h : w.Waiting .read) (hkind : (w.tunnel .remoteTunnel).kind = .httpConnect false)
    (hremaining : (w.tunnel .remoteTunnel).remaining = []) (hreceived : (w.tunnel .remoteTunnel).received = [])
    (hwritten : (w.tunnel .remoteTunnel).written = (w.tunnel .remoteTunnel).request) (hs : w.selected = [])
    (hf : forward .remoteTunnel b e w = .ok () w') : Phase w' := by
  obtain ⟨-, rfl⟩ := forward_handshake hkind hf
  refine .established (established_of_opened ?_ ?_ ?_ ?_ ?_ hs) <;> intro t <;> cases t <;>
    simp [Side.brother, Pair.update, Tunnel.isTunnelEstablished, h.raw, h.fresh.received, h.fresh.written,
      h.fresh.request, Tunnel.remaining, h.fresh.remain, hreceived, hwritten]
  exact hremaining

/-! ## `select` -/

theorem select_tunnel {ready : List Side} (h : (w.tunnel t).key ≠ .cancelled) :
    (w.select ready).tunnel t = w.tunnel t := by
  simp [Pair.select, h]

theorem select_cancelled {ready : List Side} (h : (w.tunnel t).key = .cancelled) :
    (w.select ready).tunnel t = { w.tunnel t with key := .absent } := by
  simp [Pair.select, h]

theorem select_invalid {ready : List Side} (h : (w.tunnel t).key.isValid = false) :
    ((w.select ready).tunnel t).key.isValid = false := by
  cases hkey : (w.tunnel t).key with
  | valid op =>
      rw [hkey] at h
      cases h
  | absent =>
      rw [select_tunnel (by simp [hkey]), hkey]
      rfl
  | cancelled =>
      rw [select_cancelled hkey]
      rfl

/-- `select` touches the keys only. -/
theorem select_fields (w : Pair) (ready : List Side) (t : Side) :
    ∃ key, (w.select ready).tunnel t = { w.tunnel t with key } := by
  by_cases h : (w.tunnel t).key = .cancelled
  · exact ⟨.absent, select_cancelled h⟩
  · exact ⟨(w.tunnel t).key, select_tunnel h⟩

theorem mem_select {ready : List Side} (h : (t, op) ∈ (w.select ready).selected) : (w.tunnel t).key = .valid op := by
  obtain ⟨u, -, hu⟩ := List.mem_filterMap.1 h
  cases hkey : (w.tunnel u).key with
  | valid op' =>
      rw [hkey] at hu
      cases hu
      exact hkey
  | absent =>
      rw [hkey] at hu
      cases hu
  | cancelled =>
      rw [hkey] at hu
      cases hu

/-- No key is selected twice. -/
theorem select_nodup (w : Pair) (ready : List Side) : (w.select ready).selected.Nodup := by
  refine List.Nodup.filterMap ?_ (List.nodup_dedup ready)
  intro t u x ht hu
  cases hkt : (w.tunnel t).key <;> cases hku : (w.tunnel u).key <;> simp_all
  grind

theorem Pair.Waiting.select {ready : List Side} (h : w.Waiting op) : (w.select ready).Waiting op := by
  have hlocal : (w.select ready).tunnel .localTunnel = w.tunnel .localTunnel := select_tunnel (by simp [h.absent])
  have hremote : (w.select ready).tunnel .remoteTunnel = w.tunnel .remoteTunnel := select_tunnel (by simp [h.key])
  refine ⟨by rw [hlocal, h.raw], by rw [hlocal, h.absent], by rw [hlocal]; exact h.fresh, by rw [hremote, h.key], ?_⟩
  have hall : ∀ x ∈ (w.select ready).selected, x = (.remoteTunnel, op) := by
    rintro ⟨t, op'⟩ hx
    have hkey := mem_select hx
    cases t with
    | localTunnel =>
        rw [h.absent] at hkey
        cases hkey
    | remoteTunnel =>
        rw [h.key] at hkey
        cases hkey
        rfl
  have hnodup := select_nodup w ready
  generalize (w.select ready).selected = selected at hall hnodup
  rcases selected with _ | ⟨x, _ | ⟨y, rest⟩⟩
  · exact .inl rfl
  · rw [hall x (by simp)]
    exact .inr rfl
  · rw [hall x (by simp), hall y (by simp)] at hnodup
    simp at hnodup

theorem Mode.select {ready : List Side} (h : Mode w) : Mode (w.select ready) := by
  have hremaining : ∀ t, ((w.select ready).tunnel t).remaining = (w.tunnel t).remaining := by
    intro t
    obtain ⟨key, ht⟩ := select_fields w ready t
    rw [ht]
    rfl
  cases h with
  | both hkey hnil =>
      refine .both (fun t => ?_) fun t => (hremaining t).trans (hnil t)
      rw [select_tunnel (by simp [hkey]), hkey]
  | oneWay t hkey hother hnil =>
      refine .oneWay t ?_ (select_invalid hother) fun t => (hremaining t).trans (hnil t)
      rw [select_tunnel (by simp [hkey]), hkey]
  | blocked t hkey hother hnil =>
      refine .blocked t ?_ (select_invalid hother) ((hremaining t).trans hnil)
      rw [select_tunnel (by simp [hkey]), hkey]

theorem Established.select {ready : List Side} (h : Established w) : Established (w.select ready) := by
  refine ⟨fun t => ?_, fun t => ?_, h.mode.select, fun t op ht => ?_⟩
  · obtain ⟨key, ht⟩ := select_fields w ready t
    rw [ht]
    exact h.established t
  · obtain ⟨key, ht⟩ := select_fields w ready t
    obtain ⟨key', hbro⟩ := select_fields w ready t.brother
    rw [Pair.Relayed, ht, hbro]
    exact h.relayed t
  · have hkey := mem_select ht
    have htunnel : (w.select ready).tunnel t = w.tunnel t := select_tunnel (by simp [hkey])
    refine ⟨?_, ?_, ?_⟩ <;> rw [htunnel, hkey]
    · intro h
      cases h
    · exact fun h => Key.valid.inj h
    · exact fun h => .inl (Key.valid.inj h)

theorem Phase.select {ready : List Side} (h : Phase w) : Phase (w.select ready) := by
  cases h with
  | connecting h hfresh hkind =>
      have hremote : (w.select ready).tunnel .remoteTunnel = w.tunnel .remoteTunnel := select_tunnel (by simp [h.key])
      exact .connecting h.select (by rw [hremote]; exact hfresh) (by rw [hremote]; exact hkind)
  | requesting h hkind =>
      have hremote : (w.select ready).tunnel .remoteTunnel = w.tunnel .remoteTunnel := select_tunnel (by simp [h.key])
      exact .requesting h.select (by rw [hremote]; exact hkind)
  | requested h hkind hremaining hreceived hwritten =>
      have hremote : (w.select ready).tunnel .remoteTunnel = w.tunnel .remoteTunnel := select_tunnel (by simp [h.key])
      exact .requested h.select (by rw [hremote]; exact hkind) (by rw [hremote]; exact hremaining)
        (by rw [hremote]; exact hreceived) (by rw [hremote]; exact hwritten)
  | established h => exact .established h.select

end TunProxy.Relay
