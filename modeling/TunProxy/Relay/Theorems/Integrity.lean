import TunProxy.Relay.Lemmas.Invariant

/-!
# The relay between two tunnels

What is read from a tunnel of an established pair is written to the other one, in order and without a gap.
-/

namespace TunProxy.Relay

open Lib
open Native (Bytes ascii)

variable {w w' : Pair} {t : Side} {e : CallbackEnv} {ready : Ops} {selected : List (Side × Ops)} {kind : Kind}
  {array : Bytes} {ops : List Op}

/-! ## One step -/

theorem read_nil (buffer : ByteBuffer) : w.read t [] buffer = { w with buffer } := by
  rw [Pair.read, Pair.update_id]
  unfold Tunnel.receive
  split
  · simp
  · rfl

/-- The selected key, taken out of the list. -/
theorem Pair.Waiting.pop {op : Ops} (h : w.Waiting op) (hs : w.selected = (t, ready) :: selected) :
    t = .remoteTunnel ∧ ready = op ∧ selected = [] ∧ ({ w with selected } : Pair).Waiting op := by
  rcases h.selected with hnil | hone
  · rw [hnil] at hs
    cases hs
  · rw [hone] at hs
    cases hs
    exact ⟨rfl, rfl, rfl, h.raw, h.absent, h.fresh, h.key, .inl rfl⟩

theorem Established.pop (h : Established w) (hs : w.selected = (t, ready) :: selected) :
    Established { w with selected } ∧ Pending { w with selected } t ready := by
  have hpending : ∀ u op, (u, op) ∈ w.selected → Pending { w with selected } u op :=
    fun u op hu => (h.pending u op hu).congr fun _ => rfl
  rw [hs] at hpending
  refine ⟨⟨h.established, h.relayed, h.mode.congr (fun _ => rfl) fun _ => rfl, fun u op hu => ?_⟩, ?_⟩
  · exact hpending u op (List.mem_cons_of_mem _ hu)
  · exact hpending t ready List.mem_cons_self

theorem Established.dispatched (h : Established w) (hp : Pending w t ready) (hd : Dispatched w t e ready w') :
    Established w' := by
  cases hd with
  | skipped hv => exact h
  | connected hv hc =>
      -- no key of an established pair waits for a connection
      rcases h.mode.key hv with hread | hwrite
      · cases hp.read hread
      · rcases hp.write hwrite with hop | ⟨hop, -⟩ <;> cases hop
  | nothing hv bytes hread hnil buffer =>
      rw [read_nil]
      exact h.buffer buffer
  | forwarded hv he bytes hread buffer b hb hne hf => exact h.forwarded hv hp buffer rfl hf
  | answered hv hkind buffer hb hf =>
      have he := h.established t
      simp [Tunnel.isTunnelEstablished, hkind] at he
  | resumed hv b hb hr => exact h.resumed hv hp hb hr

theorem Phase.dispatched (h : Phase w) (hs : w.selected = (t, ready) :: selected)
    (hd : Dispatched { w with selected } t e ready w') : Phase w' := by
  cases h with
  | connecting h hfresh hkind =>
      obtain ⟨rfl, rfl, rfl, h⟩ := h.pop hs
      cases hd with
      | skipped hv => exact .connecting h hfresh hkind
      | connected hv hc => exact .connected h hfresh hkind rfl hc
  | requesting h hkind =>
      obtain ⟨rfl, rfl, rfl, h⟩ := h.pop hs
      cases hd with
      | skipped hv => exact .requesting h hkind
      | resumed hv b hb hr =>
          cases hr with
          | part n hn =>
              refine .requesting ⟨?_, ?_, ?_, ?_, .inl rfl⟩ ?_
              · simpa [Pair.wrote, Pair.update] using h.raw
              · simpa [Pair.wrote, Pair.update] using h.absent
              · simpa [Pair.wrote, Pair.update] using h.fresh
              · simpa [Pair.wrote, Pair.update] using h.key
              · simpa [Pair.wrote, Pair.update] using hkind
          | all hkey he => simp [Tunnel.isTunnelEstablished, hkind] at he
  | requested h hkind hremaining hreceived hwritten =>
      obtain ⟨rfl, rfl, rfl, h⟩ := h.pop hs
      cases hd with
      | skipped hv => exact .requested h hkind hremaining hreceived hwritten
      | nothing hv bytes hread hnil buffer =>
          rw [read_nil]
          exact (Phase.requested h hkind hremaining hreceived hwritten).buffer buffer
      | forwarded hv he bytes hread buffer b hb hne hf => simp [Tunnel.isTunnelEstablished, hkind] at he
      | answered hv hhttp buffer hb hf =>
          have hw : Pair.Waiting { w with buffer, selected := [] } .read := ⟨h.1, h.2, h.3, h.4, h.5⟩
          exact .answered hw hkind hremaining hreceived hwritten rfl hf
  | established h =>
      obtain ⟨h, hp⟩ := h.pop hs
      exact .established (h.dispatched hp hd)

/-- A disposed pair stays disposed. -/
theorem step_live (op : Op) (hl : (step w op).Live) : w.Live := by
  cases op with
  | select ready =>
      simp only [step] at hl
      split at hl
      · intro t
        have ht := hl t
        obtain ⟨key, hkey⟩ := select_fields w ready t
        rw [hkey] at ht
        exact ht
      · exact hl
  | callback e =>
      cases hs : w.selected with
      | nil =>
          have hidle : step w (.callback e) = w := by simp [step, Pair.dispatch, hs]
          rwa [hidle] at hl
      | cons x selected =>
          intro t
          have hd := (dispatch_live (t := x.1) hs hl).disposed t
          exact hd.symm.trans (hl t)
  | others bytes => exact hl

/-- Between two steps, every pair that is not disposed is in one of the phases. -/
theorem step_phase (op : Op) (h : w.Live → Phase w) (hl : (step w op).Live) : Phase (step w op) := by
  have h := h (step_live op hl)
  cases op with
  | select ready =>
      simp only [step]
      split
      · exact h.select
      · exact h
  | callback e =>
      cases hs : w.selected with
      | nil =>
          have hidle : step w (.callback e) = w := by simp [step, Pair.dispatch, hs]
          rw [hidle]
          exact h
      | cons x selected => exact h.dispatched hs (dispatch_live hs hl)
  | others bytes => exact h.buffer _

/-! ## Runs -/

theorem accepted_phase (hkind : kind ≠ .httpConnect true) : Phase (accepted kind array) :=
  .connecting ⟨rfl, rfl, ⟨rfl, rfl, rfl, rfl⟩, rfl, .inl rfl⟩ ⟨rfl, rfl, rfl, rfl⟩ hkind

theorem phase_of_run (hkind : kind ≠ .httpConnect true) (h : Run step (fun _ _ => True) (accepted kind array) ops w)
    (hl : w.Live) : Phase w :=
  h.invariant' (I := fun w => w.Live → Phase w) (fun _ => accepted_phase hkind)
    (fun _ op hw _ => step_phase op hw) hl

theorem Phase.relayed (h : Phase w) (he : ∀ t, (w.tunnel t).isTunnelEstablished = true) (t : Side) : w.Relayed t := by
  cases h with
  | connecting h hfresh hkind =>
      refine ⟨[], ?_, ?_⟩ <;> cases t <;>
        simp [Side.brother, h.fresh.received, h.fresh.written, h.fresh.request, hfresh.received, hfresh.written,
          hfresh.request, Tunnel.remaining, h.fresh.remain, hfresh.remain]
  | requesting h hkind =>
      have he := he .remoteTunnel
      simp [Tunnel.isTunnelEstablished, hkind] at he
  | requested h hkind hremaining hreceived hwritten =>
      have he := he .remoteTunnel
      simp [Tunnel.isTunnelEstablished, hkind] at he
  | established h => exact h.relayed t

/-- What was read from a tunnel since it was established is what was written to its brother, without the CONNECT
request, and what waits in the `m_SendRemainBuffer` of the brother. -/
theorem relay_integrity (hkind : kind ≠ .httpConnect true)
    (h : Run step (fun _ _ => True) (accepted kind array) ops w) (hl : w.Live)
    (he : ∀ t, (w.tunnel t).isTunnelEstablished = true) (t : Side) :
    ∃ relayed, (w.tunnel t.brother).written = (w.tunnel t.brother).request ++ relayed ∧
      (w.tunnel t).received = relayed ++ (w.tunnel t.brother).remaining :=
  (phase_of_run hkind h hl).relayed he t

/-- The tunnel through the proxy is established, and its channel takes two of three bytes. -/
def sampleOps : List Op :=
  [.select [.remoteTunnel], .callback { writes := [some 1000] },
    .select [.remoteTunnel], .callback { read := .got (ascii "HTTP/1.0 200 OK\r\n\r\n") },
    .select [.localTunnel], .callback { read := .got [1, 2, 3], writes := [some 2] }]

def samplePair : Pair := sampleOps.foldl step (accepted (.httpConnect false) (List.replicate 200 0))

theorem relay_integrity_part :
    (samplePair.tunnel .localTunnel).received = [1, 2, 3] ∧ (samplePair.tunnel .remoteTunnel).remaining = [3] ∧
      samplePair.Relayed .localTunnel := by
  have hrun : Run step (fun _ _ => True) (accepted (.httpConnect false) (List.replicate 200 0)) sampleOps samplePair :=
    Run.ofList step (accepted (.httpConnect false) (List.replicate 200 0)) sampleOps
  have hlive : samplePair.Live := by
    intro t
    cases t <;> decide +kernel
  have hestablished : ∀ t, (samplePair.tunnel t).isTunnelEstablished = true := by
    intro t
    cases t <;> decide +kernel
  exact ⟨by decide +kernel, by decide +kernel, relay_integrity (by simp) hrun hlive hestablished .localTunnel⟩

end TunProxy.Relay
