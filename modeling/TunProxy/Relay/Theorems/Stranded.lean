import TunProxy.Relay.Theorems.Integrity

/-!
# Directions that are stranded

`write` registers the channel for writing in place of reading, and only the brother is read again when the remainder was
written. After the first write that does not take all bytes, one direction is never read again.
-/

namespace TunProxy.Relay

open Lib
open Native (Bytes ascii)

variable {w w' : Pair} {t : Side} {e : CallbackEnv} {ready : Ops} {selected : List (Side × Ops)} {kind : Kind}
  {array : Bytes} {ops : List Op} {op : Op}

/-- The tunnels of the pair were established, and read. -/
structure Pair.Open (w : Pair) : Prop where
  established : ∀ t, (w.tunnel t).isTunnelEstablished = true
  connected : (w.tunnel .remoteTunnel).key ≠ .valid .connect

/-- The direction from `t` to its brother goes on: `t` is read, or the brother has a remainder and waits to write it. -/
def Pair.CanProgress (w : Pair) (t : Side) : Prop :=
  (w.tunnel t).key = .valid .read ∨
    (w.tunnel t.brother).remaining ≠ [] ∧ (w.tunnel t.brother).key = .valid .write

/-- If the callback reads from an established tunnel, the channel of the brother takes all bytes. -/
def takes (w : Pair) : Op → Bool
  | .callback e =>
      match w.selected, e.read with
      | (t, .read) :: _, .got bytes =>
          !(w.tunnel t).key.isValid || !(w.tunnel t).isTunnelEstablished ||
            takesAll (w.tunnel t.brother) e (bytes.take w.buffer.capacity)
      | _, _ => true
  | _ => true

/-- The condition on a step. -/
abbrev Takes (w : Pair) (op : Op) : Prop := takes w op = true

theorem takes_callback : Takes w (.callback e) ↔
    ∀ t selected bytes, w.selected = (t, .read) :: selected → (w.tunnel t).key.isValid = true →
      (w.tunnel t).isTunnelEstablished = true → e.read = .got bytes →
      takesAll (w.tunnel t.brother) e (bytes.take w.buffer.capacity) = true := by
  unfold Takes takes
  simp only []
  split
  · rename_i t selected bytes hs hread
    simp only [Bool.or_eq_true, Bool.not_eq_true']
    constructor
    · rintro hor u rest bytes' hu hv he hread'
      rw [hs] at hu
      rw [hread] at hread'
      cases hu
      cases hread'
      rcases hor with (hor | hor) | hor
      · rw [hv] at hor
        cases hor
      · rw [he] at hor
        cases hor
      · exact hor
    · intro h
      by_cases hv : (w.tunnel t).key.isValid = true
      · by_cases he : (w.tunnel t).isTunnelEstablished = true
        · exact .inr (h t selected bytes hs hv he hread)
        · exact .inl (.inr (by simpa using he))
      · exact .inl (.inl (by simpa using hv))
  · rename_i hne
    refine ⟨fun _ u rest bytes hu hv he hread => ?_, fun _ => rfl⟩
    exact absurd hread (hne u rest bytes hu)

/-! ## Open pairs -/

theorem Established.open (h : Established w) : w.Open := by
  refine ⟨h.established, fun hkey => ?_⟩
  rcases h.mode.key (t := .remoteTunnel) (by rw [hkey]; rfl) with hread | hwrite
  · rw [hread] at hkey
    cases hkey
  · rw [hwrite] at hkey
    cases hkey

theorem Phase.established_of_open (h : Phase w) (ho : w.Open) : Established w := by
  cases h with
  | connecting h hfresh hkind => exact absurd h.key ho.connected
  | requesting h hkind =>
      have he := ho.established .remoteTunnel
      simp [Tunnel.isTunnelEstablished, hkind] at he
  | requested h hkind hremaining hreceived hwritten =>
      have he := ho.established .remoteTunnel
      simp [Tunnel.isTunnelEstablished, hkind] at he
  | established h => exact h

/-- Both directions go on while both tunnels are read, and only then. -/
theorem Established.progress_iff (h : Established w) :
    (∀ t, w.CanProgress t) ↔ ∀ t, (w.tunnel t).key = .valid .read := by
  constructor
  · intro hp
    cases h.mode with
    | both hkey hnil => exact hkey
    | oneWay u hkey hother hnil =>
        rcases hp u.brother with hread | ⟨hne, -⟩
        · rw [hread] at hother
          cases hother
        · exact absurd (hnil _) hne
    | blocked u hkey hother hnil =>
        rcases hp u.brother with hread | ⟨-, hwrite⟩
        · rw [hkey] at hread
          cases hread
        · rw [Side.brother_brother] at hwrite
          rw [hwrite] at hother
          cases hother
  · exact fun hread t => .inl (hread t)

theorem takesAll_nil {v : Tunnel} : takesAll v e [] = true := by simp [takesAll, partTaken, taken_zero]

/-! ## One step -/

/-- A callback of an established pair leaves both tunnels to be read where they were, and where all bytes were taken. -/
theorem Established.both_dispatched (h : Established w) (hp : Pending w t ready) (hd : Dispatched w t e ready w') :
    (∀ u, (w'.tunnel u).key = .valid .read) ↔
      (∀ u, (w.tunnel u).key = .valid .read) ∧
        (ready = .read → (w.tunnel t).key.isValid = true → ∀ bytes, e.read = .got bytes →
          takesAll (w.tunnel t.brother) e (bytes.take w.buffer.capacity) = true) := by
  cases hd with
  | skipped hv =>
      constructor
      · exact fun hread => ⟨hread, fun _ hv' => absurd hv' (by simp [hv])⟩
      · exact fun hread => hread.1
  | connected hv hc =>
      rcases h.mode.key hv with hread | hwrite
      · cases hp.read hread
      · rcases hp.write hwrite with hop | ⟨hop, -⟩ <;> cases hop
  | nothing hv bytes hgot hnil buffer =>
      rw [read_nil]
      constructor
      · refine fun hread => ⟨hread, fun _ _ bytes' hgot' => ?_⟩
        rw [hgot] at hgot'
        cases hgot'
        rw [hnil, takesAll_nil]
      · exact fun hread => hread.1
  | forwarded hv he bytes hgot buffer b hb hne hf =>
      rw [hb] at hf hne
      generalize hall : takesAll (w.tunnel t.brother) e (bytes.take w.buffer.capacity) = all at hf
      cases hf with
      | all =>
          have hkey : ∀ u, (((w.read t (bytes.take w.buffer.capacity) buffer).wrote t.brother b.rest).tunnel u).key =
              (w.tunnel u).key := by
            intro u
            rcases Side.eq_or_brother t u with rfl | rfl
            · simp [Pair.wrote, Tunnel.receive_established he]
            · simp [Pair.wrote]
          simp only [hkey]
          constructor
          · refine fun hread => ⟨hread, fun _ _ bytes' hgot' => ?_⟩
            rw [hgot] at hgot'
            cases hgot'
            exact hall
          · exact fun hread => hread.1
      | part n hn r hr hkey =>
          constructor
          · intro hread
            have hbrother := hread t.brother
            simp at hbrother
          · intro hread
            have htrue := hread.2 rfl hv bytes hgot
            rw [hall] at htrue
            cases htrue
  | answered hv hkind buffer hb hf =>
      have he := h.established t
      simp [Tunnel.isTunnelEstablished, hkind] at he
  | resumed hv b hb hr =>
      have hwrite : (w.tunnel t).key = .valid .write := by
        rcases h.mode.key hv with hread | hwrite
        · cases hp.read hread
        · exact hwrite
      constructor
      · intro hread
        have hown := hread t
        cases hr with
        | part n hn => simp [Pair.wrote, hwrite] at hown
        | all hkey he => simp [Pair.wrote, hwrite, Key.cancel] at hown
      · intro hread
        have hown := hread.1 t
        rw [hwrite] at hown
        cases hown

/-- A pair is opened with both tunnels to be read. -/
theorem Phase.opens (h : Phase w) (hn : ¬w.Open) (hs : w.selected = (t, ready) :: selected)
    (hd : Dispatched { w with selected } t e ready w') (ho : w'.Open) : ∀ u, (w'.tunnel u).key = .valid .read := by
  cases h with
  | connecting h hfresh hkind =>
      obtain ⟨rfl, rfl, rfl, h⟩ := h.pop hs
      cases hd with
      | skipped hv => exact absurd h.key ho.connected
      | connected hv hc =>
          cases hc with
          | raw hraw =>
              intro u
              cases u <;> simp [Side.brother, Pair.update]
          | sent hhttp buffer =>
              rename_i established
              have hhttp : (w.tunnel .remoteTunnel).kind = .httpConnect established := hhttp
              have he := ho.established .remoteTunnel
              simp [Pair.update, Tunnel.isTunnelEstablished, hhttp] at he
              exact absurd (hhttp.trans (by rw [he])) hkind
          | part hhttp buffer r n hr =>
              rename_i established
              have hhttp : (w.tunnel .remoteTunnel).kind = .httpConnect established := hhttp
              have he := ho.established .remoteTunnel
              simp [Pair.update, Tunnel.isTunnelEstablished, hhttp] at he
              exact absurd (hhttp.trans (by rw [he])) hkind
  | requesting h hkind =>
      obtain ⟨rfl, rfl, rfl, h⟩ := h.pop hs
      have he := ho.established .remoteTunnel
      cases hd with
      | skipped hv => simp [Tunnel.isTunnelEstablished, hkind] at he
      | resumed hv b hb hr =>
          cases hr with
          | part n hn => simp [Pair.wrote, Tunnel.isTunnelEstablished, hkind] at he
          | all hkey hest => simp [Tunnel.isTunnelEstablished, hkind] at hest
  | requested h hkind hremaining hreceived hwritten =>
      obtain ⟨rfl, rfl, rfl, h⟩ := h.pop hs
      have he := ho.established .remoteTunnel
      cases hd with
      | skipped hv => simp [Tunnel.isTunnelEstablished, hkind] at he
      | nothing hv bytes hread hnil buffer => simp [read_nil, Tunnel.isTunnelEstablished, hkind] at he
      | forwarded hv he bytes hread buffer b hb hne hf => simp [Tunnel.isTunnelEstablished, hkind] at he
      | answered hv hhttp buffer hb hf =>
          obtain ⟨-, rfl⟩ := forward_handshake (w := { w with buffer, selected := [] }) hhttp hf
          intro u
          cases u <;> simp [Side.brother, Pair.update]
  | established h => exact absurd h.open hn

/-- Before a pair is open, no established tunnel is read. -/
theorem Phase.takes (h : Phase w) (hn : ¬w.Open) (op : Op) : Takes w op := by
  cases op with
  | select ready => rfl
  | others bytes => rfl
  | callback e =>
      refine takes_callback.2 fun t selected bytes hs hv he hread => ?_
      cases h with
      | connecting h hfresh hkind => cases (h.pop hs).2.1
      | requesting h hkind => cases (h.pop hs).2.1
      | requested h hkind hremaining hreceived hwritten =>
          obtain ⟨rfl, -⟩ := h.pop hs
          simp [Tunnel.isTunnelEstablished, hkind] at he
      | established h => exact absurd h.open hn

/-! ## Runs -/

theorem select_read {ready : List Side} {interest : Ops} :
    ((w.select ready).tunnel t).key = .valid interest ↔ (w.tunnel t).key = .valid interest := by
  by_cases h : (w.tunnel t).key = .cancelled
  · simp [select_cancelled h, h]
  · rw [select_tunnel h]

theorem open_select {ready : List Side} : (w.select ready).Open ↔ w.Open := by
  have he : ∀ t, ((w.select ready).tunnel t).isTunnelEstablished = (w.tunnel t).isTunnelEstablished := by
    intro t
    obtain ⟨key, ht⟩ := select_fields w ready t
    rw [ht]
    rfl
  constructor
  · exact fun h => ⟨fun t => (he t).symm.trans (h.established t), fun hkey => h.connected (select_read.2 hkey)⟩
  · exact fun h => ⟨fun t => (he t).trans (h.established t), fun hkey => h.connected (select_read.1 hkey)⟩

/-- The invariant of the runs: both tunnels of an open pair are read where all bytes were taken so far. -/
structure Taken (w : Pair) (taken : Prop) : Prop where
  opened : w.Open → ((∀ t, (w.tunnel t).key = .valid .read) ↔ taken)
  closed : ¬w.Open → taken

theorem Taken.select {taken : Prop} {ready : List Side} (h : Taken w taken) : Taken (w.select ready) taken := by
  refine ⟨fun ho => ?_, fun hn => h.closed fun ho => hn (open_select.2 ho)⟩
  simp only [select_read]
  exact h.opened (open_select.1 ho)

theorem Taken.dispatched {taken : Prop} (h : Taken w taken) (hphase : Phase w)
    (hs : w.selected = (t, ready) :: selected) (hd : Dispatched { w with selected } t e ready w') :
    Taken w' (taken ∧ Takes w (.callback e)) := by
  by_cases ho : w.Open
  · have hest := hphase.established_of_open ho
    obtain ⟨hpop, hp⟩ := hest.pop hs
    have hopen : w'.Open := (hpop.dispatched hp hd).open
    refine ⟨fun _ => ?_, fun hn => absurd hopen hn⟩
    rw [hpop.both_dispatched hp hd, ← h.opened ho]
    refine and_congr_right fun _ => ?_
    rw [takes_callback]
    constructor
    · intro htakes u rest bytes hu hv he hread
      rw [hs] at hu
      cases hu
      exact htakes rfl hv bytes hread
    · intro htakes hop hv bytes hread
      subst hop
      exact htakes t selected bytes hs hv (hest.established t) hread
  · have htakes := hphase.takes ho (.callback e)
    refine ⟨fun ho' => ?_, fun _ => ⟨h.closed ho, htakes⟩⟩
    have hread := hphase.opens ho hs hd ho'
    exact ⟨fun _ => ⟨h.closed ho, htakes⟩, fun _ => hread⟩

theorem Taken.step {taken : Prop} (h : Taken w taken) (hphase : Phase w) (hl : (step w op).Live) :
    Taken (step w op) (taken ∧ Takes w op) := by
  cases op with
  | select ready =>
      have htrue : (taken ∧ Takes w (.select ready)) = taken := by simp [Takes, takes]
      rw [htrue]
      simp only [Relay.step]
      split
      · exact h.select
      · exact h
  | others bytes =>
      have htrue : (taken ∧ Takes w (.others bytes)) = taken := by simp [Takes, takes]
      rw [htrue]
      exact ⟨fun ho => h.opened ⟨ho.established, ho.connected⟩,
        fun hn => h.closed fun ho => hn ⟨ho.established, ho.connected⟩⟩
  | callback e =>
      cases hs : w.selected with
      | nil =>
          have hidle : Relay.step w (.callback e) = w := by simp [Relay.step, Pair.dispatch, hs]
          have htakes : Takes w (.callback e) := by simp [Takes, takes, hs]
          rw [hidle]
          refine ⟨fun ho => ?_, fun hn => ⟨h.closed hn, htakes⟩⟩
          rw [h.opened ho]
          exact ⟨fun htaken => ⟨htaken, htakes⟩, fun htaken => htaken.1⟩
      | cons x selected => exact h.dispatched hphase hs (dispatch_live hs hl)

theorem taken_of_run (hkind : kind ≠ .httpConnect true) (h : Run step (fun _ _ => True) (accepted kind array) ops w)
    (hl : w.Live) : Phase w ∧ Taken w (AllOk step Takes (accepted kind array) ops) := by
  induction h with
  | nil =>
      refine ⟨accepted_phase hkind, fun ho => ?_, fun _ => trivial⟩
      exact absurd rfl ho.connected
  | @snoc ops w op hrun _ ih =>
      obtain ⟨hphase, htaken⟩ := ih (step_live op hl)
      refine ⟨step_phase op (fun _ => hphase) hl, ?_⟩
      rw [AllOk.snoc, ← hrun.eq_foldl]
      exact htaken.step hphase hl

/-- Both directions of an open pair go on exactly as long as the channels took all bytes at once, in every callback that
read from an established tunnel. -/
theorem no_stranded_iff (hkind : kind ≠ .httpConnect true)
    (h : Run step (fun _ _ => True) (accepted kind array) ops w) (hl : w.Live) (ho : w.Open) :
    (∀ t, w.CanProgress t) ↔ AllOk step Takes (accepted kind array) ops := by
  obtain ⟨hphase, htaken⟩ := taken_of_run hkind h hl
  rw [(hphase.established_of_open ho).progress_iff]
  exact htaken.opened ho

/-- Two raw tunnels, of which the local one reads three bytes. -/
def sampleRead (writes : List (Option Nat)) : List Op :=
  [.select [.remoteTunnel], .callback {}, .select [.localTunnel, .remoteTunnel],
    .callback { read := .got [1, 2, 3], writes }]

def sampleRaw (writes : List (Option Nat)) : Pair :=
  (sampleRead writes).foldl step (accepted .raw (List.replicate 20 0))

theorem no_stranded_taken : (sampleRaw [some 2, some 1]).CanProgress .localTunnel ∧
    (sampleRaw [some 2, some 1]).CanProgress .remoteTunnel := by
  have hlive : (sampleRaw [some 2, some 1]).Live := by
    intro t
    cases t <;> decide
  have hopen : (sampleRaw [some 2, some 1]).Open := by
    refine ⟨fun t => ?_, by decide⟩
    cases t <;> decide
  have h := (no_stranded_iff (by simp) (Run.ofList step (accepted .raw (List.replicate 20 0))
    (sampleRead [some 2, some 1])) hlive hopen).2 (by decide)
  exact ⟨h .localTunnel, h .remoteTunnel⟩

/-- The remote channel takes two of the three bytes: the remote tunnel is not read any more, and nothing waits for the
local one. -/
theorem remote_stranded :
    Run step (fun _ _ => True) (accepted .raw (List.replicate 20 0)) (sampleRead [some 2]) (sampleRaw [some 2]) ∧
      (sampleRaw [some 2]).Live ∧ (sampleRaw [some 2]).Open ∧ ¬(sampleRaw [some 2]).CanProgress .remoteTunnel := by
  refine ⟨Run.ofList step (accepted .raw (List.replicate 20 0)) (sampleRead [some 2]),
    fun t => ?_, ⟨fun t => ?_, by decide⟩,
    ?_⟩
  · cases t <;> decide
  · cases t <;> decide
  · rintro (hread | ⟨hne, -⟩)
    · exact absurd hread (by decide)
    · exact hne (by decide)

end TunProxy.Relay
