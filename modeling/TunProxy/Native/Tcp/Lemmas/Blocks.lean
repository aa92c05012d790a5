import TunProxy.Native.Tcp.Blocks
import TunProxy.Native.Tcp.Lemmas.Coherent
import TunProxy.Native.Tcp.Lemmas.Forward
import TunProxy.Native.Tcp.Lemmas.Queue

/-!
# The functions of the queue in memory

Each of them does to the list at `forward` what the function on Lean's lists does.
-/

namespace TunProxy.Native

open Lib.Linked

/-- A segment of the queue, with the addresses of its two blocks. -/
structure Cell where
  addr : Nat
  data : Nat
  seg : Segment

def Cell.block (c : Cell) : Nat × SegmentBlock :=
  (c.addr, { seq := c.seg.seq, len := c.seg.len, sent := c.seg.sent, psh := c.seg.psh, data := c.data })

variable {datas datas' : AList fun _ : Nat => Bytes} {cells cells' l₁ l₂ : List Cell} {m m' : Blocks} {c : Cell}
  {p : TcpPkt} {s : TcpSession} {d : Nat}

/-- Each segment has a block of data of its own, and there are no others. -/
structure DataOf (datas : AList fun _ : Nat => Bytes) (cells : List Cell) : Prop where
  lookup : ∀ c ∈ cells, datas.lookup c.data = some c.seg.data
  apart : (cells.map Cell.data).Nodup
  owned : ∀ d, datas.lookup d ≠ none → d ∈ cells.map Cell.data

/-- The blocks hold the queue, and nothing else. -/
structure Blocks.Represents (m : Blocks) (cells : List Cell) : Prop where
  list : Holds m.segments m.forward (cells.map Cell.block)
  data : DataOf m.datas cells

theorem Malloc.lookup_none {β : Type*} (a : Malloc) (h : AList fun _ : Nat => β) : h.lookup (a.addr h.keys) = none := by
  rw [AList.lookup_eq_none, AList.mem_keys]
  exact a.addr_fresh h.keys

/-! ## The blocks of data -/

theorem DataOf.nil : DataOf ∅ [] := ⟨by simp, by simp, by simp⟩

theorem data_perm : ((l₁ ++ c :: l₂).map Cell.data).Perm (c.data :: (l₁ ++ l₂).map Cell.data) := by
  rw [← List.map_cons]
  exact List.perm_middle.map Cell.data

theorem DataOf.insert (h : DataOf datas (l₁ ++ l₂)) (hd : datas.lookup c.data = none) :
    DataOf (datas.insert c.data c.seg.data) (l₁ ++ c :: l₂) := by
  have hne : ∀ x ∈ l₁ ++ l₂, x.data ≠ c.data := by
    intro x hx heq
    have hlookup := h.lookup x hx
    rw [heq, hd] at hlookup
    cases hlookup
  constructor
  · intro x hx
    have hx : x = c ∨ x ∈ l₁ ++ l₂ := by
      simp only [List.mem_append, List.mem_cons] at hx ⊢
      tauto
    rcases hx with rfl | hx
    · exact AList.lookup_insert _
    · rw [AList.lookup_insert_ne (hne x hx), h.lookup x hx]
  · rw [data_perm.nodup_iff, List.nodup_cons]
    refine ⟨fun hmem => ?_, h.apart⟩
    obtain ⟨x, hx, heq⟩ := List.mem_map.1 hmem
    exact hne x hx heq
  · intro d hd'
    by_cases heq : d = c.data
    · simp [heq]
    · rw [AList.lookup_insert_ne heq] at hd'
      have hmem := h.owned d hd'
      simp only [List.map_append, List.map_cons, List.mem_append, List.mem_cons] at hmem ⊢
      tauto

theorem DataOf.erase (h : DataOf datas (l₁ ++ c :: l₂)) : DataOf (datas.erase c.data) (l₁ ++ l₂) := by
  have hnd := h.apart
  rw [data_perm.nodup_iff, List.nodup_cons] at hnd
  refine ⟨fun x hx => ?_, hnd.2, fun d hd => ?_⟩
  · have hne : x.data ≠ c.data := by
      intro heq
      exact hnd.1 (heq ▸ List.mem_map_of_mem hx)
    rw [AList.lookup_erase_ne hne]
    refine h.lookup x ?_
    simp only [List.mem_append, List.mem_cons] at hx ⊢
    tauto
  · by_cases heq : d = c.data
    · rw [heq, AList.lookup_erase] at hd
      exact absurd rfl hd
    · rw [AList.lookup_erase_ne heq] at hd
      have hmem := data_perm.mem_iff.1 (h.owned d hd)
      exact (List.mem_cons.1 hmem).resolve_left heq

/-- Other fields of a segment. -/
theorem DataOf.set {q : Segment} (h : DataOf datas (l₁ ++ c :: l₂)) (hq : q.data = c.seg.data) :
    DataOf datas (l₁ ++ { c with seg := q } :: l₂) := by
  refine ⟨fun x hx => ?_, by simpa using h.apart, by simpa using h.owned⟩
  rcases List.mem_append.1 hx with hx | hx
  · exact h.lookup x (List.mem_append_left _ hx)
  · rcases List.mem_cons.1 hx with rfl | hx
    · rw [hq]
      exact h.lookup c (by simp)
    · exact h.lookup x (by simp [hx])

/-! ## `queue_tcp` -/

theorem Blocks.insert_eq (a : Alloc) (h : m.Represents (l₁ ++ l₂)) :
    ∃ m' c, m.insert p a ((l₁.map Cell.block).getLast?.map Prod.fst) ((l₂.map Cell.block).head?.map Prod.fst) =
        some m' ∧ c.seg = p.segment ∧ m'.Represents (l₁ ++ c :: l₂) := by
  let c : Cell := { addr := a.segment.addr m.segments.keys, data := a.data.addr m.datas.keys, seg := p.segment }
  have hlist := h.list
  rw [List.map_append] at hlist
  obtain ⟨segments, forward, hlink, hholds⟩ := hlist.link (v := c.block.2) (a.segment.lookup_none m.segments)
  refine ⟨{ segments, datas := m.datas.insert c.data c.seg.data, forward }, c, ?_, rfl, ?_, ?_⟩
  · have hblock : c.block.2 =
        { seq := p.seq, len := p.data.length, sent := 0, psh := p.psh, data := a.data.addr m.datas.keys } := rfl
    rw [hblock] at hlink
    simp only [Blocks.insert, hlink]
    rfl
  · rw [List.map_append, List.map_cons]
    exact hholds
  · exact h.data.insert (a.data.lookup_none m.datas)

theorem Blocks.replace_eq (a : Alloc) {n : Option Nat} (h : m.Represents (l₁ ++ c :: l₂))
    (hn : m.segments.lookup c.addr = some ⟨c.block.2, n⟩) (hlen : c.seg.len < p.data.length) :
    ∃ m' c', m.replace p a c.addr ⟨c.block.2, n⟩ = some m' ∧ c'.seg = c.seg.replace p ∧
      m'.Represents (l₁ ++ c' :: l₂) := by
  have hlookup := h.data.lookup c (by simp)
  let c' : Cell := { c with data := a.data.addr (m.datas.erase c.data).keys, seg := c.seg.replace p }
  have hseg : c'.seg = { c.seg with data := p.data, len_le := hlen.le } := dif_pos hlen
  refine ⟨{ m with
    segments := m.segments.insert c.addr ⟨c'.block.2, n⟩
    datas := (m.datas.erase c.data).insert c'.data c'.seg.data }, c', ?_, rfl, ?_, ?_⟩
  · simp only [Blocks.replace, Cell.block, hlookup, hseg]
    rfl
  · have hlist := h.list
    rw [List.map_append, List.map_cons] at hlist ⊢
    exact hlist.set hn
  · exact h.data.erase.insert (a.data.lookup_none _)

/-- `queue_tcp`. -/
theorem Blocks.queueTcp_eq (h : m.Represents cells) (remoteSeq : U32) (a : Alloc) :
    ∃ m' cells', m.queueTcp remoteSeq p a = some m' ∧ m'.Represents cells' ∧ cells'.map Cell.seg =
      if compareU32 p.seq remoteSeq < 0 then cells.map Cell.seg else enqueue p (cells.map Cell.seg) := by
  unfold Blocks.queueTcp
  split
  · exact ⟨m, cells, rfl, h, rfl⟩
  · have hlt := h.list.seg.length_lt
    have hseek := seek_eq (fun q => compareU32 q.seq p.seq < 0) none h.list.seg hlt
    have htest : (fun x : Nat × SegmentBlock => decide (compareU32 x.2.seq p.seq < 0)) ∘ Cell.block =
        p.skips ∘ Cell.seg := rfl
    rw [List.takeWhile_map, List.dropWhile_map, htest, Option.or_none] at hseek
    rw [enqueue_eq, List.takeWhile_map, List.dropWhile_map]
    have hsplit := List.takeWhile_append_dropWhile (p := p.skips ∘ Cell.seg) (l := cells)
    have hstop : ∀ c, (cells.dropWhile (p.skips ∘ Cell.seg)).head? = some c → p.skips c.seg = false := by
      intro c hc
      simpa [hc] using List.head?_dropWhile_not (p.skips ∘ Cell.seg) cells
    rw [hseek]
    generalize cells.takeWhile (p.skips ∘ Cell.seg) = l₁ at *
    generalize cells.dropWhile (p.skips ∘ Cell.seg) = l₂ at *
    subst hsplit
    cases l₂ with
    | nil =>
        obtain ⟨m', c, heq, hc, hrep⟩ := Blocks.insert_eq (p := p) a h
        exact ⟨m', _, heq, hrep, by simp [place, hc]⟩
    | cons c l₂ =>
        have hskips := hstop c rfl
        simp only [TcpPkt.skips, decide_eq_false_iff_not, not_lt] at hskips
        have hmem : (c.addr, c.block.2) ∈ (l₁ ++ c :: l₂).map Cell.block := by simp [Cell.block]
        obtain ⟨n, hn⟩ := h.list.seg.lookup hmem
        have hseq : c.block.2.seq = c.seg.seq := rfl
        have haddr : c.block.1 = c.addr := rfl
        simp only [List.map_cons, List.head?_cons, Option.map_some, haddr, hn, hseq]
        split
        · rename_i hgt
          have hne : c.seg.seq ≠ p.seq := by
            intro heq
            rw [compareU32_eq_zero.2 heq] at hgt
            omega
          obtain ⟨m', c', heq, hc, hrep⟩ := Blocks.insert_eq (p := p) a h
          exact ⟨m', _, heq, hrep, by simp [place, hne, hc]⟩
        · rename_i hle
          have heq : c.seg.seq = p.seq := compareU32_eq_zero.1 (by omega)
          simp only [heq, if_true, place]
          have hlen : c.block.2.len = c.seg.len := rfl
          rw [hlen]
          split
          · rename_i hsame
            have hkept : c.seg.replace p = c.seg := dif_neg (by omega)
            exact ⟨m, _, rfl, h, by simp [hkept]⟩
          · split
            · rename_i hsmall
              obtain ⟨m', c', hrepl, hc, hrep⟩ := Blocks.replace_eq a h hn hsmall
              exact ⟨m', _, hrepl, hrep, by simp [hc]⟩
            · rename_i hlarge
              have hkept : c.seg.replace p = c.seg := dif_neg hlarge
              exact ⟨m, _, rfl, h, by simp [hkept]⟩

/-! ## The forward loop -/

theorem offerBlock_eq (dest : BitVec 16) (c : Cell) (heap : Nat → UInt8) :
    offerBlock dest c.block.2 c.seg.data heap = offer dest c.seg heap := rfl

/-- The first segment after `n` more bytes of it. -/
theorem Blocks.advance_eq {n : Nat} {next : Option Nat} (h : m.Represents (c :: cells))
    (hnext : m.segments.lookup c.addr = some ⟨c.block.2, next⟩) (hle : n ≤ c.seg.len - c.seg.sent) :
    ∃ m' cells', m.advance c.addr ⟨c.block.2, next⟩ n = some m' ∧ m'.Represents cells' ∧
      cells'.map Cell.seg = if c.seg.len = c.seg.sent + n then cells.map Cell.seg
        else c.seg.advance n hle :: cells.map Cell.seg := by
  have hlist : Holds m.segments m.forward ([] ++ (c.addr, c.block.2) :: cells.map Cell.block) := h.list
  have hdata : DataOf m.datas ([] ++ c :: cells) := h.data
  have hlookup : m.datas.lookup c.block.2.data = some c.seg.data := h.data.lookup c (by simp)
  have hwhole : c.block.2.len = c.block.2.sent + n ↔ c.seg.len = c.seg.sent + n := Iff.rfl
  by_cases hall : c.seg.len = c.seg.sent + n
  · refine ⟨{ segments := m.segments.erase c.addr, datas := m.datas.erase c.data, forward := next }, cells, ?_,
      ⟨hlist.pop hnext, hdata.erase⟩, (if_pos hall).symm⟩
    simp only [Blocks.advance, hwhole.2 hall, if_true, hlookup]
    rfl
  · let c' : Cell := { c with seg := c.seg.advance n hle }
    refine ⟨{ m with segments := m.segments.insert c.addr ⟨c'.block.2, next⟩ }, c' :: cells, ?_,
      ⟨hlist.set hnext, hdata.set rfl⟩, (if_neg hall).symm⟩
    simp only [Blocks.advance, mt hwhole.1 hall, if_false]
    rfl

/-- The forward loop makes the same calls, and leaves the same queue. -/
theorem Blocks.forwardLoop_eq (e : SocketEnv) (round : Nat) (bufferSize : U32) (fwd : Bool) (s : TcpSession)
    (forward : List Segment) {queue : List Segment} {rounds : Nat} (h : m.Represents cells)
    (hq : cells.map Cell.seg = queue) (hk : queue.length < rounds) :
    ∃ m' s' cells', m.forwardLoop e rounds round bufferSize fwd s =
        some (m', s', (Native.forwardLoop e queue round bufferSize fwd { s with forward }).2) ∧
      m'.Represents cells' ∧ (Native.forwardLoop e queue round bufferSize fwd { s with forward }).1 =
        { s' with forward := cells'.map Cell.seg } := by
  induction queue generalizing m cells rounds round bufferSize fwd forward s with
  | nil =>
      rw [List.map_eq_nil_iff] at hq
      subst hq
      have hnull : m.forward = none := h.list.seg.head
      cases rounds with
      | zero => cases hk
      | succ rounds =>
          refine ⟨m, s, [], ?_, h, rfl⟩
          simp only [Blocks.forwardLoop, hnull, Native.forwardLoop]
  | cons q queue ih =>
      obtain ⟨c, cells, rfl, rfl, rfl⟩ := List.map_eq_cons_iff.1 hq
      cases rounds with
      | zero => cases hk
      | succ rounds =>
          have hk : (cells.map Cell.seg).length < rounds := Nat.lt_of_succ_lt_succ hk
          have hhead : m.forward = some c.addr := h.list.seg.head
          obtain ⟨next, hnext⟩ := h.list.seg.lookup (a := c.addr) (v := c.block.2) (by simp [Cell.block])
          have hlookup : m.datas.lookup c.block.2.data = some c.seg.data := h.data.lookup c (by simp)
          have hlen : ¬c.seg.data.length < c.block.2.len := Nat.not_lt.2 c.seg.len_le
          have hpos : c.block.2.pos = c.seg.pos := rfl
          have hleft : c.block.2.left = c.seg.left := rfl
          simp only [Blocks.forwardLoop, hhead, hnext, hpos, hleft]
          by_cases hg : c.seg.pos = s.remoteSeq ∧ c.seg.left < bufferSize
          · simp only [hg, and_self, if_true, hlookup, hlen, if_false, offerBlock_eq]
            cases hoffer : offer s.dest c.seg (e.heap round) with
            | none =>
                rw [forwardLoop_fault (s := { s with forward }) hg hoffer]
                exact ⟨m, { s with io := s.io ++ [.fault] }, c :: cells, rfl, h, rfl⟩
            | some data =>
                obtain ⟨n, hn, hle⟩ := clampSent_eq (e.send round data) c.seg s.socket
                have hsent : clampSent (onSocket s.socket (e.send round data).ret)
                    (c.block.2.len - c.block.2.sent) = n := hn
                have hneg : ¬(n : Int) < 0 := by omega
                have hwhole : c.block.2.len = c.block.2.sent + n ↔ c.seg.len = c.seg.sent + n := Iff.rfl
                obtain ⟨m', cells', hadvance, hrep, hcells⟩ := Blocks.advance_eq h hnext hle
                rw [forwardLoop_send (s := { s with forward }) hg hoffer hn hle]
                simp only [hsent, hneg, if_false, Int.toNat_natCast, hadvance, hwhole]
                split
                · rename_i hall
                  rw [if_pos hall] at hcells
                  exact ih (round + 1) _ true _ _ hrep hcells hk
                · rename_i hpart
                  rw [if_neg hpart] at hcells
                  exact ⟨m', _, cells', rfl, hrep, by rw [hcells]; rfl⟩
          · rw [if_neg hg, forwardLoop_stop (s := { s with forward }) hg]
            exact ⟨m, s, c :: cells, rfl, h, rfl⟩

/-! ## What reads the queue, and what frees it -/

theorem Blocks.getReceiveWindow_eq (h : m.Represents cells) (hq : s.forward = cells.map Cell.seg) (b : SockBuf) :
    m.getReceiveWindow s b = some (Native.getReceiveWindow s b) := by
  have hfold := fold_eq (f := fun n q => n + SegmentBlock.left q) (x := 0) h.list.seg h.list.seg.length_lt
  rw [List.foldl_map] at hfold
  have hleft : ∀ c : Cell, c.block.2.left = c.seg.left := fun _ => rfl
  simp only [hleft] at hfold
  simp only [Blocks.getReceiveWindow, hfold, Native.getReceiveWindow, hq, List.foldl_map]

theorem Blocks.getReceiveWindow_some (h : m.Represents cells) (s : TcpSession) (b : SockBuf) :
    ∃ window, m.getReceiveWindow s b = some window :=
  ⟨_, Blocks.getReceiveWindow_eq (s := { s with forward := cells.map Cell.seg }) h rfl b⟩

theorem Blocks.canForward_eq (h : m.Represents cells) (hq : s.forward = cells.map Cell.seg) (b : SockBuf) :
    m.canForward s b = some (Native.canForward s b) := by
  cases cells with
  | nil =>
      have hnull : m.forward = none := h.list.seg.head
      simp [Blocks.canForward, hnull, Native.canForward, hq]
  | cons c cells =>
      have hhead : m.forward = some c.addr := h.list.seg.head
      obtain ⟨next, hnext⟩ := h.list.seg.lookup (a := c.addr) (v := c.block.2) (by simp [Cell.block])
      have hpos : c.block.2.pos = c.seg.pos := rfl
      have hleft : c.block.2.left = c.seg.left := rfl
      simp [Blocks.canForward, hhead, hnext, hpos, hleft, Native.canForward, hq]

theorem freeData_eq (h : DataOf datas cells) : ∃ datas',
    (cells.map Cell.block).foldlM (fun x y => freeData x y.2) datas = some datas' ∧ DataOf datas' [] := by
  induction cells generalizing datas with
  | nil => exact ⟨datas, rfl, h⟩
  | cons c cells ih =>
      have hlookup : datas.lookup c.block.2.data = some c.seg.data := h.lookup c (by simp)
      have h : DataOf datas ([] ++ c :: cells) := h
      obtain ⟨datas', heq, hd⟩ := ih h.erase
      refine ⟨datas', ?_, hd⟩
      simp only [List.map_cons, List.foldlM_cons, freeData, hlookup, Option.bind_eq_bind, Option.bind_some]
      exact heq

/-- `clear_tcp_data` frees each block once, and all of them. -/
theorem Blocks.clearTcpData_eq (h : m.Represents cells) :
    ∃ m', m.clearTcpData = some m' ∧ m'.segments.keys = [] ∧ m'.datas.keys = [] := by
  obtain ⟨datas, hdatas, hd⟩ := freeData_eq h.data
  obtain ⟨segments, hfree, hholds⟩ := freeEach_eq h.list h.list.seg.length_lt hdatas
  refine ⟨{ m with segments, datas }, by simp only [Blocks.clearTcpData, hfree], ?_, ?_⟩
  · refine List.eq_nil_iff_forall_not_mem.2 fun a ha => ?_
    have hmem := hholds.owned a (by rwa [Ne, AList.lookup_eq_none, not_not])
    cases hmem
  · refine List.eq_nil_iff_forall_not_mem.2 fun a ha => ?_
    have hmem := hd.owned a (by rwa [Ne, AList.lookup_eq_none, not_not])
    cases hmem

theorem Blocks.ofSyn_eq (p : TcpPkt) (a : Alloc) : ∃ m cells, Blocks.ofSyn p a = some m ∧ m.Represents cells ∧
    cells.map Cell.seg = if p.data ≠ [] then [p.segment] else [] := by
  have hempty : Blocks.Represents { segments := ∅, datas := ∅, forward := none } ([] ++ []) := ⟨.empty, .nil⟩
  unfold Blocks.ofSyn
  split
  · obtain ⟨m, c, heq, hc, hrep⟩ := Blocks.insert_eq (p := p) a hempty
    exact ⟨m, [c], heq, hrep, by rw [List.map_singleton, hc]⟩
  · exact ⟨_, [], rfl, hempty, rfl⟩

/-! ## The queue after a call -/

variable {op : TcpOp} {old s' : TcpSession} {ph ph' : Phase}

/-- The only changes of the queue. -/
theorem Move.forward (hm : Move old op (ph, s) (ph', s')) : s'.forward = s.forward ∨
    (∃ p e, op = .packet p e ∧ p.Queues old) ∨ ∃ e, op = .socket e := by
  cases hm with
  | rst ok hl => exact .inl (by rw [writeRst_eq])
  | early hop hu hd hn hq => exact .inr (.inl ⟨_, _, hop, hq.1⟩)
  | queue hop ht hdata hs hw hq => exact .inr (.inl ⟨_, _, hop, hq.1⟩)
  | send hop ho hs hf hpos hdata hn hle => exact .inr (.inr ⟨_, hop⟩)
  | _ => exact .inl rfl

/-- A call that neither queues data nor has an event of the socket. -/
theorem tcpStep_forward_of_quiet (hp : ∀ p e, op = .packet p e → ¬p.Queues s) (hs : ∀ e, op ≠ .socket e) :
    (tcpStep s op).forward = s.forward := by
  have hmove : ∀ x y : Phase × TcpSession, x.2.forward = s.forward → Move s op x y → y.2.forward = s.forward := by
    intro x y hx hm
    rcases hm.forward with heq | ⟨p, e, hop, hq⟩ | ⟨e, hop⟩
    · exact heq.trans hx
    · exact absurd hq (hp p e hop)
    · exact absurd hop (hs e)
  obtain ⟨ph, h⟩ := tcpStep_invariant op (s := s) (I := fun x => x.2.forward = s.forward) rfl hmove
  exact h

theorem handleFlags_forward (s : TcpSession) (p : TcpPkt) (e : HandleEnv) :
    (handleFlags s p e).forward = s.forward := by
  unfold handleFlags
  split
  · rfl
  · split
    · split
      · rfl
      · split
        · unfold handleFin
          split
          · split
            · dsimp only
              rw [writeAck, writeOrClose_eq]
              split <;> rfl
            · rfl
          · dsimp only
            rw [writeAck, writeOrClose_eq]
            split <;> rfl
          · rfl
        · split
          · unfold handleAck
            dsimp only
            split <;> rfl
          · rfl
    · unfold handleOtherAck
      split
      · rfl
      · split
        · split <;> rfl
        · rw [writeRst_eq]

/-- The queue after a packet that brings data to `queue_tcp`. -/
theorem handleTcp_forward (e : HandleEnv) (hq : p.Queues s) :
    (handleTcp s p e).forward = if compareU32 p.seq (seqAtQueue s p e) < 0 then s.forward else enqueue p s.forward := by
  obtain ⟨hb, hu, hq⟩ := hq
  unfold handleTcp
  simp only [hu, Bool.false_eq_true, if_false]
  by_cases hc : p.dest = 443 ∧ s.connectSent ≠ .established
  · have hne : (connect443 s p e).connectSent ≠ .established := fun heq => hc.2 (connect443_established heq).2
    simp only [hc.1, if_true, hne, ne_eq, not_false_eq_true, and_self, queueTcp_eq, connect443_forward,
      connect443_remoteSeq hc.1]
  · rw [if_neg hc] at hq
    obtain ⟨hdata, hs, hw, hcl, hc'⟩ := hq
    have hopen : ∀ t : TcpSession, t.forward = s.forward → t.remoteSeq = seqAtQueue s p e → t.state = s.state →
        t.socket = s.socket → (handleOpen t p e).forward =
          if compareU32 p.seq (seqAtQueue s p e) < 0 then s.forward else enqueue p s.forward := by
      intro t hf hr hstate hsocket
      have hneg : ¬t.socket < 0 := by omega
      simp only [handleOpen, hstate, hcl, hc', or_self, if_false, hdata, ne_eq, not_false_eq_true, if_true, hneg, hw,
        handleFlags_forward, queueTcp_eq, hf, hr]
    by_cases hp : p.dest = 443
    · have hs' : s.connectSent = .established := by
        by_contra hne
        exact hc ⟨hp, hne⟩
      have hseq : seqAtQueue s p e = s.remoteSeq := by simp [seqAtQueue, hs']
      have hconn : connect443 s p e = { s with hostname := serverName s p e } := by simp [connect443, hs']
      simp only [hp, if_true, hconn, hs', ne_eq, not_true_eq_false, and_false, if_false]
      exact hopen _ rfl hseq.symm rfl rfl
    · have hseq : seqAtQueue s p e = s.remoteSeq := if_neg fun h => hp h.1
      simp only [hp, if_false, false_and]
      exact hopen s rfl hseq.symm rfl rfl

theorem acknowledge_forward (s : TcpSession) (e : SocketEnv) (fwd : Bool) :
    (acknowledge s e fwd).forward = s.forward := by
  unfold acknowledge
  dsimp only
  split
  · split <;> split <;> simp [writeAck, writeOrClose_eq]
  · rfl

theorem readEof_forward (s : TcpSession) (e : SocketEnv) : (readEof s e).forward = s.forward := by
  unfold readEof
  dsimp only
  split
  · rw [writeFinAck, writeOrClose_eq]
    cases e.readOk <;> dsimp only [if_true, Bool.false_eq_true, if_false] <;> split <;> rfl
  · rw [writeRst_eq]

theorem readSocket_forward (s : TcpSession) (e : SocketEnv) : (readSocket s e).forward = s.forward := by
  unfold readSocket
  dsimp only
  split
  · split
    · split
      · rw [writeRst_eq]
      · rfl
    · exact readEof_forward _ _
    · split <;> simp [writeData, writeOrClose_eq]
  · rfl

theorem checkListen_forward (s : TcpSession) (e : SocketEnv) : (checkListen s e).forward = s.forward := by
  unfold checkListen
  split
  · split
    · rw [writeRst_eq]
    · dsimp only
      split
      · split
        · rfl
        · rw [writeRst_eq]
      · rfl
  · dsimp only
    split <;> rw [writeSynAck, writeOrClose_eq]

theorem afterForward_forward (s : TcpSession) (e : SocketEnv) (fwd : Bool) :
    (let s := acknowledge s e fwd
      if s.state = .established ∨ s.state = .closeWait then readSocket s e else s).forward = s.forward := by
  dsimp only
  split
  · rw [readSocket_forward, acknowledge_forward]
  · exact acknowledge_forward s e fwd

/-- The queue after an event: only the forward loop changes it. -/
theorem checkTcpSocket_forward {e : SocketEnv} (he : e.ev.err = false) (hl : s.state ≠ .listen) :
    (checkTcpSocket s e).forward = if e.ev.out then (forwardData s e).1.forward else s.forward := by
  simp only [checkTcpSocket, he, hl, Bool.false_eq_true, if_false]
  cases e.ev.out with
  | false => exact afterForward_forward s e false
  | true =>
      cases hloop : forwardData s e with
      | mk s' fwd =>
          cases fwd with
          | none => rfl
          | some fwd => exact afterForward_forward s' e fwd

end TunProxy.Native
