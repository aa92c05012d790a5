import TunProxy.Lib.Run
import TunProxy.Native.Lemmas.Memory
import TunProxy.Native.Loop
import TunProxy.Native.Theorems.Dispatch

/-!
# The loop is made of calls of the handlers

Every step of the event loop changes the list of sessions by the steps of `ngStep`, on packets `handle_ip` found in the
tun. What holds in every run of these holds in every run of the loop.
-/

namespace TunProxy.Native

open Lib

variable {mem : Nat → UInt8} {length : Nat} {loglevel : Int} {w : World} {l : Loop}

/-- The addresses are those of IPv4 or IPv6. -/
def Sized (version : Nat) (saddr daddr : Bytes) : Prop :=
  (version = 4 ∨ version = 6) ∧ saddr.length = addrLen version ∧ daddr.length = addrLen version

/-- A step of `handle_events`: its packets come from `handle_ip`, and nothing calls `block_udp`. -/
def NgOp.FromTun : NgOp → Prop
  | .icmp p _ => Sized p.version p.saddr p.daddr
  | .udp p _ => Sized p.version p.saddr p.daddr
  | .tcp p _ => Sized p.version p.saddr p.daddr
  | .block _ _ _ => False
  | .event _ _ | .monitor _ | .sweep _ | .allowed _ => True

theorem sized_of_version (hv : ipVersion mem = 4 ∨ ipVersion mem = 6) :
    Sized (ipVersion mem) (srcAddr mem) (dstAddr mem) := by
  refine ⟨hv, ?_, ?_⟩
  · rcases hv with hv | hv <;> simp [srcAddr, hv, addrLen]
  · rcases hv with hv | hv <;> simp [dstAddr, hv, addrLen]

/-- The call of a handler by `handle_ip` as a step. -/
def IpPkt.op (e : IpEnv) : IpPkt → NgOp
  | .icmp p => .icmp p e.icmp
  | .udp p behind => .udp p { e.udp with behind }
  | .tcp p heap => .tcp p { e.tcp with heap }

theorem handle_eq (w : World) (e : IpEnv) (p : IpPkt) : w.handle e p = ngStep w (p.op e) := by cases p <;> rfl

theorem ipPkt_fromTun {p : IpPkt} (e : IpEnv) (h : ipPkt mem length loglevel = some p) : (p.op e).FromTun := by
  unfold ipPkt at h
  split at h
  · cases h
  · rename_i hd
    have hs := sized_of_version (dispatch_version hd)
    split at h
    · cases h
      exact hs
    · split at h
      · cases h
        exact hs
      · cases h
        exact hs

/-- The steps of a run of the loop, on the list of sessions. -/
abbrev WorldRun (w : World) (ops : List NgOp) (w' : World) : Prop := Run ngStep (fun _ op => op.FromTun) w ops w'

theorem handleIp_run {a : IpArgs} {e : IpEnv} : ∃ ops, WorldRun w ops (w.handleIp mem length a e) := by
  unfold World.handleIp
  split
  · exact ⟨[], .nil⟩
  · rename_i p hp
    split
    · exact ⟨[], .nil⟩
    · rw [handle_eq]
      exact ⟨[] ++ [p.op e], .snoc .nil (ipPkt_fromTun e hp)⟩

theorem loopStep_run (l : Loop) (op : LoopOp) : ∃ ops, WorldRun l.world ops (loopStep l op).world := by
  cases op with
  | start rlimCur writeOk => exact ⟨[] ++ [.allowed writeOk], .snoc .nil trivial⟩
  | round e =>
      have hm : WorldRun l.world ([] ++ [.monitor e.monitor]) (l.world.monitor e.monitor) := .snoc .nil trivial
      simp only [loopStep, Loop.round]
      split
      · exact ⟨_, hm.snoc (show NgOp.FromTun (.sweep _) from trivial)⟩
      · exact ⟨_, hm⟩
  | tun pkt heap loglevel fwd53 e =>
      simp only [loopStep, Loop.checkTun]
      split
      · exact ⟨[], .nil⟩
      · exact handleIp_run
  | downstream i e =>
      simp only [loopStep, Loop.downstream]
      split
      · exact ⟨[], .nil⟩
      · split
        · exact ⟨[] ++ [.event i e], .snoc .nil trivial⟩
        · exact ⟨[], .nil⟩

/-- The list of sessions in a run of the loop is the result of a run of the handlers. -/
theorem loop_run {ok : Loop → LoopOp → Prop} {ops : List LoopOp} (h : Run loopStep ok Loop.init ops l) :
    ∃ ngOps, WorldRun World.init ngOps l.world := by
  induction h with
  | nil => exact ⟨[], .nil⟩
  | @snoc is l op _ _ ih =>
      obtain ⟨ngOps, hrun⟩ := ih
      obtain ⟨more, hstep⟩ := loopStep_run l op
      exact ⟨ngOps ++ more, hrun.append hstep⟩

end TunProxy.Native
