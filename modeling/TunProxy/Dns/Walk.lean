import TunProxy.Lib.Bytes
import TunProxy.Native.Types

/-!
# Walking through the names of a message

Where the loops of `ReadDomain` go in a byte string that need not be a message, and when they look at a byte behind
its end: the buffer for the target of a pointer is longer than the message.
-/

namespace TunProxy.Dns

open Native (Bytes)
open Lib.Bytes

/-- Where the loop is: its position and the end of its buffer, counted from the start of the message, and the limit
that the buffer answers. -/
structure Cursor where
  pos : Nat
  stop : Nat
  limit : Nat
  deriving DecidableEq, Repr

/-- What a round of the loop leads to. -/
inductive Round
  | ends (pos : Nat)
  | label (pos : Nat)
  | pointer (target : Cursor)
  | throws
  | strays
  deriving DecidableEq, Repr

/-- The message `m` lies at `off` of an array of `cap` bytes. -/
def round (m : Bytes) (off cap : Nat) (c : Cursor) : Round :=
  if c.stop ≤ c.pos then .ends c.pos
  else match m[c.pos]? with
  | none => .strays
  | some len =>
      if len = 0 then .ends (c.pos + 1)
      else if 192 ≤ len.toNat then
        if c.stop ≤ c.pos + 1 then .throws
        else match m[c.pos + 1]? with
        | none => .strays
        | some low =>
            let target := low.toNat + len.toNat % 64 * 256
            if off + target + (off + c.limit) ≤ cap then
              .pointer { pos := target, stop := target + (off + c.limit), limit := off + target + (off + c.limit) }
            else .throws
      else
        let next := min (c.pos + 1 + len.toNat) c.stop
        if next ≤ m.length then .label next else .strays

section

variable (m : Bytes) (off cap : Nat)

/-- The name is read without a look behind the message, and the buffer is at `pos` then. -/
inductive Ends : Cursor → Nat → Prop
  | ends {c : Cursor} {pos : Nat} : round m off cap c = .ends pos → Ends c pos
  | label {c : Cursor} {next pos : Nat} : round m off cap c = .label next → Ends { c with pos := next } pos → Ends c pos
  | pointer {c c' : Cursor} {pos : Nat} : round m off cap c = .pointer c' → Ends c' pos → Ends c (c.pos + 2)

/-- The name leads to a byte behind the message. -/
inductive Strays : Cursor → Prop
  | strays {c : Cursor} : round m off cap c = .strays → Strays c
  | label {c : Cursor} {next : Nat} : round m off cap c = .label next → Strays { c with pos := next } → Strays c
  | pointer {c c' : Cursor} : round m off cap c = .pointer c' → Strays c' → Strays c

/-- The beginning of a name in the buffer of the packet. -/
def Cursor.start (pos : Nat) : Cursor where
  pos := pos
  stop := m.length
  limit := m.length

/-- Where a question ends whose name ends at `k`, if it is complete. -/
def questionEnd (k : Nat) : Option Nat := if k + 4 ≤ m.length then some (k + 4) else none

def resourceEnd (k : Nat) : Option Nat :=
  let stop := k + 10 + ofBE (slice (k + 8) 2 m)
  if stop ≤ m.length then some stop else none

/-- One of the records from `pos` on has a name that strays, and those before it are read. A record is given by where
it ends. -/
inductive RecordsStray : List (Nat → Option Nat) → Nat → Prop
  | here {f : Nat → Option Nat} {fs : List (Nat → Option Nat)} {pos : Nat} : Strays m off cap (.start m pos) →
      RecordsStray (f :: fs) pos
  | later {f : Nat → Option Nat} {fs : List (Nat → Option Nat)} {pos k stop : Nat} : Ends m off cap (.start m pos) k →
      f k = some stop → RecordsStray fs stop → RecordsStray (f :: fs) pos

/-- The number at the position `i` of the header. -/
def count (i : Nat) : Nat := ofBE (slice i 2 m)

/-- The decoder gets to the records. -/
structure Counted : Prop where
  length_ge : 12 ≤ m.length
  length_le : m.length ≤ 512
  questions : count m 4 ≤ 2
  resources : count m 6 ≤ 50
  aResources : count m 8 ≤ 50
  eResources : count m 10 ≤ 50

/-- The decoder comes to a byte behind the message. -/
def MessageStrays : Prop :=
  Counted m ∧ RecordsStray m off cap (List.replicate (count m 4) (questionEnd m) ++
    (List.replicate (count m 6) (resourceEnd m) ++ (List.replicate (count m 8) (resourceEnd m) ++
      List.replicate (count m 10) (resourceEnd m)))) 12

end

end TunProxy.Dns
