import TunProxy.Lib.Bytes
import TunProxy.Native.Types

/-!
# DNS messages

The format of RFC 1035: which byte strings are messages, and what they say. A name is the tree of its encoding,
with the pointers of the compression.
-/

namespace TunProxy.Dns

open Native (Bytes)
open Lib.Bytes

/-! ## Names -/

inductive Name
  | root
  | label (bytes : Bytes) (rest : Name)
  /-- The rest of the name is the one at the position `target`. -/
  | pointer (target : Nat) (rest : Name)
  deriving DecidableEq, Repr

namespace Name

def labels : Name → List Bytes
  | root => []
  | label bytes rest => bytes :: rest.labels
  | pointer _ rest => rest.labels

def chars (bytes : Bytes) : List Char := bytes.map fun x => Char.ofNat x.toNat

/-- The labels, joined by dots. -/
def text (n : Name) : List Char := ['.'].intercalate (n.labels.map chars)

/-- The positions that the pointers lead to, one after the other. -/
def targets : Name → List Nat
  | root => []
  | label _ rest => rest.targets
  | pointer target rest => target :: rest.targets

/-- No label lies behind the last pointer. -/
def endsByPointer : Name → Bool
  | root => false
  | label _ rest => rest.endsByPointer
  | pointer _ rest => rest.labels.isEmpty || rest.endsByPointer

/-- A bound on the length of a buffer in which every pointer can be followed: the buffer for a target has the sum of
the offsets of the message and of the target and the length of the buffer before it as its limit. -/
def reach (offset : Nat) : Name → Nat
  | root => 0
  | label _ rest => rest.reach offset
  | pointer target rest => 2 * offset + target + rest.reach offset

end Name

/-- The name `n` is encoded in the message `m` from `pos` to `stop`. Pointers lead to a position before `start`, where
the sequence of labels begins that the pointer ends. -/
inductive NameAt (m : Bytes) : Nat → Nat → Name → Nat → Prop
  | root {start pos : Nat} : m[pos]? = some 0 → NameAt m start pos .root (pos + 1)
  | label {start pos stop : Nat} {bytes : Bytes} {rest : Name} : 1 ≤ bytes.length → bytes.length ≤ 63 →
      (∀ x ∈ bytes, x < 128) → m[pos]? = some (.ofNat bytes.length) → pos + 1 + bytes.length ≤ m.length →
      slice (pos + 1) bytes.length m = bytes → NameAt m start (pos + 1 + bytes.length) rest stop →
      NameAt m start pos (.label bytes rest) stop
  | pointer {start pos target stop : Nat} {rest : Name} : target < start → target < 2 ^ 14 →
      m[pos]? = some (.ofNat (192 + target / 256)) → m[pos + 1]? = some (.ofNat (target % 256)) →
      NameAt m target target rest stop → NameAt m start pos (.pointer target rest) (pos + 2)

/-! ## Records -/

structure QuestionRecord where
  name : Name
  type : BitVec 16
  cls : BitVec 16
  deriving DecidableEq, Repr

structure ResourceRecord where
  name : Name
  type : BitVec 16
  cls : BitVec 16
  ttl : BitVec 32
  data : Bytes
  deriving DecidableEq, Repr

/-- The fields behind the name. -/
def QuestionRecord.fields (q : QuestionRecord) : Bytes := toBE 2 q.type.toNat ++ toBE 2 q.cls.toNat

/-- The fields behind the name, before the data. -/
def ResourceRecord.fields (r : ResourceRecord) : Bytes :=
  toBE 2 r.type.toNat ++ toBE 2 r.cls.toNat ++ toBE 4 r.ttl.toNat ++ toBE 2 r.data.length

def QuestionAt (m : Bytes) (pos : Nat) (q : QuestionRecord) (stop : Nat) : Prop :=
  ∃ k, NameAt m pos pos q.name k ∧ BytesAt m k q.fields ∧ stop = k + 4

def ResourceAt (m : Bytes) (pos : Nat) (r : ResourceRecord) (stop : Nat) : Prop :=
  ∃ k, NameAt m pos pos r.name k ∧ BytesAt m k (r.fields ++ r.data) ∧ r.data.length < 2 ^ 16 ∧
    stop = k + 10 + r.data.length

/-- The records of a section follow each other. -/
inductive SectionAt {α : Type} (recordAt : Nat → α → Nat → Prop) : Nat → List α → Nat → Prop
  | nil {pos : Nat} : SectionAt recordAt pos [] pos
  | cons {pos mid stop : Nat} {x : α} {xs : List α} : recordAt pos x mid → SectionAt recordAt mid xs stop →
      SectionAt recordAt pos (x :: xs) stop

/-! ## Messages -/

structure Message where
  id : BitVec 16
  flags : BitVec 16
  questions : List QuestionRecord
  answers : List ResourceRecord
  authorities : List ResourceRecord
  additionals : List ResourceRecord
  deriving DecidableEq, Repr

namespace Message

def header (msg : Message) : Bytes :=
  toBE 2 msg.id.toNat ++ toBE 2 msg.flags.toNat ++ toBE 2 msg.questions.length ++ toBE 2 msg.answers.length
    ++ toBE 2 msg.authorities.length ++ toBE 2 msg.additionals.length

def names (msg : Message) : List Name :=
  msg.questions.map (·.name) ++ msg.answers.map (·.name) ++ msg.authorities.map (·.name) ++ msg.additionals.map (·.name)

theorem mem_names {msg : Message} {name : Name} :
    name ∈ msg.names ↔ (∃ q ∈ msg.questions, q.name = name) ∨ (∃ r ∈ msg.answers, r.name = name) ∨
      (∃ r ∈ msg.authorities, r.name = name) ∨ ∃ r ∈ msg.additionals, r.name = name := by
  simp [names]

/-- The byte string `m` is the message `msg`: of the size of a datagram, with no more records than the decoder
takes. -/
structure Encodes (m : Bytes) (msg : Message) : Prop where
  length_le : m.length ≤ 512
  questions_le : msg.questions.length ≤ 2
  answers_le : msg.answers.length ≤ 50
  authorities_le : msg.authorities.length ≤ 50
  additionals_le : msg.additionals.length ≤ 50
  header : BytesAt m 0 msg.header
  sections : ∃ p₁ p₂ p₃, SectionAt (QuestionAt m) 12 msg.questions p₁ ∧ SectionAt (ResourceAt m) p₁ msg.answers p₂ ∧
    SectionAt (ResourceAt m) p₂ msg.authorities p₃ ∧ SectionAt (ResourceAt m) p₃ msg.additionals m.length

end Message

end TunProxy.Dns
