import TunProxy.Lib.Bytes
import TunProxy.Lib.Loop
import TunProxy.Native.Http

/-!
# DNS messages (`dns.c`)

The code reads a message through a pointer and does not always stop at its end, so it is a memory `data` here, and the
message is the first `datalen` bytes of it.
-/

namespace TunProxy.Native

open Lib.Bytes Lib.Loop

/-! ## Fields -/

/-- The `len` bytes at `pos`. -/
def bytesAt (mem : Nat → UInt8) (pos len : Nat) : Bytes := (List.range len).map fun i => mem (pos + i)

/-- `ntohs` of the field at `pos`. -/
def ntohs (mem : Nat → UInt8) (pos : Nat) : BitVec 16 := BitVec.ofNat 16 (ofBE (bytesAt mem pos 2))

/-- `ntohl` of the field at `pos`. -/
def ntohl (mem : Nat → UInt8) (pos : Nat) : U32 := BitVec.ofNat 32 (ofBE (bytesAt mem pos 4))

def DNS_QNAME_MAX : Nat := 255

/-- `sizeof(struct dns_header)`. -/
def dnsHeaderSize : Nat := 12

/-! ## Names -/

/-- The variables of `get_qname`, with the buffer that it writes. `len` is the byte at `ptr`; `c` says that a pointer
was followed. -/
structure QnameState where
  ptr : Nat
  len : UInt8
  off : Nat
  c : Bool := false
  noff : Nat := 0
  qname : Nat → UInt8

section Qname

variable (data : Nat → UInt8) (datalen : Nat)

/-- `memcpy(dest + off, src + pos, len)`. -/
def memcpy (dest src : Nat → UInt8) (off pos len : Nat) (i : Nat) : UInt8 :=
  if off ≤ i ∧ i < off + len then src (pos + (i - off)) else dest i

/-- The place that a compression pointer leads to. -/
def pointerTarget (s : QnameState) : Nat := (s.len &&& 0x3F).toNat * 256 + (data (s.ptr + 1)).toNat

/-- The test of a label. -/
def labelFits (s : QnameState) : Prop := s.ptr + 1 + s.len.toNat ≤ datalen ∧ s.noff + s.len.toNat ≤ DNS_QNAME_MAX

instance labelFits_decidable (s : QnameState) : Decidable (labelFits datalen s) := inferInstanceAs (Decidable (_ ∧ _))

/-- One round of the loop. -/
def qnameStep (s : QnameState) : QnameState ⊕ QnameState :=
  if s.len = 0 then .inr s
  else if s.len &&& 0xC0 ≠ 0 then
    let ptr := pointerTarget data s
    .inl { s with ptr, len := data ptr, c := true, off := if s.c then s.off else (s.off + 2) % 2 ^ 16 }
  else if labelFits datalen s then
    let ptr := (s.ptr + (s.len.toNat + 1)) % 2 ^ 16
    .inl { s with
      ptr
      len := data ptr
      noff := (s.noff + (s.len.toNat + 1)) % 2 ^ 8
      qname := Function.update (memcpy s.qname data s.noff (s.ptr + 1) s.len.toNat) (s.noff + s.len.toNat) 46 }
  else .inr s

/-- What the round reads in the message. -/
def qnameReads (s : QnameState) : List Nat :=
  if s.len = 0 then []
  else if s.len &&& 0xC0 ≠ 0 then [s.ptr + 1, pointerTarget data s]
  else if labelFits datalen s then
    (List.range s.len.toNat).map (s.ptr + 1 + ·) ++ [(s.ptr + (s.len.toNat + 1)) % 2 ^ 16]
  else []

/-- Where the round writes in the buffer. -/
def qnameWrites (s : QnameState) : List Nat :=
  if s.len = 0 then []
  else if s.len &&& 0xC0 ≠ 0 then []
  else if labelFits datalen s then (List.range (s.len.toNat + 1)).map (s.noff + ·)
  else []

def qnameStart (off : Nat) (qname : Nat → UInt8) : QnameState :=
  { ptr := off, len := data off, off, qname := Function.update qname 0 0 }

/-- `get_qname`, where `rounds` rounds of its loop are enough: the offset, or `none` for -1; and the buffer. -/
def getQname (rounds off : Nat) (qname : Nat → UInt8) : Option (Option Nat × (Nat → UInt8)) :=
  (runFor (qnameStep data datalen) rounds (qnameStart data off qname)).map fun s =>
    let ptr := (s.ptr + 1) % 2 ^ 16
    if s.len > 0 ∨ s.noff = 0 then (none, s.qname)
    else (some (if s.c then s.off else ptr), Function.update s.qname (s.noff - 1) 0)

/-- More rounds than there are values of `ptr` and `noff`: the code that has not come to the end is in a circle. -/
def QNAME_ROUNDS : Nat := 2 ^ 24 + 1

/-- What `get_qname` reads in the message, in so many rounds. -/
def getQnameReads (rounds off : Nat) (qname : Nat → UInt8) : List Nat :=
  off :: readsFor (qnameStep data datalen) (qnameReads data datalen) rounds (qnameStart data off qname)

/-- Where `get_qname` writes in the buffer, in so many rounds: at last the NUL in the place of a dot. -/
def getQnameWrites (rounds off : Nat) (qname : Nat → UInt8) : List Nat :=
  0 :: readsFor (qnameStep data datalen) (qnameWrites datalen) rounds (qnameStart data off qname) ++
    match runFor (qnameStep data datalen) rounds (qnameStart data off qname) with
    | some s => if s.len > 0 ∨ s.noff = 0 then [] else [s.noff - 1]
    | none => []

end Qname

/-- The C string in a buffer for names. -/
def cString (qname : Nat → UInt8) : Bytes := (bytesAt qname 0 (DNS_QNAME_MAX + 1)).takeWhile (· ≠ 0)

/-! ## Queries -/

structure DnsQuestion where
  qname : Bytes
  qtype : BitVec 16
  qclass : BitVec 16
  deriving DecidableEq

/-- `qr` of the header. -/
def dnsQr (data : Nat → UInt8) : Nat := (data 2).toNat / 128

/-- `opcode` of the header. -/
def dnsOpcode (data : Nat → UInt8) : Nat := (data 2).toNat / 8 % 16

/-- `get_dns_query`: the question, or `none` for -1. -/
def getDnsQuery (data : Nat → UInt8) (datalen rounds : Nat) (qname : Nat → UInt8) : Option (Option DnsQuestion) :=
  if datalen < dnsHeaderSize + 1 then some none
  else if dnsQr data = 0 ∧ dnsOpcode data = 0 ∧ (ntohs data 4).toNat > 0 then
    match getQname data datalen rounds dnsHeaderSize qname with
    | none => none
    | some (none, _) => some none
    | some (some off, qname) =>
        if off > 0 ∧ off + 4 = datalen then
          some (some { qname := cString qname, qtype := ntohs data off, qclass := ntohs data (off + 2) })
        else some none
  else some none

/-! ## Responses -/

/-- An answer as `parse_dns_response` comes across it at `off`; its data begins at `rd`. Of an address, the code makes a
text that it does not use. -/
structure DnsAnswer where
  off : Nat
  name : Bytes
  qtype : BitVec 16
  qclass : BitVec 16
  ttl : U32
  rdlength : BitVec 16
  rd : Nat
  deriving DecidableEq

structure DnsSeen where
  question : Option DnsQuestion := none
  answers : List DnsAnswer := []
  deriving DecidableEq

section Response

variable (data : Nat → UInt8) (datalen rounds : Nat)

/-- The loop over the answers; `count` are left. The buffer `name` is used again for each. -/
def parseAnswers : (count off : Nat) → (name : Nat → UInt8) → Option (List DnsAnswer)
  | 0, _, _ => some []
  | count + 1, off, name =>
      match getQname data datalen rounds (off % 2 ^ 16) name with
      | none => none
      | some (none, _) => some []
      | some (some fields, name) =>
          if fields > 0 ∧ fields + 10 ≤ datalen then
            let answer : DnsAnswer := {
              off
              name := cString name
              qtype := ntohs data fields
              qclass := ntohs data (fields + 2)
              ttl := ntohl data (fields + 4)
              rdlength := ntohs data (fields + 8)
              rd := fields + 10 }
            if fields + 10 + answer.rdlength.toNat ≤ datalen then
              (parseAnswers count (fields + 10 + answer.rdlength.toNat) name).map (answer :: ·)
            else some []
          else some []

/-- `parse_dns_response`: the question and the answers that it comes across. -/
def parseDnsResponse (name : Nat → UInt8) : Option DnsSeen :=
  if datalen < dnsHeaderSize + 1 then some {}
  else
    let qcount := (ntohs data 4).toNat
    let acount := (ntohs data 6).toNat
    if dnsQr data = 1 ∧ dnsOpcode data = 0 ∧ qcount > 0 ∧ acount > 0 then
      match getQname data datalen rounds dnsHeaderSize name with
      | none => none
      | some (none, _) => some {}
      | some (some off, name) =>
          if off > 0 ∧ off + 4 ≤ datalen then
            let question : DnsQuestion :=
              { qname := cString name, qtype := ntohs data off, qclass := ntohs data (off + 2) }
            (parseAnswers data datalen rounds acount (off + 4) name).map fun answers =>
              { question := some question, answers }
          else some {}
    else some {}

end Response

end TunProxy.Native
