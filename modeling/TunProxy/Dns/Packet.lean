import TunProxy.Dns.Buffer
import TunProxy.Vpn.Host

/-!
# DNS packets

The classes of `tun.proxy.dns`: the decoder `FromBytes` of packets and their parts, and the encoder
`ToBytes`. Strings are lists of characters.
-/

namespace TunProxy.Dns

open Native (Bytes)
open Lib.Bytes
open Vpn.CommonMethods (writeShort writeInt)

/-! ## Flags -/

structure DnsFlags where
  qr : Bool
  opCode : BitVec 32
  aa : Bool
  tc : Bool
  rd : Bool
  ra : Bool
  zero : BitVec 32
  rcode : BitVec 32
  deriving DecidableEq, Repr

def DnsFlags.parse (value : BitVec 16) : DnsFlags :=
  let m_Flags := value.toNat
  { qr := m_Flags / 2 ^ 7 % 2 = 1
    opCode := BitVec.ofNat 32 (m_Flags / 2 ^ 3 % 16)
    aa := m_Flags / 2 ^ 2 % 2 = 1
    tc := m_Flags / 2 % 2 = 1
    rd := m_Flags % 2 = 1
    ra := m_Flags / 2 ^ 15 = 1
    zero := BitVec.ofNat 32 (m_Flags / 2 ^ 12 % 8)
    rcode := BitVec.ofNat 32 (m_Flags / 2 ^ 8 % 16) }

/-- The bits of the fields are apart, so that the `|=` of the source add them up. -/
def DnsFlags.toShort (f : DnsFlags) : BitVec 16 :=
  BitVec.ofNat 16 (f.qr.toNat * 2 ^ 7 + f.opCode.toNat % 16 * 2 ^ 3 + f.aa.toNat * 2 ^ 2 + f.tc.toNat * 2
    + f.rd.toNat + f.ra.toNat * 2 ^ 15 + f.zero.toNat % 8 * 2 ^ 12 + f.rcode.toNat % 16 * 2 ^ 8)

/-! ## Header -/

/-- `offset` is where the header lies in the array of the buffer it was read from. -/
structure DnsHeader where
  id : BitVec 16
  flags : DnsFlags
  questionCount : BitVec 16
  resourceCount : BitVec 16
  aResourceCount : BitVec 16
  eResourceCount : BitVec 16
  offset : Nat
  deriving DecidableEq, Repr

namespace DnsHeader

def fromBytes : Read DnsHeader := do
  let offset := (← get).arrayOffset + (← get).position
  let id ← ByteBuffer.getShort
  let flags ← ByteBuffer.getShort
  let questionCount ← ByteBuffer.getShort
  let resourceCount ← ByteBuffer.getShort
  let aResourceCount ← ByteBuffer.getShort
  let eResourceCount ← ByteBuffer.getShort
  return { id, flags := .parse flags, questionCount, resourceCount, aResourceCount, eResourceCount, offset }

/-- `putShort`: the bytes that are put into the buffer. -/
def putShort (value : BitVec 16) : Bytes := toBE 2 value.toNat

def toBytes (h : DnsHeader) : Bytes :=
  putShort h.id ++ putShort h.flags.toShort ++ putShort h.questionCount ++ putShort h.resourceCount
    ++ putShort h.aResourceCount ++ putShort h.eResourceCount

/-! The setters write to the array and leave the fields alone. -/

def setID (h : DnsHeader) (data : Bytes) (value : BitVec 16) : Option Bytes := writeShort data h.offset value

def setResourceCount (h : DnsHeader) (data : Bytes) (value : BitVec 16) : Option Bytes :=
  writeShort data (h.offset + 6) value

def setAResourceCount (h : DnsHeader) (data : Bytes) (value : BitVec 16) : Option Bytes :=
  writeShort data (h.offset + 8) value

def setEResourceCount (h : DnsHeader) (data : Bytes) (value : BitVec 16) : Option Bytes :=
  writeShort data (h.offset + 10) value

end DnsHeader

open DnsHeader (putShort)

/-! ## Names -/

/-- The inner loop of `ReadDomain`: what is left of `len` when it ends, and the string so far. -/
def readLabel : Nat → List Char → Read (Nat × List Char)
  | 0, sb => return (0, sb)
  | len + 1, sb => do
      if (← get).remaining = 0 then return (len + 1, sb)
      let c ← ByteBuffer.getByte
      readLabel len (sb ++ [Char.ofNat c.toNat])

/-- The outer loop of `ReadDomain`, which goes on for at most `n` rounds: one for each byte that remains is
enough. `follow` is the recursive call, for the position of a pointer. -/
def readLabels (follow : Nat → Read (List Char)) : Nat → Nat → List Char → Read (List Char)
  | 0, len, sb => return if len = 0 then sb.dropLast else sb
  | n + 1, len, sb => do
      if (← get).remaining = 0 then return if len = 0 then sb.dropLast else sb
      let len := (← ByteBuffer.getByte).toNat
      if len = 0 then return sb.dropLast
      if 192 ≤ len then
        let pointer := (← ByteBuffer.getByte).toNat + len % 64 * 256
        return sb ++ (← follow pointer)
      let (len, sb) ← readLabel len sb
      readLabels follow n len (sb ++ ['.'])

/-- A call of `recurse` for a new buffer on the same array. -/
def readWrapped (recurse : Read (List Char)) (offset length : Nat) : Read (List Char) := fun b =>
  match ByteBuffer.wrap b.array offset length with
  | none => .error .indexOutOfBounds b
  | some newBuffer =>
      match recurse newBuffer with
      | .ok s _ => .ok s b
      | .error e _ => .error e b

/-- `depth` bounds the recursion. -/
def readDomain (dnsHeaderOffset : Nat) : Nat → Read (List Char)
  | 0 => throw .stackOverflow
  | depth + 1 => do
      let b ← get
      readLabels (fun pointer =>
        readWrapped (readDomain dnsHeaderOffset depth) (dnsHeaderOffset + pointer) (dnsHeaderOffset + b.limit))
        b.remaining 0 []

/-- No name is deeper: the limit grows from one pointer to the next, only not at a pointer to the beginning of
the array, and two of these in succession repeat for ever. -/
def maxDepth (b : ByteBuffer) : Nat := 2 * b.array.length

/-- A name in the buffer that holds the packet. -/
def readName : Read (List Char) := do
  let b ← get
  readDomain b.arrayOffset (maxDepth b)

/-- The bytes that are put into the buffer; none is the null reference. The other test is one of the reference `""`
itself: every name comes from `StringBuilder.toString`, which returns this reference for an empty builder on Android
(on OpenJDK it makes a new string, and nothing would be written for the empty name). -/
def writeDomain : Option (List Char) → Bytes
  | none => [0]
  | some domain =>
      if domain = [] then [0]
      else
        let arr := Vpn.split ['.'] domain
        arr.flatMap fun item =>
          (if arr.length > 1 then [UInt8.ofNat item.length] else []) ++ item.map fun c => UInt8.ofNat c.toNat

/-! ## Questions -/

structure Question where
  domain : List Char
  type : BitVec 16
  cls : BitVec 16
  offset : Nat
  length : Nat
  deriving DecidableEq, Repr

namespace Question

def fromBytes : Read Question := do
  let offset := (← get).arrayOffset + (← get).position
  let domain ← readName
  let type ← ByteBuffer.getShort
  let cls ← ByteBuffer.getShort
  let length := (← get).arrayOffset + (← get).position - offset
  return { domain, type, cls, offset, length }

/-- What is written from `position` on, and the question with its new place. -/
def toBytes (q : Question) (position : Nat) : Question × Bytes :=
  let bytes := writeDomain (some q.domain) ++ putShort q.type ++ putShort q.cls
  ({ q with offset := position, length := bytes.length }, bytes)

end Question

/-! ## Resources -/

structure Resource where
  domain : List Char
  type : BitVec 16
  cls : BitVec 16
  ttl : BitVec 32
  dataLength : BitVec 16
  data : Bytes
  offset : Nat
  length : Nat
  deriving DecidableEq, Repr

namespace Resource

def fromBytes : Read Resource := do
  let offset := (← get).arrayOffset + (← get).position
  let domain ← readName
  let type ← ByteBuffer.getShort
  let cls ← ByteBuffer.getShort
  let ttl ← ByteBuffer.getInt
  let dataLength ← ByteBuffer.getShort
  let data ← ByteBuffer.getBytes dataLength.toNat
  let length := (← get).arrayOffset + (← get).position - offset
  return { domain, type, cls, ttl, dataLength, data, offset, length }

/-- `data` is never the null reference here: it counts as empty. -/
def toBytes (r : Resource) (position : Nat) : Resource × Bytes :=
  let dataLength := BitVec.ofNat 16 r.data.length
  let bytes := writeDomain (some r.domain) ++ putShort r.type ++ putShort r.cls ++ toBE 4 r.ttl.toNat
    ++ putShort dataLength ++ r.data
  ({ r with dataLength, offset := position, length := bytes.length }, bytes)

end Resource

/-- The setters of `ResourcePointer`, one after the other, for a record at `offset`. -/
def ResourcePointer.set (data : Bytes) (offset : Nat) (domain type cls : BitVec 16) (ttl : BitVec 32)
    (dataLength : BitVec 16) (ip : BitVec 32) : Option Bytes := do
  let data ← writeShort data offset domain
  let data ← writeShort data (offset + 2) type
  let data ← writeShort data (offset + 4) cls
  let data ← writeInt data (offset + 6) ttl
  let data ← writeShort data (offset + 10) dataLength
  writeInt data (offset + 12) ip

/-! ## Packets -/

structure DnsPacket where
  header : DnsHeader
  questions : List Question
  resources : List Resource
  aResources : List Resource
  eResources : List Resource
  size : Nat
  deriving DecidableEq, Repr

/-- A loop that fills an array of `n` elements. -/
def readArray {α : Type} (read : Read α) : Nat → Read (List α)
  | 0 => return []
  | n + 1 => do
      let x ← read
      return x :: (← readArray read n)

/-- A loop that writes the first `n` elements of an array from `position` on. -/
def writeArray {α : Type} (toBytes : α → Nat → α × Bytes) : Nat → List α → Nat → List α × Bytes
  | n + 1, x :: xs, position =>
      let (x, bytes) := toBytes x position
      let (xs, rest) := writeArray toBytes n xs (position + bytes.length)
      (x :: xs, bytes ++ rest)
  | _, xs, _ => (xs, [])

namespace DnsPacket

/-- The counts are signed: an array of a negative length is not created. -/
def arrayLength (count : BitVec 16) : Read Nat :=
  if count.toInt < 0 then throw .negativeArraySize else return count.toNat

/-- The arrays and the loops that fill them. -/
def readSections (header : DnsHeader) (size : Nat) : Read (Option DnsPacket) := do
  let questions ← arrayLength header.questionCount
  let resources ← arrayLength header.resourceCount
  let aResources ← arrayLength header.aResourceCount
  let eResources ← arrayLength header.eResourceCount
  let questions ← readArray Question.fromBytes questions
  let resources ← readArray Resource.fromBytes resources
  let aResources ← readArray Resource.fromBytes aResources
  let eResources ← readArray Resource.fromBytes eResources
  return some { header, questions, resources, aResources, eResources, size }

/-- none is the null reference. -/
def read : Read (Option DnsPacket) := do
  let size := (← get).limit
  if size < 12 then return none
  if size > 512 then return none
  let header ← DnsHeader.fromBytes
  if header.questionCount.toInt > 2 ∨ header.resourceCount.toInt > 50 ∨ header.aResourceCount.toInt > 50
      ∨ header.eResourceCount.toInt > 50 then return none
  readSections header size

/-- What becomes of a packet in a buffer: the result or the exception. -/
def fromBytes (buffer : ByteBuffer) : Except Thrown (Option DnsPacket) :=
  match read buffer with
  | .ok packet _ => .ok packet
  | .error e _ => .error e

/-- The bytes that are put into a buffer at `position`, and what the packet is afterwards. An array that is missing
counts as empty. -/
def toBytes (p : DnsPacket) (position : Nat) : DnsPacket × Bytes :=
  let count {α : Type} (xs : List α) : BitVec 16 := BitVec.ofNat 16 xs.length
  let header := { p.header with
    questionCount := count p.questions, resourceCount := count p.resources
    aResourceCount := count p.aResources, eResourceCount := count p.eResources }
  let b := header.toBytes
  let (questions, b₁) := writeArray Question.toBytes header.questionCount.toInt.toNat p.questions (position + b.length)
  let b := b ++ b₁
  let (resources, b₁) := writeArray Resource.toBytes header.resourceCount.toInt.toNat p.resources (position + b.length)
  let b := b ++ b₁
  let (aResources, b₁) :=
    writeArray Resource.toBytes header.aResourceCount.toInt.toNat p.aResources (position + b.length)
  let b := b ++ b₁
  let (eResources, b₁) :=
    writeArray Resource.toBytes header.eResourceCount.toInt.toNat p.eResources (position + b.length)
  ({ p with header, questions, resources, aResources, eResources }, b ++ b₁)

end DnsPacket

end TunProxy.Dns
