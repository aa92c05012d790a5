import TunProxy.Native.Types
import TunProxy.Lib.OnesComplement

/-!
# Packets of the VPN service

`CommonMethods`, `IPHeader` and `TCPHeader` of `tun.proxy.tcpip`. A header is a view of an array; the array
is passed along here, and the IP header starts at its beginning, as it does in the service. A function is
none where the access throws.
-/

namespace TunProxy.Vpn

open Native (Bytes)
open Lib.OnesComplement

/-! ## `CommonMethods` -/

namespace CommonMethods

def readShort (data : Bytes) (offset : Nat) : Option (BitVec 16) := do
  let h ← data[offset]?
  let l ← data[offset + 1]?
  return BitVec.ofNat 16 (256 * h.toNat + l.toNat)

def readInt (data : Bytes) (offset : Nat) : Option (BitVec 32) := do
  let a ← data[offset]?
  let b ← data[offset + 1]?
  let c ← data[offset + 2]?
  let d ← data[offset + 3]?
  return BitVec.ofNat 32 (256 ^ 3 * a.toNat + 256 ^ 2 * b.toNat + 256 * c.toNat + d.toNat)

def writeByte (data : Bytes) (offset : Nat) (value : UInt8) : Option Bytes :=
  if offset < data.length then some (data.set offset value) else none

def writeShort (data : Bytes) (offset : Nat) (value : BitVec 16) : Option Bytes := do
  let data ← writeByte data offset (.ofNat (value.toNat / 256))
  writeByte data (offset + 1) (.ofNat value.toNat)

def writeInt (data : Bytes) (offset : Nat) (value : BitVec 32) : Option Bytes := do
  let data ← writeByte data offset (.ofNat (value.toNat / 256 ^ 3))
  let data ← writeByte data (offset + 1) (.ofNat (value.toNat / 256 ^ 2))
  let data ← writeByte data (offset + 2) (.ofNat (value.toNat / 256))
  writeByte data (offset + 3) (.ofNat value.toNat)

def ipIntToString (ip : BitVec 32) : List Char :=
  let byte (n : Nat) : List Char := (Nat.repr (ip.toNat / 256 ^ n % 256)).toList
  byte 3 ++ '.' :: byte 2 ++ '.' :: byte 1 ++ '.' :: byte 0

/-- The sum of the big-endian words. It is below 2 ^ 47 for every length an `int` can hold, so the `long` of the
source does not overflow. -/
def getsum (buf : Bytes) (offset : Nat) : Nat → Option Nat
  | len + 2 => do
      let w ← readShort buf offset
      let sum ← getsum buf (offset + 2) len
      return w.toNat + sum
  | 1 => do
      let b ← buf[offset]?
      return 256 * b.toNat
  | 0 => return 0

/-- The loop of `checksum`. -/
def carry (sum : Nat) : Nat := if 65536 ≤ sum then carry (fold sum) else sum
termination_by sum
decreasing_by exact fold_lt ‹_›

def checksum (sum : Nat) (buf : Bytes) (offset len : Nat) : Option (BitVec 16) := do
  return ~~~ BitVec.ofNat 16 (carry (sum + (← getsum buf offset len)))

end CommonMethods

open CommonMethods

/-! ## Headers -/

namespace IPHeader

def TCP : UInt8 := 6
def UDP : UInt8 := 17

def getHeaderLength (data : Bytes) : Option Nat := do return (← data[0]?).toNat % 16 * 4

def getTotalLength (data : Bytes) : Option Nat := do return (← readShort data 2).toNat

def setTotalLength (data : Bytes) (value : Nat) : Option Bytes := writeShort data 2 (BitVec.ofNat 16 value)

/-- `getDataLength`, negative where the lengths contradict each other. -/
def getDataLength (data : Bytes) : Option Int := do
  return (← getTotalLength data) - (← getHeaderLength data)

def getProtocol (data : Bytes) : Option UInt8 := data[9]?

def setProtocol (data : Bytes) (value : UInt8) : Option Bytes := writeByte data 9 value

def getCrc (data : Bytes) : Option (BitVec 16) := readShort data 10

def setCrc (data : Bytes) (value : BitVec 16) : Option Bytes := writeShort data 10 value

def getSourceIP (data : Bytes) : Option (BitVec 32) := readInt data 12

def setSourceIP (data : Bytes) (value : BitVec 32) : Option Bytes := writeInt data 12 value

def getDestinationIP (data : Bytes) : Option (BitVec 32) := readInt data 16

def setDestinationIP (data : Bytes) (value : BitVec 32) : Option Bytes := writeInt data 16 value

end IPHeader

/-- The second argument is `m_Offset`. -/
def TCPHeader.getHeaderLength (data : Bytes) (offset : Nat) : Option Nat := do
  return (← data[offset + 12]?).toNat / 16 * 4

namespace TCPHeader

def FIN : UInt8 := 1
def SYN : UInt8 := 2
def RST : UInt8 := 4
def ACK : UInt8 := 16

def getSourcePort (data : Bytes) (offset : Nat) : Option (BitVec 16) := readShort data offset

def setSourcePort (data : Bytes) (offset : Nat) (value : BitVec 16) : Option Bytes :=
  writeShort data offset value

def getDestinationPort (data : Bytes) (offset : Nat) : Option (BitVec 16) := readShort data (offset + 2)

def setDestinationPort (data : Bytes) (offset : Nat) (value : BitVec 16) : Option Bytes :=
  writeShort data (offset + 2) value

def getFlags (data : Bytes) (offset : Nat) : Option UInt8 := data[offset + 13]?

def getCrc (data : Bytes) (offset : Nat) : Option (BitVec 16) := readShort data (offset + 16)

def setCrc (data : Bytes) (offset : Nat) (value : BitVec 16) : Option Bytes :=
  writeShort data (offset + 16) value

def getSeqID (data : Bytes) (offset : Nat) : Option (BitVec 32) := readInt data (offset + 4)

end TCPHeader

namespace UDPHeader

def getSourcePort (data : Bytes) (offset : Nat) : Option (BitVec 16) := readShort data offset

def setSourcePort (data : Bytes) (offset : Nat) (value : BitVec 16) : Option Bytes :=
  writeShort data offset value

def getDestinationPort (data : Bytes) (offset : Nat) : Option (BitVec 16) := readShort data (offset + 2)

def setDestinationPort (data : Bytes) (offset : Nat) (value : BitVec 16) : Option Bytes :=
  writeShort data (offset + 2) value

def getTotalLength (data : Bytes) (offset : Nat) : Option Nat := do return (← readShort data (offset + 4)).toNat

def setTotalLength (data : Bytes) (offset value : Nat) : Option Bytes :=
  writeShort data (offset + 4) (BitVec.ofNat 16 value)

def getCrc (data : Bytes) (offset : Nat) : Option (BitVec 16) := readShort data (offset + 6)

def setCrc (data : Bytes) (offset : Nat) (value : BitVec 16) : Option Bytes := writeShort data (offset + 6) value

end UDPHeader

/-- The fields of a TCP packet, read all at once; the headers are `header` and `dataOffset - header` bytes long. -/
structure Segment where
  header : Nat
  source : BitVec 32
  dest : BitVec 32
  sport : BitVec 16
  dport : BitVec 16
  flags : UInt8
  seq : BitVec 32
  dataOffset : Nat
  dataSize : Int
  deriving DecidableEq, Repr

def Segment.read (data : Bytes) : Option Segment := do
  let header ← IPHeader.getHeaderLength data
  let source ← IPHeader.getSourceIP data
  let dest ← IPHeader.getDestinationIP data
  let sport ← TCPHeader.getSourcePort data header
  let dport ← TCPHeader.getDestinationPort data header
  let flags ← TCPHeader.getFlags data header
  let seq ← TCPHeader.getSeqID data header
  let tcpHeader ← TCPHeader.getHeaderLength data header
  let dataLength ← IPHeader.getDataLength data
  return { header, source, dest, sport, dport, flags, seq, dataOffset := header + tcpHeader
           dataSize := dataLength - tcpHeader }

/-! ## Checksums -/

namespace CommonMethods

/-- The array afterwards, and whether the checksum was right before. -/
def computeIPChecksum (data : Bytes) : Option (Bytes × Bool) := do
  let oldCrc ← IPHeader.getCrc data
  let data ← IPHeader.setCrc data 0
  let newCrc ← checksum 0 data 0 (← IPHeader.getHeaderLength data)
  let data ← IPHeader.setCrc data newCrc
  return (data, oldCrc == newCrc)

/-- The TCP header is at `offset` of the same array. -/
def computeTCPChecksum (data : Bytes) (offset : Nat) : Option (Bytes × Bool) := do
  let (data, _) ← computeIPChecksum data
  let total ← IPHeader.getTotalLength data
  let header ← IPHeader.getHeaderLength data
  if total < header then return (data, false)
  let ipData_len := total - header
  let sum ← getsum data 12 8
  let sum := sum + (← IPHeader.getProtocol data).toNat + ipData_len
  let oldCrc ← TCPHeader.getCrc data offset
  let data ← TCPHeader.setCrc data offset 0
  let newCrc ← checksum sum data offset ipData_len
  let data ← TCPHeader.setCrc data offset newCrc
  return (data, oldCrc == newCrc)

/-- The UDP header is at `offset` of the same array. -/
def computeUDPChecksum (data : Bytes) (offset : Nat) : Option (Bytes × Bool) := do
  let (data, _) ← computeIPChecksum data
  let total ← IPHeader.getTotalLength data
  let header ← IPHeader.getHeaderLength data
  if total < header then return (data, false)
  let ipData_len := total - header
  let sum ← getsum data 12 8
  let sum := sum + (← IPHeader.getProtocol data).toNat + ipData_len
  let oldCrc ← UDPHeader.getCrc data offset
  let data ← UDPHeader.setCrc data offset 0
  let newCrc ← checksum sum data offset ipData_len
  let data ← UDPHeader.setCrc data offset newCrc
  return (data, oldCrc == newCrc)

end CommonMethods

end TunProxy.Vpn
