import TunProxy.Lib.Inserts
import TunProxy.Vpn.Packet

/-!
# The address blocks of China

`ChinaIpMaskManager` of `tun.proxy.core`: one mask for each network address, and the set of all masks.
-/

namespace TunProxy.Vpn

open Native (Bytes)
open Lib.Bytes CommonMethods

/-- `SparseIntArray`. The order of its keys makes no difference here. -/
abbrev SparseIntArray := AList fun _ : BitVec 32 => BitVec 32

/-- `get` gives 0 for a key that is absent. -/
def SparseIntArray.get (array : SparseIntArray) (key : BitVec 32) : BitVec 32 := (array.lookup key).getD 0

structure ChinaIpMaskManager where
  ipMaskDict : SparseIntArray := ∅
  maskDict : SparseIntArray := ∅

namespace ChinaIpMaskManager

/-- The loop ends at the first mask that is right. -/
def isIPInChina (m : ChinaIpMaskManager) (ip : BitVec 32) : Bool :=
  m.maskDict.keys.any fun mask => m.ipMaskDict.get (ip &&& mask) = mask

def put (m : ChinaIpMaskManager) (ip mask : BitVec 32) : ChinaIpMaskManager where
  ipMaskDict := m.ipMaskDict.insert ip mask
  maskDict := m.maskDict.insert mask mask

/-- The inner loop, from `i` on: `count` bytes of the buffer were read last. -/
def loadBuffer (m : ChinaIpMaskManager) (buffer : Bytes) (count i : Nat) : Option ChinaIpMaskManager :=
  if i < count then do
    let ip ← readInt buffer i
    let mask ← readInt buffer (i + 4)
    loadBuffer (m.put ip mask) buffer count (i + 8)
  else some m
termination_by count - i

/-- The outer loop. `reads` are the bytes that the calls of `read` put at the beginning of the buffer, up to the end of
the file, or up to an exception, which is caught. -/
def loadReads (m : ChinaIpMaskManager) (buffer : Bytes) : (reads : List Bytes) → Option ChinaIpMaskManager
  | [] => some m
  | bytes :: reads =>
      if bytes = [] then some m
      else do
        let buffer := patch 0 bytes buffer
        let m ← loadBuffer m buffer bytes.length 0
        loadReads m buffer reads

def BUFFER_SIZE : Nat := 4096

def loadFromFile (m : ChinaIpMaskManager) (reads : List Bytes) : Option ChinaIpMaskManager :=
  loadReads m (List.replicate BUFFER_SIZE 0) reads

end ChinaIpMaskManager

/-! ## Files -/

/-- A record of the file: a network address and its mask. -/
structure Block where
  network : BitVec 32
  mask : BitVec 32
  deriving DecidableEq, Repr

namespace Block

def bytes (r : Block) : Bytes := toBE 4 r.network.toNat ++ toBE 4 r.mask.toNat

/-- The network address has no bit beyond its mask. -/
def IsNetwork (r : Block) : Prop := r.network &&& r.mask = r.network

/-- The address is in the block. -/
def Contains (r : Block) (ip : BitVec 32) : Prop := ip &&& r.mask = r.network

instance (r : Block) (ip : BitVec 32) : Decidable (r.Contains ip) := inferInstanceAs (Decidable (_ = _))
instance (r : Block) : Decidable r.IsNetwork := inferInstanceAs (Decidable (_ = _))

end Block

def fileOf (rs : List Block) : Bytes := rs.flatMap Block.bytes

/-- The file as it is read in pieces of the given sizes. -/
def readsOf : (sizes : List Nat) → Bytes → List Bytes
  | [], _ => []
  | n :: sizes, file => file.take n :: readsOf sizes (file.drop n)

/-- The records inserted in their order. -/
def ChinaIpMaskManager.insert (m : ChinaIpMaskManager) (rs : List Block) : ChinaIpMaskManager :=
  rs.foldl (fun m r => m.put r.network r.mask) m

/-- The tables have the same entries. -/
structure ChinaIpMaskManager.Same (m m' : ChinaIpMaskManager) : Prop where
  ipMaskDict : ∀ k, m.ipMaskDict.lookup k = m'.ipMaskDict.lookup k
  maskDict : ∀ k, m.maskDict.lookup k = m'.maskDict.lookup k

end TunProxy.Vpn
