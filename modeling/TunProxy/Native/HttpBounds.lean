import TunProxy.Native.Http

/-!
# The bytes that `patch_http_url` reads

The functions of `http.c` on a segment that has nothing behind it: each is none where the source reads at or beyond its
end.
-/

namespace TunProxy.Native

/-- `strncasecmp` reads no further than the first difference. -/
def strncasecmpIn (data : Bytes) : (pos : Nat) → (value : Bytes) → Option Bool
  | _, [] => some true
  | pos, c :: value => do
      let b ← data[pos]?
      if toLower b = toLower c then strncasecmpIn data (pos + 1) value else some false

/-- The inner loop of `find_data` reads a byte before it looks at the length. -/
def skipToIn (data : Bytes) (c : UInt8) : (pos dataLen : Nat) → Option (Nat × Nat)
  | pos, 0 => some (pos, 0)
  | pos, dataLen + 1 => do
      let b ← data[pos]?
      if b ≠ c ∧ dataLen + 1 > 2 then skipToIn data c (pos + 1) dataLen else some (pos, dataLen + 1)

/-- The outer loop of `find_data`. -/
def findDataFromIn (data value : Bytes) : (rounds pos dataLen : Nat) → Option (Option Nat)
  | 0, _, _ => some none
  | rounds + 1, pos, dataLen =>
      if dataLen > 2 then do
        let (pos, dataLen) ← skipToIn data (value.headD 0) pos dataLen
        if ← strncasecmpIn data pos value then some (some pos)
        else findDataFromIn data value rounds (pos + 1) (dataLen - 1)
      else some none

def findDataIn (data value : Bytes) : Option (Option Nat) := findDataFromIn data value data.length 0 data.length

/-- The loop that copies the host name reads a byte before it looks at the room. -/
def readHostIn (data : Bytes) : (room pos : Nat) → Option Bytes
  | 0, pos => do
      let _ ← data[pos]?
      some []
  | room + 1, pos => do
      let b ← data[pos]?
      if b ≠ 13 then return b :: (← readHostIn data room (pos + 1)) else some []

def findMethodIn (data : Bytes) : (words : List Bytes) → Option (Option Nat)
  | [] => some none
  | word :: words => do
      match ← findDataIn data word with
      | some pos => some (some (pos + word.length))
      | none => findMethodIn data words

/-- A chain of comparisons with `&&`. -/
def comesIn (data : Bytes) : (pos : Nat) → (value : Bytes) → Option Bool
  | _, [] => some true
  | pos, c :: value => do
      let b ← data[pos]?
      if b = c then comesIn data (pos + 1) value else some false

def patchHttpUrlIn (data : Bytes) : Option Patch := do
  match ← findDataIn data (ascii "Host: ") with
  | none => some .none
  | some host =>
      let hostname ← readHostIn data 511 (host + 6)
      match ← findMethodIn data methods with
      | none => some .none
      | some pos1 =>
          if ← comesIn data pos1 (ascii "http:") then some .none
          else some (.some (data.take pos1 ++ ascii "http://" ++ hostname ++ data.drop pos1))

end TunProxy.Native
