import TunProxy.Native.Types

/-!
# Rewriting of HTTP requests (`http.c`)

The code reads a request through a pointer and does not stop at its end, so the text is a memory `mem`
here: the bytes of the request, then those the heap holds after it.
-/

namespace TunProxy.Native

/-- A C string without its final NUL. -/
def ascii (s : String) : Bytes := s.toList.map fun c => UInt8.ofNat c.toNat

def toLower (b : UInt8) : UInt8 := if 65 ≤ b ∧ b ≤ 90 then b + 32 else b

/-- `strncasecmp(value, &mem[pos], strlen(value)) == 0`. -/
def strncasecmp (mem : Nat → UInt8) : (pos : Nat) → (value : Bytes) → Bool
  | _, [] => true
  | pos, c :: value => toLower (mem pos) == toLower c && strncasecmp mem (pos + 1) value

/-- The inner loop of `find_data`: the place and the length left when it stops. -/
def skipTo (mem : Nat → UInt8) (c : UInt8) : (pos dataLen : Nat) → Nat × Nat
  | pos, 0 => (pos, 0)
  | pos, dataLen + 1 =>
      if mem pos ≠ c ∧ dataLen + 1 > 2 then skipTo mem c (pos + 1) dataLen else (pos, dataLen + 1)

/-- The outer loop of `find_data`. Each round makes `dataLen` smaller, so `dataLen` rounds are enough. -/
def findDataFrom (mem : Nat → UInt8) (value : Bytes) : (rounds pos dataLen : Nat) → Option Nat
  | 0, _, _ => none
  | rounds + 1, pos, dataLen =>
      if dataLen > 2 then
        let (pos, dataLen) := skipTo mem (value.headD 0) pos dataLen
        if strncasecmp mem pos value then some pos
        else findDataFrom mem value rounds (pos + 1) (dataLen - 1)
      else none

/-- `find_data`: where `value` was found. -/
def findData (mem : Nat → UInt8) (dataLen : Nat) (value : Bytes) : Option Nat :=
  findDataFrom mem value dataLen 0 dataLen

/-- The loop of `patch_http_url` that copies the host name: up to a carriage return, `room` bytes at most. -/
def readHost (mem : Nat → UInt8) : (room pos : Nat) → Bytes
  | 0, _ => []
  | room + 1, pos => if mem pos ≠ 13 then mem pos :: readHost mem room (pos + 1) else []

/-- The words `patch_http_url` looks for, in its order. -/
def methods : List Bytes :=
  ["GET ", "POST ", "PUT ", "DELETE ", "HEAD ", "OPTIONS ", "PATCH ", "HEAD ", "TRACE ", "PROPFIND ",
    "PROPPATCH ", "MKCOL ", "COPY ", "MOVE ", "LOCK ", "UNLOCK ", "LINK ", "UNLINK "].map ascii

/-- The place right after the first of the words that is found. -/
def findMethod (mem : Nat → UInt8) (dataLen : Nat) : Option Nat :=
  methods.findSome? fun word => (findData mem dataLen word).map (· + word.length)

/-- What `patch_http_url` does. -/
inductive Patch
  /-- It returns 0. -/
  | none
  /-- It returns a buffer with these bytes. -/
  | some (data : Bytes)
  /-- It copies a negative number of bytes, and the process dies. -/
  | fault
  deriving DecidableEq, Repr

/-- `patch_http_url` on the `dataLen` bytes at the start of `mem`. -/
def patchHttpUrl (mem : Nat → UInt8) (dataLen : Nat) : Patch :=
  match findData mem dataLen (ascii "Host: ") with
  | .none => .none
  | .some host =>
      let hostname := readHost mem 511 (host + 6)
      match findMethod mem dataLen with
      | .none => .none
      | .some pos1 =>
          if (List.range 5).map (fun i => mem (pos1 + i)) = ascii "http:" then .none
          else if pos1 > dataLen then .fault
          else
            let data := (List.range dataLen).map mem
            .some (data.take pos1 ++ ascii "http://" ++ hostname ++ data.drop pos1)

/-- The memory at a block that holds `data`. -/
def memAt (data : Bytes) (heap : Nat → UInt8) (i : Nat) : UInt8 := data.getD i (heap (i - data.length))

end TunProxy.Native
