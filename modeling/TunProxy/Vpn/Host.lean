import Mathlib.Data.List.DropRight
import TunProxy.Vpn.Packet

/-!
# Host names in a client's first bytes

`HttpHostHeaderParser` of `tun.proxy.core`. Strings are lists of characters.
-/

namespace TunProxy.Vpn

open Native (Bytes)
open CommonMethods

/-- The default charset, which is UTF-8. What a byte string that is not UTF-8 is decoded to is left open
by the documentation of `String`. -/
structure Charset where
  decode : Bytes → List Char
  ascii : ∀ x l, x < 128 → decode (x :: l) = Char.ofNat x.toNat :: decode l
  length_le : ∀ l, (decode l).length ≤ l.length

/-- What UTF-8 is on ASCII strings, with a replacement character for every other byte. -/
def Charset.usAscii : Charset where
  decode := List.map fun x => if x < 128 then Char.ofNat x.toNat else '\uFFFD'
  ascii x l h := by simp [h]
  length_le l := by simp

/-! ## What the parser uses of `String` -/

/-- The pieces of a string between the occurrences of a separator. -/
def pieces (sep : List Char) : List Char → List (List Char)
  | [] => [[]]
  | c :: s =>
      if sep.isPrefixOf (c :: s) then [] :: pieces sep (s.drop (sep.length - 1))
      else match pieces sep s with
        | [] => [[c]]
        | p :: ps => (c :: p) :: ps
termination_by s => s.length
decreasing_by all_goals simp_all; try omega

/-- `split` leaves out empty strings at the end, unless the separator does not occur at all. -/
def split (sep s : List Char) : List (List Char) :=
  match pieces sep s with
  | [p] => [p]
  | ps => ps.rdropWhile (·.isEmpty)

def trim (s : List Char) : List Char := (s.dropWhile (· ≤ ' ')).rdropWhile (· ≤ ' ')

/-! ## The parser -/

namespace HttpHostHeaderParser

/-- The loop over the header lines. No letter beyond ASCII has one of `host` as its lower case. -/
def hostOfLines : List (List Char) → Option (List Char)
  | [] => none
  | line :: lines =>
      match split [':'] line with
      | [name, value] =>
          if trim (name.map Char.toLower) = "host".toList then some (trim value) else hostOfLines lines
      | _ => hostOfLines lines

/-- `new String(buffer, offset, count)`, which throws where the range leaves the array. -/
def newString (c : Charset) (buffer : Bytes) (offset count : Nat) : Option (List Char) :=
  if offset + count ≤ buffer.length then some (c.decode ((buffer.drop offset).take count)) else none

def getHttpHost (c : Charset) (buffer : Bytes) (offset count : Nat) : Option (Option (List Char)) := do
  let headerString ← newString c buffer offset count
  match split ['\r', '\n'] headerString with
  | [] => none
  | requestLine :: headerLines =>
      if ["GET", "POST", "HEAD", "OPTIONS"].any (·.toList.isPrefixOf requestLine) then
        return hostOfLines headerLines
      else return none

/-- The loop over the extensions. -/
def sniOfExtensions (c : Charset) (buffer : Bytes) (limit offset : Nat) : Option (Option (List Char)) :=
  if offset + 4 ≤ limit then do
    let type0 ← buffer[offset]?
    let type1 ← buffer[offset + 1]?
    let length := (← readShort buffer (offset + 2)).toNat
    if type0 = 0 ∧ type1 = 0 ∧ length > 5 then
      if offset + 4 + length > limit then return none
      return some (← newString c buffer (offset + 9) (length - 5))
    else sniOfExtensions c buffer limit (offset + 4 + length)
  else some none
termination_by limit - offset

def getSNI (c : Charset) (buffer : Bytes) (start count : Nat) : Option (Option (List Char)) := do
  let limit := start + count
  if count > 43 ∧ (← buffer[start]?) = 0x16 then
    let offset := start + 43
    if offset + 1 > limit then return none
    let offset := offset + 1 + (← buffer[offset]?).toNat
    if offset + 2 > limit then return none
    let offset := offset + 2 + (← readShort buffer offset).toNat
    if offset + 1 > limit then return none
    let offset := offset + 1 + (← buffer[offset]?).toNat
    if offset = limit then return none
    if offset + 2 > limit then return none
    let extensionsLength := (← readShort buffer offset).toNat
    let offset := offset + 2
    if offset + extensionsLength > limit then return none
    sniOfExtensions c buffer limit offset
  else return none

/-- What the two parsers throw is caught here. -/
def parseHost (c : Charset) (buffer : Bytes) (offset count : Nat) : Option (List Char) :=
  match buffer[offset]? with
  | none => none
  | some b =>
      if b ∈ "GHPDOTC".toList.map fun ch => UInt8.ofNat ch.toNat then
        (getHttpHost c buffer offset count).join
      else if b = 0x16 then (getSNI c buffer offset count).join
      else none

end HttpHostHeaderParser

end TunProxy.Vpn
