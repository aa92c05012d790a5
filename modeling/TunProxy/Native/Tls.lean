import TunProxy.Native.Types

/-!
# The server name of a TLS client hello (`tls.c`)

`none` stands for a read outside the payload. `char` is unsigned, as on ARM. The result is the string
left in `hostname`, without its final NUL: empty when no name was found.
-/

namespace TunProxy.Native

def TLS_HEADER_LEN : Nat := 5
def TLS_HANDSHAKE_CONTENT_TYPE : UInt8 := 0x16
def TLS_HANDSHAKE_TYPE_CLIENT_HELLO : UInt8 := 0x01
def FQDN_MAX : Nat := 255

/-- The big-endian number in the two bytes at `pos`. -/
def readU16 (data : Bytes) (pos : Nat) : Option Nat := do
  let hi ← data[pos]?
  let lo ← data[pos + 1]?
  return hi.toNat * 256 + lo.toNat

/-- The string `strncpy` makes of the `len` bytes at `pos`. -/
def readString (data : Bytes) (pos len : Nat) : Option Bytes :=
  if pos + len ≤ data.length then some (((data.drop pos).take len).takeWhile (· ≠ 0)) else none

/-- The loop of `parse_server_name_extension`, on the `dataLen` bytes at `base`. Each round moves `pos` up, so
`dataLen` rounds are enough. -/
def parseServerNameExtension (data : Bytes) (base dataLen : Nat) : (rounds pos : Nat) → Option Bytes
  | 0, _ => some []
  | rounds + 1, pos =>
      if pos + 3 < dataLen then do
        let len ← readU16 data (base + pos + 1)
        if pos + 3 + len > dataLen then return []
        let nameType ← data[base + pos]?
        if nameType = 0x00 then readString data (base + pos + 3) (min len FQDN_MAX)
        else parseServerNameExtension data base dataLen rounds (pos + 3 + len)
      else some []

/-- The loop of `parse_extensions`, on the `dataLen` bytes at `base`. -/
def parseExtensions (data : Bytes) (base dataLen : Nat) : (rounds pos : Nat) → Option Bytes
  | 0, _ => some []
  | rounds + 1, pos =>
      if pos + 4 ≤ dataLen then do
        let len ← readU16 data (base + pos + 2)
        let type ← readU16 data (base + pos)
        if type = 0 then
          if pos + 4 + len > dataLen then return []
          parseServerNameExtension data (base + pos + 4) len len 2
        else parseExtensions data base dataLen rounds (pos + 4 + len)
      else some []

/-- `parse_tls_header`. -/
def parseTlsHeader (data : Bytes) : Option Bytes := do
  if data.length < TLS_HEADER_LEN then return []
  let contentType ← data[0]?
  let major ← data[1]?
  let minor ← data[2]?
  -- SSL 2.0 compatible client hello
  if contentType &&& 0x80 ≠ 0 ∧ minor = 1 then return []
  if contentType ≠ TLS_HANDSHAKE_CONTENT_TYPE then return []
  if major < 3 then return []
  let len := (← readU16 data 3) + TLS_HEADER_LEN
  let dataLen := min data.length len
  if dataLen < len then return []
  let pos := TLS_HEADER_LEN
  if pos + 1 > dataLen then return []
  if (← data[pos]?) ≠ TLS_HANDSHAKE_TYPE_CLIENT_HELLO then return []
  let pos := pos + 38
  -- session id, cipher suites, compression methods
  if pos + 1 > dataLen then return []
  let pos := pos + 1 + (← data[pos]?).toNat
  if pos + 2 > dataLen then return []
  let pos := pos + 2 + (← readU16 data pos)
  if pos + 1 > dataLen then return []
  let pos := pos + 1 + (← data[pos]?).toNat
  if pos = dataLen ∧ major = 3 ∧ minor = 0 then return []
  if pos + 2 > dataLen then return []
  let len ← readU16 data pos
  let pos := pos + 2
  if pos + len > dataLen then return []
  parseExtensions data pos len len 0

end TunProxy.Native
