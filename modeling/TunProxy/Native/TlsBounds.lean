import TunProxy.Native.Tls

/-!
# The bytes that `parse_tls_header` reads and writes

The loops as they are, without a bound for their rounds, and the array `hostname`. As before, `none` stands for a read
outside the payload, and here for a write outside `hostname` too.
-/

namespace TunProxy.Native

/-- The loop of `parse_server_name_extension`: where the name lies that it copies, and how many bytes it copies. -/
def locateName (data : Bytes) (base dataLen pos : Nat) : Option (Option (Nat × Nat)) :=
  if pos + 3 < dataLen then do
    let len ← readU16 data (base + pos + 1)
    if pos + 3 + len > dataLen then return none
    let nameType ← data[base + pos]?
    if nameType = 0x00 then return some (base + pos + 3, min len FQDN_MAX)
    else locateName data base dataLen (pos + 3 + len)
  else some none
termination_by dataLen - pos

/-- The loop of `parse_extensions`. -/
def locateInExtensions (data : Bytes) (base dataLen pos : Nat) : Option (Option (Nat × Nat)) :=
  if pos + 4 ≤ dataLen then do
    let len ← readU16 data (base + pos + 2)
    let type ← readU16 data (base + pos)
    if type = 0 then
      if pos + 4 + len > dataLen then return none
      locateName data (base + pos + 4) len 2
    else locateInExtensions data base dataLen (pos + 4 + len)
  else some none
termination_by dataLen - pos

/-- `parse_tls_header` up to the copying, with which it ends. -/
def locateServerName (data : Bytes) : Option (Option (Nat × Nat)) := do
  if data.length < TLS_HEADER_LEN then return none
  let contentType ← data[0]?
  let major ← data[1]?
  let minor ← data[2]?
  if contentType &&& 0x80 ≠ 0 ∧ minor = 1 then return none
  if contentType ≠ TLS_HANDSHAKE_CONTENT_TYPE then return none
  if major < 3 then return none
  let len := (← readU16 data 3) + TLS_HEADER_LEN
  let dataLen := min data.length len
  if dataLen < len then return none
  let pos := TLS_HEADER_LEN
  if pos + 1 > dataLen then return none
  if (← data[pos]?) ≠ TLS_HANDSHAKE_TYPE_CLIENT_HELLO then return none
  let pos := pos + 38
  if pos + 1 > dataLen then return none
  let pos := pos + 1 + (← data[pos]?).toNat
  if pos + 2 > dataLen then return none
  let pos := pos + 2 + (← readU16 data pos)
  if pos + 1 > dataLen then return none
  let pos := pos + 1 + (← data[pos]?).toNat
  if pos = dataLen ∧ major = 3 ∧ minor = 0 then return none
  if pos + 2 > dataLen then return none
  let len ← readU16 data pos
  let pos := pos + 2
  if pos + len > dataLen then return none
  locateInExtensions data pos len 0

/-- `strncpy(hostname, data + pos, len)`, which fills up with zeros, and `hostname[len] = '\0'`. -/
def copyName (data hostname : Bytes) (pos len : Nat) : Option Bytes := do
  let name ← readString data pos len
  if len < hostname.length then
    return name ++ List.replicate (len - name.length) 0 ++ [0] ++ hostname.drop (len + 1)
  else none

/-- `parse_tls_header`, with the array `hostname` that it leaves. -/
def parseTlsHeaderInto (data hostname : Bytes) : Option Bytes := do
  match ← locateServerName data with
  | none => return hostname
  | some (pos, len) => copyName data hostname pos len

end TunProxy.Native
