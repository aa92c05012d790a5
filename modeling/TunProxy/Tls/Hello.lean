import TunProxy.Lib.Bytes
import TunProxy.Native.Types

/-!
# The client hello of TLS

The record with the first message of a handshake (RFC 5246 and RFC 6066), as it is built from its fields.
-/

namespace TunProxy.Tls

open Native (Bytes)
open Lib.Bytes

structure Extension where
  type : BitVec 16
  data : Bytes
  length_lt : data.length < 2 ^ 16

namespace Extension

def bytes (e : Extension) : Bytes := toBE 2 e.type.toNat ++ toBE 2 e.data.length ++ e.data

theorem length_bytes (e : Extension) : e.bytes.length = 4 + e.data.length := by
  simp only [bytes, List.length_append, length_toBE]

end Extension

/-- The extensions behind their common length. -/
def block (es : List Extension) : Bytes := es.flatMap Extension.bytes

structure ClientHello where
  version : Bytes
  random : Bytes
  sessionId : Bytes
  cipherSuites : Bytes
  compressionMethods : Bytes
  extensions : Option (List Extension)
  version_length : version.length = 2
  random_length : random.length = 32
  sessionId_length : sessionId.length < 2 ^ 8
  cipherSuites_length : cipherSuites.length < 2 ^ 16
  compressionMethods_length : compressionMethods.length < 2 ^ 8

namespace ClientHello

/-- What follows the compression methods. -/
def tail (h : ClientHello) : Bytes :=
  match h.extensions with
  | none => []
  | some es => toBE 2 (block es).length ++ block es

def handshake (h : ClientHello) : Bytes :=
  let body := h.version ++ h.random ++ [UInt8.ofNat h.sessionId.length] ++ h.sessionId
    ++ toBE 2 h.cipherSuites.length ++ h.cipherSuites ++ [UInt8.ofNat h.compressionMethods.length]
    ++ h.compressionMethods ++ h.tail
  [0x01] ++ toBE 3 body.length ++ body

end ClientHello

/-- A handshake record of version 3 with nothing but the client hello. -/
structure Record where
  minor : UInt8
  hello : ClientHello
  length_lt : hello.handshake.length < 2 ^ 16

def Record.bytes (r : Record) : Bytes :=
  [0x16, 3, r.minor] ++ toBE 2 r.hello.handshake.length ++ r.hello.handshake

/-- A name that can be given to a server. -/
structure IsHostName (host : Bytes) : Prop where
  length_pos : 1 ≤ host.length
  length_le : host.length ≤ 255
  ascii : ∀ x ∈ host, x ≠ 0 ∧ x < 128

/-- The data of the extension `server_name` with one name. -/
def serverNameList (host : Bytes) : Bytes :=
  toBE 2 (host.length + 3) ++ [0x00] ++ toBE 2 host.length ++ host

/-- The server name that the client hello gives: of the extensions at most one is `server_name`. -/
def ClientHello.Names (h : ClientHello) : Option Bytes → Prop
  | none => ∀ e ∈ h.extensions.getD [], e.type ≠ 0
  | some host => IsHostName host ∧ ∃ before e after, h.extensions = some (before ++ e :: after) ∧
      (∀ e' ∈ before ++ after, e'.type ≠ 0) ∧ e.type = 0 ∧ e.data = serverNameList host

/-! ## Where the fields lie -/

/-- The fields of the record that a parser looks at, at `s` of a longer string. -/
structure Layout (data : Bytes) (s : Nat) (r : Record) : Prop where
  type : data[s]? = some 0x16
  major : data[s + 1]? = some 3
  minor : data[s + 2]? = some r.minor
  length : BytesAt data (s + 3) (toBE 2 r.hello.handshake.length)
  handshakeType : data[s + 5]? = some 0x01
  sessionId : data[s + 43]? = some (.ofNat r.hello.sessionId.length)
  cipherSuites : BytesAt data (s + 44 + r.hello.sessionId.length) (toBE 2 r.hello.cipherSuites.length)
  compressionMethods : data[s + 46 + r.hello.sessionId.length + r.hello.cipherSuites.length]?
    = some (.ofNat r.hello.compressionMethods.length)
  tail : BytesAt data (s + 47 + r.hello.sessionId.length + r.hello.cipherSuites.length
    + r.hello.compressionMethods.length) r.hello.tail

theorem length_handshake (h : ClientHello) : h.handshake.length =
    42 + h.sessionId.length + h.cipherSuites.length + h.compressionMethods.length + h.tail.length := by
  simp only [ClientHello.handshake, List.length_append, length_toBE, List.length_singleton, h.version_length,
    h.random_length]
  omega

theorem length_record (r : Record) : r.bytes.length = 5 + r.hello.handshake.length := by
  simp only [Record.bytes, List.length_append, length_toBE, List.length_cons, List.length_nil]

theorem Record.layout (r : Record) {data : Bytes} {s : Nat} (h : BytesAt data s r.bytes) : Layout data s r := by
  obtain ⟨hhead, hhandshake⟩ := bytesAt_append.1 h
  obtain ⟨hhead, hlength⟩ := bytesAt_append.1 hhead
  obtain ⟨hhandshake, hbody⟩ := bytesAt_append.1 hhandshake
  obtain ⟨htype, -⟩ := bytesAt_append.1 hhandshake
  obtain ⟨hbody, htail⟩ := bytesAt_append.1 hbody
  obtain ⟨hbody, -⟩ := bytesAt_append.1 hbody
  obtain ⟨hbody, hmethods⟩ := bytesAt_append.1 hbody
  obtain ⟨hbody, -⟩ := bytesAt_append.1 hbody
  obtain ⟨hbody, hsuites⟩ := bytesAt_append.1 hbody
  obtain ⟨hbody, -⟩ := bytesAt_append.1 hbody
  obtain ⟨-, hsession⟩ := bytesAt_append.1 hbody
  simp only [List.length_append, List.length_cons, List.length_nil, length_toBE, r.hello.version_length,
    r.hello.random_length] at hlength htype hsession hsuites hmethods htail
  refine ⟨hhead.getElem? (i := 0) (by simp), hhead.getElem? (i := 1) (by simp), hhead.getElem? (i := 2) (by simp),
    hlength, htype.byte, hsession.byte, ?_, ?_, ?_⟩
  · convert hsuites using 1
    omega
  · convert hmethods.byte using 2
    omega
  · convert htail using 1
    omega

end TunProxy.Tls
