import TunProxy.Native.Lemmas.TlsBounds
import TunProxy.Tls.Theorems.ServerName
import TunProxy.Vpn.Lemmas.SniBounds

/-!
# The parsers stay inside the payload

The parsers that are told what they may read, and that they find the names that the parsers of records find.
-/

namespace TunProxy.Tls

open Native (Bytes FQDN_MAX parseTlsHeaderInto parseTlsHeaderInto_name)
open Lib.Bytes
open Vpn (Charset Range SniFault)

/-- `parse_tls_header` reads no byte outside the payload and writes to the first 256 bytes of `hostname`; `getSNI`
ends, and what it reads is inside the range that it is called for. -/
theorem parsers_stay_inside (data hostname : Bytes) (r : Range) (c : Charset) (h : FQDN_MAX + 1 ≤ hostname.length) :
    (∃ hostname', parseTlsHeaderInto data hostname = some hostname' ∧ hostname'.length = hostname.length ∧
      hostname'.drop (FQDN_MAX + 1) = hostname.drop (FQDN_MAX + 1)) ∧
    r.getSNI c ≠ .error .stray ∧ r.getSNI c ≠ .error .spins := by
  refine ⟨Native.parseTlsHeaderInto_fits data h, ?_, ?_⟩
  · intro hstray
    cases r.getSNI_bounded c _ hstray
  · intro hspins
    cases r.getSNI_bounded c _ hspins

/-- What they find is what the record says: the name is left in `hostname`, where that was an empty string, and
`getSNI` returns it. -/
theorem parsers_find {r : Record} {name : Option Bytes} (hn : r.hello.Names name) {hostname before after : Bytes}
    (h : FQDN_MAX + 1 ≤ hostname.length) (hempty : hostname.takeWhile (· ≠ 0) = []) (x : Range) (c : Charset)
    (hbytes : x.buffer.bytes = before ++ r.bytes ++ after) (hstart : x.start = before.length)
    (hcount : x.count = r.bytes.length) (hlen : x.buffer.bytes.length + 2 ^ 17 ≤ 2 ^ 31) :
    (∃ hostname', parseTlsHeaderInto r.bytes hostname = some hostname' ∧
      hostname'.takeWhile (· ≠ 0) = name.getD []) ∧
    x.getSNI c = .ok (name.map c.decode) := by
  refine ⟨parseTlsHeaderInto_name h hempty (parseTlsHeader_names hn), ?_⟩
  have hlt : x.start < x.buffer.bytes.length := by
    rw [hbytes, hstart, List.length_append, List.length_append, length_record]
    omega
  have hsame := x.getSNI_same c hlen hlt
  rwa [hbytes, hstart, hcount, getSNI_names hn (bytesAt_mid before r.bytes after)] at hsame

def sampleRange : Range where
  buffer := { bytes := [69] ++ recordSample.bytes ++ [0], length_le := by decide }
  start := 1
  count := recordSample.bytes.length
  inside := by decide

/-- A client hello with two extensions, of which the second one is `server_name`; the name is copied. -/
theorem parsers_stay_inside_sample :
    (∃ hostname', parseTlsHeaderInto recordSample.bytes (List.replicate 256 0) = some hostname' ∧
      hostname'.length = (List.replicate 256 (0 : UInt8)).length ∧
      hostname'.drop (FQDN_MAX + 1) = (List.replicate 256 (0 : UInt8)).drop (FQDN_MAX + 1)) ∧
    sampleRange.getSNI .usAscii ≠ .error .stray ∧ sampleRange.getSNI .usAscii ≠ .error .spins :=
  parsers_stay_inside recordSample.bytes (List.replicate 256 0) sampleRange .usAscii List.length_replicate.ge

example : (parseTlsHeaderInto recordSample.bytes (List.replicate 256 0)).map (·.takeWhile (· ≠ 0)) =
    some [97, 46, 98] ∧ sampleRange.getSNI .usAscii = .ok (some ['a', '.', 'b']) := by decide +kernel

end TunProxy.Tls
