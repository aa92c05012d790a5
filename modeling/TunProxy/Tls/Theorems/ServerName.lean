import TunProxy.Native.Tls
import TunProxy.Tls.Hello
import TunProxy.Vpn.Lemmas.Packet
import TunProxy.Vpn.Host

/-!
# Both parsers find the server name

`parse_tls_header` of the native code and `getSNI` of the Java code, on a record that holds one client hello.
-/

namespace TunProxy.Tls

open Native (Bytes parseTlsHeader parseExtensions parseServerNameExtension readU16 readString)
open Vpn (Charset)
open Vpn.HttpHostHeaderParser (getSNI sniOfExtensions newString)
open Vpn.CommonMethods (readShort)
open Lib.Bytes

variable {data buffer : Bytes} {pos base n : Nat} {r : Record} {host : Bytes} {es : List Extension} {e : Extension}
  {c : Charset}

/-! ## Numbers -/

theorem bytes_of (h : BytesAt data pos (toBE 2 n)) (hn : n < 2 ^ 16) :
    ∃ x y : UInt8, data[pos]? = some x ∧ data[pos + 1]? = some y ∧ x.toNat * 256 + y.toNat = n := by
  refine ⟨_, _, h.getElem? (i := 0) (by simp), h.getElem? (i := 1) (by simp), ?_⟩
  simp only [UInt8.toNat_ofNat']
  omega

theorem readU16_of (h : BytesAt data pos (toBE 2 n)) (hn : n < 2 ^ 16) : readU16 data pos = some n := by
  obtain ⟨x, y, hx, hy, rfl⟩ := bytes_of h hn
  rw [readU16, hx, hy]
  rfl

theorem readShort_of (h : BytesAt data pos (toBE 2 n)) (hn : n < 2 ^ 16) :
    readShort data pos = some (BitVec.ofNat 16 n) := by
  have hle := h.1
  have hs := h.2
  rw [length_toBE] at hle hs
  rw [Vpn.CommonMethods.readShort_eq hle, hs, ofBE_toBE, Nat.mod_eq_of_lt (show n < 256 ^ 2 from hn)]

theorem block_cons (e : Extension) (es : List Extension) : block (e :: es) = e.bytes ++ block es := List.flatMap_cons

/-- The fields of an extension. -/
theorem extension_at (h : BytesAt data pos e.bytes) : BytesAt data pos (toBE 2 e.type.toNat) ∧
    BytesAt data (pos + 2) (toBE 2 e.data.length) ∧ BytesAt data (pos + 4) e.data := by
  obtain ⟨h, hdata⟩ := bytesAt_append.1 h
  obtain ⟨htype, hlength⟩ := bytesAt_append.1 h
  simp only [List.length_append, length_toBE] at hlength hdata
  exact ⟨htype, hlength, hdata⟩

/-- The fields of the list with the server name. -/
theorem serverNameList_at (h : BytesAt data pos (serverNameList host)) :
    data[pos + 2]? = some 0x00 ∧ BytesAt data (pos + 3) (toBE 2 host.length) ∧ BytesAt data (pos + 5) host := by
  obtain ⟨h, hhost⟩ := bytesAt_append.1 h
  obtain ⟨h, hlength⟩ := bytesAt_append.1 h
  obtain ⟨-, htype⟩ := bytesAt_append.1 h
  simp only [List.length_append, length_toBE, List.length_singleton] at htype hlength hhost
  exact ⟨htype.byte, hlength, hhost⟩

theorem length_serverNameList (host : Bytes) : (serverNameList host).length = 5 + host.length := by
  simp only [serverNameList, List.length_append, length_toBE, List.length_singleton]

theorem type_ne_zero (h : e.type ≠ 0) : e.type.toNat ≠ 0 := fun h₀ => h (BitVec.toNat_inj.1 h₀)

/-! ## The native parser -/

theorem parseServerName_host (hh : IsHostName host) (h : BytesAt data base (serverNameList host)) :
    parseServerNameExtension data base (serverNameList host).length (serverNameList host).length 2 = some host := by
  obtain ⟨htype, hlength, hhost⟩ := serverNameList_at h
  have hpos := hh.length_pos
  have hle := hh.length_le
  have hstring : readString data (base + 2 + 3) (min host.length Native.FQDN_MAX) = some host := by
    rw [show min host.length Native.FQDN_MAX = host.length from Nat.min_eq_left hle, readString, if_pos hhost.1]
    have hs : (data.drop (base + 2 + 3)).take host.length = host := hhost.2
    rw [hs, List.takeWhile_eq_self_iff.2 fun x hx => by simpa using (hh.ascii x hx).1]
  rw [length_serverNameList, Nat.add_comm 5, parseServerNameExtension, if_pos (by omega),
    show base + 2 + 1 = base + 3 by omega, readU16_of hlength (by omega)]
  simp only [Option.bind_eq_bind, Option.bind_some, htype]
  rw [if_neg (by omega), if_pos trivial]
  exact hstring

/-- The other extensions are skipped. -/
theorem parseExtensions_skip {dataLen rounds : Nat} {rest : Bytes} (hes : ∀ e ∈ es, e.type ≠ 0)
    (h : BytesAt data (base + pos) (block es ++ rest)) (hle : pos + (block es).length ≤ dataLen)
    (hr : es.length ≤ rounds) :
    parseExtensions data base dataLen rounds pos
      = parseExtensions data base dataLen (rounds - es.length) (pos + (block es).length) := by
  induction es generalizing pos rounds with
  | nil => rfl
  | cons e es ih =>
      obtain ⟨k, rfl⟩ : ∃ k, rounds = k + 1 := ⟨rounds - 1, by simp only [List.length_cons] at hr; omega⟩
      rw [block_cons, List.append_assoc] at h
      rw [block_cons, List.length_append, e.length_bytes] at hle
      obtain ⟨he, hrest⟩ := bytesAt_append.1 h
      obtain ⟨htype, hlength, -⟩ := extension_at he
      rw [e.length_bytes] at hrest
      have hlt := e.length_lt
      have hne := type_ne_zero (hes e List.mem_cons_self)
      rw [parseExtensions, if_pos (by omega), readU16_of hlength (by omega), readU16_of htype e.type.isLt]
      simp only [Option.bind_eq_bind, Option.bind_some]
      rw [if_neg hne, ih (fun e he => hes e (List.mem_cons_of_mem _ he))
        (by convert hrest using 1; omega) (by omega) (by simp only [List.length_cons] at hr; omega)]
      rw [block_cons, List.length_append, e.length_bytes, List.length_cons]
      congr 1
      · omega
      · omega

theorem length_le_block (es : List Extension) : es.length ≤ (block es).length := by
  induction es with
  | nil => exact Nat.zero_le _
  | cons e es ih =>
      rw [block_cons, List.length_append, e.length_bytes, List.length_cons]
      omega

theorem parseExtensions_none (hes : ∀ e ∈ es, e.type ≠ 0) (h : BytesAt data base (block es)) :
    parseExtensions data base (block es).length (block es).length 0 = some [] := by
  have hblock : BytesAt data (base + 0) (block es ++ []) := by rwa [List.append_nil]
  rw [parseExtensions_skip hes hblock (by omega) (length_le_block es)]
  cases (block es).length - es.length with
  | zero => rfl
  | succ k => rw [parseExtensions, if_neg (by omega)]

theorem parseExtensions_host {before after : List Extension} (hh : IsHostName host) (hbefore : ∀ e ∈ before, e.type ≠ 0)
    (htype : e.type = 0) (hdata : e.data = serverNameList host) (h : BytesAt data base (block (before ++ e :: after))) :
    parseExtensions data base (block (before ++ e :: after)).length (block (before ++ e :: after)).length 0
      = some host := by
  have hblock : block (before ++ e :: after) = block before ++ (e.bytes ++ block after) := by
    rw [block, List.flatMap_append, List.flatMap_cons]
    rfl
  have hlen :
    (block (before ++ e :: after)).length = (block before).length + (4 + e.data.length) + (block after).length := by
    rw [hblock, List.length_append, List.length_append, e.length_bytes]
    omega
  rw [hblock] at h
  have hle := length_le_block before
  rw [parseExtensions_skip hbefore h (by omega) (by omega), hlen]
  obtain ⟨-, h⟩ := bytesAt_append.1 h
  obtain ⟨he, -⟩ := bytesAt_append.1 h
  obtain ⟨ht, hl, hd⟩ := extension_at he
  obtain ⟨k, hk⟩ : ∃ k, (block before).length + (4 + e.data.length) + (block after).length - before.length = k + 1 :=
    ⟨_, (Nat.succ_pred_eq_of_pos (by omega)).symm⟩
  have hlt := e.length_lt
  rw [hk, Nat.zero_add, parseExtensions, if_pos (by omega), readU16_of hl (by omega), readU16_of ht e.type.isLt]
  simp only [Option.bind_eq_bind, Option.bind_some]
  rw [if_pos (by rw [htype]; rfl), if_neg (by omega)]
  rw [hdata] at hd ⊢
  exact parseServerName_host hh hd

theorem tail_some {h : ClientHello} (hes : h.extensions = some es) :
    h.tail = toBE 2 (block es).length ++ block es ∧ h.tail.length = 2 + (block es).length := by
  have ht : h.tail = toBE 2 (block es).length ++ block es := by rw [ClientHello.tail, hes]
  exact ⟨ht, by rw [ht, List.length_append, length_toBE]⟩

/-- The fields before the extensions are as they should be. -/
theorem parseTlsHeader_record (r : Record) : parseTlsHeader r.bytes =
    match r.hello.extensions with
    | none => some []
    | some es =>
        parseExtensions r.bytes (r.bytes.length - (block es).length) (block es).length (block es).length 0 := by
  have hwhole : BytesAt r.bytes 0 r.bytes := ⟨by rw [Nat.zero_add], slice_full rfl⟩
  obtain ⟨htype, hmajor, hminor, hlength, hclient, hsession, hsuites, hmethods, htail⟩ := r.layout hwhole
  have hrecord := length_record r
  have hhandshake := length_handshake r.hello
  have hlt := r.length_lt
  have h₁ := r.hello.sessionId_length
  have h₂ := r.hello.cipherSuites_length
  have h₃ := r.hello.compressionMethods_length
  simp only [Nat.zero_add] at htype hmajor hminor hlength hclient hsession hsuites hmethods htail
  have hsession' := UInt8.toNat_ofNat_of_lt' h₁
  have hmethods' := UInt8.toNat_ofNat_of_lt' h₃
  have hmin : min r.bytes.length (r.hello.handshake.length + 5) = r.bytes.length := by omega
  simp only [parseTlsHeader, Native.TLS_HEADER_LEN, htype, hmajor, hminor, readU16_of hlength hlt, hclient, hsession,
    Option.bind_eq_bind, Option.bind_some, hsession', hmin]
  rw [if_neg (by omega), if_neg (fun h => h.1 (by decide)), if_neg (fun h => h rfl), if_neg (by decide),
    if_neg (by omega), if_neg (by omega), if_neg (fun h => h rfl), if_neg (by omega)]
  generalize r.hello.sessionId.length = sid, r.hello.cipherSuites.length = cs,
    r.hello.compressionMethods.length = cm at *
  rw [if_neg (by omega), show 5 + 38 + 1 + sid = 44 + sid by omega, readU16_of hsuites h₂]
  simp only [Option.bind_some]
  rw [if_neg (by omega), show 44 + sid + 2 + cs = 46 + sid + cs by omega, hmethods]
  simp only [Option.bind_some, hmethods']
  rw [show 46 + sid + cs + 1 + cm = 47 + sid + cs + cm by omega]
  cases hext : r.hello.extensions with
  | none =>
      have htl : r.hello.tail.length = 0 := by rw [ClientHello.tail, hext]; rfl
      split
      · rfl
      · rw [if_pos (by omega)]
        rfl
  | some es =>
      obtain ⟨htl, hlen⟩ := tail_some hext
      rw [htl] at htail
      obtain ⟨hblock, -⟩ := bytesAt_append.1 htail
      rw [if_neg (by omega), if_neg (by omega), readU16_of hblock (by omega)]
      simp only [Option.bind_some]
      rw [if_neg (by omega), show 47 + sid + cs + cm + 2 = r.bytes.length - (block es).length by omega]

/-- Where the extensions lie. -/
theorem block_at (h : BytesAt data pos r.bytes) (hes : r.hello.extensions = some es) :
    BytesAt data (pos + (r.bytes.length - (block es).length)) (block es) ∧ (block es).length ≤ r.bytes.length := by
  have hl := r.layout h
  have hrecord := length_record r
  have hhandshake := length_handshake r.hello
  obtain ⟨htl, hlen⟩ := tail_some hes
  have htail := hl.tail
  rw [htl] at htail
  obtain ⟨-, hblock⟩ := bytesAt_append.1 htail
  rw [length_toBE] at hblock
  refine ⟨?_, by omega⟩
  convert hblock using 1
  omega

theorem parseTlsHeader_names {name : Option Bytes} (h : r.hello.Names name) :
    parseTlsHeader r.bytes = some (name.getD []) := by
  have hwhole : BytesAt r.bytes 0 r.bytes := ⟨by rw [Nat.zero_add], slice_full rfl⟩
  rw [parseTlsHeader_record]
  cases name with
  | none =>
      cases hes : r.hello.extensions with
      | none => rfl
      | some es =>
          rw [ClientHello.Names, hes] at h
          obtain ⟨hblock, -⟩ := block_at hwhole hes
          rw [Nat.zero_add] at hblock
          exact parseExtensions_none h hblock
  | some host =>
      obtain ⟨hh, before, e, after, hes, hother, htype, hdata⟩ := h
      obtain ⟨hblock, -⟩ := block_at hwhole hes
      rw [Nat.zero_add] at hblock
      rw [hes]
      exact parseExtensions_host hh (fun e he => hother e (List.mem_append_left _ he)) htype hdata hblock

/-! ## The Java parser -/

theorem sniOfExtensions_skip {limit : Nat} {rest : Bytes} (hes : ∀ e ∈ es, e.type ≠ 0)
    (h : BytesAt buffer pos (block es ++ rest)) (hle : pos + (block es).length ≤ limit) :
    sniOfExtensions c buffer limit pos = sniOfExtensions c buffer limit (pos + (block es).length) := by
  induction es generalizing pos with
  | nil => rfl
  | cons e es ih =>
      rw [block_cons, List.append_assoc] at h
      rw [block_cons, List.length_append, e.length_bytes] at hle
      obtain ⟨he, hrest⟩ := bytesAt_append.1 h
      obtain ⟨htype, hlength, -⟩ := extension_at he
      rw [e.length_bytes] at hrest
      have hlt := e.length_lt
      have hne := type_ne_zero (hes e List.mem_cons_self)
      obtain ⟨x, y, hx, hy, hxy⟩ := bytes_of htype e.type.isLt
      have hn : (BitVec.ofNat 16 e.data.length).toNat = e.data.length := by
        rw [BitVec.toNat_ofNat]
        exact Nat.mod_eq_of_lt hlt
      rw [sniOfExtensions, if_pos (by omega), hx, hy, readShort_of hlength hlt]
      simp only [Option.bind_eq_bind, Option.bind_some, hn]
      rw [if_neg, ih (fun e he => hes e (List.mem_cons_of_mem _ he)) (by convert hrest using 1; omega) (by omega),
        block_cons, List.length_append, e.length_bytes]
      · congr 1
        omega
      · rintro ⟨rfl, rfl, -⟩
        exact hne hxy.symm

theorem sniOfExtensions_end {limit : Nat} (h : limit < pos + 4) : sniOfExtensions c buffer limit pos = some none := by
  rw [sniOfExtensions, if_neg (by omega)]

theorem sniOfExtensions_host {limit : Nat} {before after : List Extension} (hh : IsHostName host)
    (hbefore : ∀ e ∈ before, e.type ≠ 0) (htype : e.type = 0) (hdata : e.data = serverNameList host)
    (h : BytesAt buffer pos (block (before ++ e :: after)))
    (hle : pos + (block (before ++ e :: after)).length ≤ limit) :
    sniOfExtensions c buffer limit pos = some (some (c.decode host)) := by
  have hblock : block (before ++ e :: after) = block before ++ (e.bytes ++ block after) := by
    rw [block, List.flatMap_append, List.flatMap_cons]
    rfl
  rw [hblock] at h
  rw [hblock, List.length_append, List.length_append, e.length_bytes] at hle
  rw [sniOfExtensions_skip hbefore h (by omega)]
  obtain ⟨-, h⟩ := bytesAt_append.1 h
  obtain ⟨he, -⟩ := bytesAt_append.1 h
  obtain ⟨ht, hl, hd⟩ := extension_at he
  obtain ⟨x, y, hx, hy, hxy⟩ := bytes_of ht e.type.isLt
  have hlt := e.length_lt
  have hn : (BitVec.ofNat 16 e.data.length).toNat = e.data.length := by
    rw [BitVec.toNat_ofNat]
    exact Nat.mod_eq_of_lt hlt
  have hzero : x = 0 ∧ y = 0 := by
    rw [htype] at hxy
    have hxy : x.toNat * 256 + y.toNat = 0 := hxy
    exact ⟨UInt8.toNat_inj.1 (show x.toNat = 0 by omega), UInt8.toNat_inj.1 (show y.toNat = 0 by omega)⟩
  rw [hdata] at hd
  obtain ⟨-, -, hhost⟩ := serverNameList_at hd
  have hlen := congrArg List.length hdata
  rw [length_serverNameList] at hlen
  have hpos := hh.length_pos
  have hstring : newString c buffer (pos + (block before).length + 9) (e.data.length - 5) = some (c.decode host) := by
    have hs : (buffer.drop (pos + (block before).length + 9)).take host.length = host := hhost.2
    rw [newString, hlen, Nat.add_sub_cancel_left, if_pos hhost.1, hs]
  rw [sniOfExtensions, if_pos (by omega), hx, hy, readShort_of hl hlt]
  simp only [Option.bind_eq_bind, Option.bind_some, hn]
  rw [if_pos ⟨hzero.1, hzero.2, by omega⟩, if_neg (by omega), hstring]
  rfl

/-- The fields before the extensions are as they should be. -/
theorem getSNI_record (h : BytesAt buffer pos r.bytes) : getSNI c buffer pos r.bytes.length =
    match r.hello.extensions with
    | none => some none
    | some es => sniOfExtensions c buffer (pos + r.bytes.length) (pos + (r.bytes.length - (block es).length)) := by
  obtain ⟨htype, -, -, -, -, hsession, hsuites, hmethods, htail⟩ := r.layout h
  have hrecord := length_record r
  have hhandshake := length_handshake r.hello
  have hlt := r.length_lt
  have h₁ := r.hello.sessionId_length
  have h₂ := r.hello.cipherSuites_length
  have h₃ := r.hello.compressionMethods_length
  have hsession' := UInt8.toNat_ofNat_of_lt' h₁
  have hmethods' := UInt8.toNat_ofNat_of_lt' h₃
  have hn : ∀ {n : Nat}, n < 2 ^ 16 → (BitVec.ofNat 16 n).toNat = n := fun hn => by
    rw [BitVec.toNat_ofNat]
    exact Nat.mod_eq_of_lt hn
  rw [getSNI]
  simp only [htype, hsession, Option.bind_eq_bind, Option.bind_some, hsession']
  generalize r.hello.sessionId.length = sid, r.hello.cipherSuites.length = cs,
    r.hello.compressionMethods.length = cm at *
  rw [if_pos ⟨by omega, trivial⟩, if_neg (by omega), if_neg (by omega),
    show pos + 43 + 1 + sid = pos + 44 + sid by omega,
    readShort_of hsuites h₂]
  simp only [Option.bind_some, hn h₂]
  rw [if_neg (by omega), show pos + 44 + sid + 2 + cs = pos + 46 + sid + cs by omega, hmethods]
  simp only [Option.bind_some, hmethods']
  rw [show pos + 46 + sid + cs + 1 + cm = pos + 47 + sid + cs + cm by omega]
  cases hext : r.hello.extensions with
  | none =>
      have htl : r.hello.tail.length = 0 := by rw [ClientHello.tail, hext]; rfl
      rw [if_pos (by omega)]
      rfl
  | some es =>
      obtain ⟨htl, hlen⟩ := tail_some hext
      rw [htl] at htail
      obtain ⟨hblock, -⟩ := bytesAt_append.1 htail
      rw [if_neg (by omega), if_neg (by omega), readShort_of hblock (by omega)]
      simp only [Option.bind_some, hn (show (block es).length < 2 ^ 16 by omega)]
      rw [if_neg (by omega),
        show pos + 47 + sid + cs + cm + 2 = pos + (r.bytes.length - (block es).length) by omega]

theorem getSNI_names {name : Option Bytes} (hn : r.hello.Names name) (h : BytesAt buffer pos r.bytes) :
    getSNI c buffer pos r.bytes.length = some (name.map c.decode) := by
  rw [getSNI_record h]
  cases name with
  | none =>
      cases hes : r.hello.extensions with
      | none => rfl
      | some es =>
          rw [ClientHello.Names, hes] at hn
          have hn : ∀ e ∈ es, e.type ≠ 0 := hn
          obtain ⟨hblock, hle⟩ := block_at h hes
          have hblock : BytesAt buffer (pos + (r.bytes.length - (block es).length)) (block es ++ []) := by
            rwa [List.append_nil]
          dsimp only
          rw [sniOfExtensions_skip hn hblock (by omega), sniOfExtensions_end (by omega)]
          rfl
  | some host =>
      obtain ⟨hh, before, e, after, hes, hother, htype, hdata⟩ := hn
      obtain ⟨hblock, hle⟩ := block_at h hes
      rw [hes]
      exact sniOfExtensions_host hh (fun e he => hother e (List.mem_append_left _ he)) htype hdata hblock (by omega)

/-! ## Both parsers -/

theorem decode_ascii (c : Charset) (h : ∀ x ∈ host, x < 128) :
    c.decode host = host.map (fun x => Char.ofNat x.toNat) := by
  induction host with
  | nil => exact List.eq_nil_of_length_eq_zero (Nat.le_zero.1 (c.length_le []))
  | cons x host ih =>
      rw [c.ascii x host (h x List.mem_cons_self), ih fun x hx => h x (List.mem_cons_of_mem _ hx), List.map_cons]

/-- For a record that holds a client hello, wherever it lies in the buffer of the Java code: the native parser leaves
the name in the buffer that was empty, and the Java code returns the same name as a string. -/
theorem serverName_agree {name : Option Bytes} (h : r.hello.Names name) (c : Charset) (before after : Bytes) :
    parseTlsHeader r.bytes = some (name.getD []) ∧
      getSNI c (before ++ r.bytes ++ after) before.length r.bytes.length
        = some (name.map fun host => host.map fun x => Char.ofNat x.toNat) := by
  refine ⟨parseTlsHeader_names h, ?_⟩
  rw [getSNI_names h (bytesAt_mid before r.bytes after)]
  cases name with
  | none => rfl
  | some host =>
      obtain ⟨hh, -⟩ := h
      simp only [Option.map_some, decode_ascii c fun x hx => (hh.ascii x hx).2]

/-- A client hello with the extensions `extended_master_secret` and `server_name`, for the host `a.b`. -/
def helloSample : ClientHello where
  version := [3, 3]
  random := List.replicate 32 7
  sessionId := []
  cipherSuites := [0x13, 0x01]
  compressionMethods := [0]
  extensions := some [{ type := 10, data := [0, 2, 0, 29], length_lt := by decide },
    { type := 0, data := serverNameList [97, 46, 98], length_lt := by decide }]
  version_length := rfl
  random_length := rfl
  sessionId_length := by decide
  cipherSuites_length := by decide
  compressionMethods_length := by decide

def recordSample : Record where
  minor := 1
  hello := helloSample
  length_lt := by decide

theorem recordSample_names : recordSample.hello.Names (some [97, 46, 98]) :=
  ⟨⟨by decide, by decide, by simp⟩, [{ type := 10, data := [0, 2, 0, 29], length_lt := by decide }],
    { type := 0, data := serverNameList [97, 46, 98], length_lt := by decide }, [], rfl, by simp, rfl, rfl⟩

theorem serverName_agree_sample :
    parseTlsHeader recordSample.bytes = some [97, 46, 98] ∧
      getSNI .usAscii ([69] ++ recordSample.bytes ++ [0]) 1 recordSample.bytes.length = some (some ['a', '.', 'b']) :=
  serverName_agree recordSample_names .usAscii [69] [0]

end TunProxy.Tls
