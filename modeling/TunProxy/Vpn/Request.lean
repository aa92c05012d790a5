import TunProxy.Vpn.Host

/-!
# Requests of HTTP/1

A request as it is built from its parts (RFC 7230). What is ASCII by its grammar is a list of characters, the rest is
bytes.
-/

namespace TunProxy.Vpn

open Native (Bytes)

/-- What a charset like UTF-8 does with ASCII characters behind others: they are never taken for a part of these, and
none of these is decoded to one. -/
structure Charset.Separates (c : Charset) : Prop where
  append : ∀ l x m, x < 128 → c.decode (l ++ x :: m) = c.decode l ++ Char.ofNat x.toNat :: c.decode m
  beyond : ∀ l, (∀ x ∈ l, 128 ≤ x) → ∀ ch ∈ c.decode l, 128 ≤ ch.toNat

namespace Http

def asciiBytes (s : List Char) : Bytes := s.map fun ch => UInt8.ofNat ch.toNat

def crlf : List Char := ['\r', '\n']

/-- The methods that `parseHost` knows by their first letter. -/
inductive Method
  | GET | HEAD | POST | PUT | DELETE | OPTIONS | TRACE | CONNECT
  deriving DecidableEq, Repr

def Method.name : Method → List Char
  | GET => "GET".toList
  | HEAD => "HEAD".toList
  | POST => "POST".toList
  | PUT => "PUT".toList
  | DELETE => "DELETE".toList
  | OPTIONS => "OPTIONS".toList
  | TRACE => "TRACE".toList
  | CONNECT => "CONNECT".toList

def IsVisible (ch : Char) : Prop := '!' ≤ ch ∧ ch ≤ '~'

/-- In a line there is no end of a line. -/
def IsLine (l : Bytes) : Prop := 13 ∉ l ∧ 10 ∉ l

/-- The name of the field for the host, in any spelling. -/
def IsHost (name : List Char) : Prop := name.map Char.toLower = "host".toList

/-- A header field other than that for the host, its value with the blanks around it. -/
structure Field where
  name : List Char
  value : Bytes
  name_visible : ∀ ch ∈ name, IsVisible ch ∧ ch ≠ ':'
  not_host : ¬IsHost name
  isLine : IsLine value

def Field.line (f : Field) : Bytes := asciiBytes (f.name ++ [':']) ++ f.value

/-- The field for the host. Only an IP literal, which is in brackets, has colons. -/
structure HostField where
  name : List Char
  before : List Char
  host : List Char
  port : Option (List Char)
  after : List Char
  isHost : IsHost name
  blank_before : ∀ ch ∈ before, ch = ' ' ∨ ch = '\t'
  host_ne : host ≠ []
  host_visible : ∀ ch ∈ host, IsVisible ch
  host_colon : ':' ∈ host → host.getLast? = some ']'
  port_digits : ∀ p ∈ port, p ≠ [] ∧ ∀ ch ∈ p, ch.isDigit
  blank_after : ∀ ch ∈ after, ch = ' ' ∨ ch = '\t'

namespace HostField

def portPart (h : HostField) : List Char := h.port.elim [] (':' :: ·)

def text (h : HostField) : List Char := h.name ++ ':' :: (h.before ++ h.host ++ h.portPart ++ h.after)

def line (h : HostField) : Bytes := asciiBytes h.text

end HostField

/-- A request with one field for the host at most. -/
structure Request where
  method : Method
  target : Bytes
  minor : Char
  before : List Field
  host : Option HostField
  after : List Field
  body : Bytes
  target_line : IsLine target
  minor_digit : minor.isDigit

namespace Request

def requestLine (r : Request) : Bytes :=
  asciiBytes (r.method.name ++ [' ']) ++ r.target ++ asciiBytes (" HTTP/1.".toList ++ [r.minor])

def fieldLines (r : Request) : List Bytes :=
  r.before.map Field.line ++ r.host.toList.map HostField.line ++ r.after.map Field.line

/-- Lines with what ends each of them. -/
def unlines (lines : List Bytes) : Bytes := lines.flatMap (· ++ asciiBytes crlf)

def bytes (r : Request) : Bytes := unlines (r.requestLine :: r.fieldLines) ++ asciiBytes crlf ++ r.body

/-- The host that the header gives. -/
def givenHost (r : Request) : Option (List Char) := r.host.map HostField.host

end Request

/-! ## What the parser takes for the field of the host -/

/-- A line that is read as a host: one colon with a value behind it, and then nothing but colons. -/
def Gives (line host : List Char) : Prop :=
  ∃ name value colons, line = name ++ ':' :: (value ++ colons) ∧ ':' ∉ name ∧ ':' ∉ value ∧ value ≠ [] ∧
    (∀ ch ∈ colons, ch = ':') ∧ trim (name.map Char.toLower) = "host".toList ∧ trim value = host

/-- The first of the lines that is read as a host. -/
def FirstGives (lines : List (List Char)) (host : List Char) : Prop :=
  ∃ before line after, lines = before ++ line :: after ∧ (∀ l ∈ before, ∀ h, ¬Gives l h) ∧ Gives line host

/-- The methods whose requests are searched. -/
def Method.Searched (m : Method) : Prop := m = GET ∨ m = POST ∨ m = HEAD ∨ m = OPTIONS

instance (m : Method) : Decidable m.Searched := inferInstanceAs (Decidable (_ ∨ _))

/-- The lines of the body, which the parser does not tell from those of the header. -/
def Request.bodyLines (c : Charset) (r : Request) : List (List Char) := pieces crlf (c.decode r.body)

/-- When the host of the header is found: the field has no colon but the first, or the body happens to say the same.
Without a field for the host, nothing may be taken for one in the body. -/
def Request.Readable (c : Charset) (r : Request) : Prop :=
  match r.host with
  | none => r.method.Searched → ∀ line ∈ r.bodyLines c, ∀ h, ¬Gives line h
  | some f => r.method.Searched ∧ (':' ∉ f.host ∧ f.port = none ∨ FirstGives (r.bodyLines c) f.host)

end Http

end TunProxy.Vpn
