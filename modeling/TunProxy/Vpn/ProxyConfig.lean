import TunProxy.Lib.Throws
import TunProxy.Vpn.ChinaIp
import TunProxy.Vpn.Nat

/-!
# The configuration

`ProxyConfig` of `tun.proxy.core`: the file that is loaded line by line, and the question whether a host needs the
proxy. A method that throws leaves what it did to the configuration before.
-/

namespace TunProxy.Vpn

/-! ## What the configuration uses of the library -/

/-- `java.net.InetSocketAddress`: `getHostName` and `toString`. -/
structure InetSocketAddress where
  hostName : List Char
  text : List Char
  deriving DecidableEq, Repr

inductive JavaException
  | numberFormat
  | indexOutOfBounds
  | illegalArgument
  deriving DecidableEq, Repr

structure Platform where
  /-- `toLowerCase` in the default locale. -/
  toLowerCase : List Char → List Char
  /-- `Character.digit` for decimal digits. -/
  digit : Char → Option Nat
  /-- `getHost` of `android.net.Uri.parse`. -/
  uriHost : List Char → Option (List Char)
  /-- `getPort` of it, which is -1 where there is none. -/
  uriPort : List Char → Int
  /-- The address that a host is resolved to, with the port. -/
  resolve : List Char → Int → InetSocketAddress
  toLowerCase_ascii : ∀ s, (∀ ch ∈ s, ch.toNat < 128) → toLowerCase s = s.map Char.toLower

namespace Platform

variable (p : Platform)

/-- `Integer.parseInt` without the sign. -/
def parseDigits (s : List Char) : Option Nat :=
  if s = [] then none else s.foldlM (fun n ch => (p.digit ch).map (10 * n + ·)) 0

/-- `Integer.parseInt`. -/
def parseInt (s : List Char) : Except JavaException Int :=
  let number : Option Int :=
    match s with
    | '-' :: s => (p.parseDigits s).map fun n => -n
    | '+' :: s => (p.parseDigits s).map fun n => n
    | s => (p.parseDigits s).map fun n => n
  match number with
  | some n => if -2 ^ 31 ≤ n ∧ n < 2 ^ 31 then .ok n else .error .numberFormat
  | none => .error .numberFormat

/-- `new InetSocketAddress(host, port)`. -/
def inetSocketAddress (host : Option (List Char)) (port : Int) : Except JavaException InetSocketAddress :=
  match host with
  | some host => if 0 ≤ port ∧ port ≤ 65535 then .ok (p.resolve host port) else .error .illegalArgument
  | none => .error .illegalArgument

end Platform

/-- The characters of `\s`. -/
def isSpace (ch : Char) : Bool := ch ∈ [' ', '\t', '\n', '\u000B', '\u000C', '\r']

/-- The pieces of a string between runs of blanks. -/
def wordPieces : List Char → List (List Char)
  | [] => [[]]
  | ch :: s =>
      if isSpace ch then [] :: wordPieces (s.dropWhile isSpace)
      else match wordPieces s with
        | [] => [[ch]]
        | p :: ps => (ch :: p) :: ps
termination_by s => s.length
decreasing_by
  · exact Nat.lt_succ_of_le (List.dropWhile_suffix _).length_le
  · exact Nat.lt_succ_self _

/-- `split("\\s+")`. -/
def splitWords (s : List Char) : List (List Char) :=
  match wordPieces s with
  | [p] => [p]
  | ps => ps.rdropWhile (·.isEmpty)

def startsWith (s : List Char) (first : String) : Bool := first.toList.isPrefixOf s

/-! ## Addresses -/

structure IPAddress where
  address : List Char
  prefixLength : Int
  deriving DecidableEq, Repr

/-- The constructor from a string. -/
def IPAddress.ofString (p : Platform) (s : List Char) : Except JavaException IPAddress :=
  match split ['/'] s with
  | [] => .error .indexOutOfBounds
  | [address] => .ok ⟨address, 32⟩
  | address :: length :: _ => do
      let prefixLength ← p.parseInt length
      return ⟨address, prefixLength⟩

/-! ## The state -/

structure ProxyConfig where
  ipList : List IPAddress
  dnsList : List IPAddress
  routeList : List IPAddress
  proxyList : List InetSocketAddress
  domainMap : AList fun _ : List Char => Bool
  globalMode : Bool
  dnsTtl : Int
  welcomeInfo : Option (List Char)
  sessionName : Option (List Char)
  userAgent : Option (List Char)
  outsideChinaUseProxy : Bool
  isolateHttpHostHeader : Bool
  mtu : Int

/-- The configuration before anything is loaded. -/
def ProxyConfig.initial : ProxyConfig where
  ipList := []
  dnsList := []
  routeList := []
  proxyList := []
  domainMap := ∅
  globalMode := false
  dnsTtl := 0
  welcomeInfo := none
  sessionName := none
  userAgent := none
  outsideChinaUseProxy := true
  isolateHttpHostHeader := true
  mtu := 0

/-- `ArrayList.add` behind `if (!list.contains(ip))`. -/
def addNew (list : List IPAddress) (ip : IPAddress) : List IPAddress := if ip ∈ list then list else list ++ [ip]

namespace ProxyConfig

def addIp (ip : IPAddress) (c : ProxyConfig) : ProxyConfig := { c with ipList := addNew c.ipList ip }
def addDns (ip : IPAddress) (c : ProxyConfig) : ProxyConfig := { c with dnsList := addNew c.dnsList ip }
def addRoute (ip : IPAddress) (c : ProxyConfig) : ProxyConfig := { c with routeList := addNew c.routeList ip }

/-- A proxy equals another one where they have the same text. -/
def addProxy (a : InetSocketAddress) (c : ProxyConfig) : ProxyConfig :=
  if c.proxyList.any (·.text = a.text) then c
  else { c with proxyList := c.proxyList ++ [a], domainMap := c.domainMap.insert a.hostName false }

def putDomain (name : List Char) (state : Bool) (c : ProxyConfig) : ProxyConfig :=
  { c with domainMap := c.domainMap.insert name state }

def clear (c : ProxyConfig) : ProxyConfig :=
  { c with ipList := [], dnsList := [], routeList := [], proxyList := [], domainMap := ∅ }

/-! ## Loading -/

/-- A method that changes the configuration, and may throw. -/
abbrev Load := EStateM JavaException ProxyConfig Unit

def orThrow {α : Type} (x : Except JavaException α) (f : α → Load) : Load :=
  match x with
  | .ok a => f a
  | .error e => throw e

/-- `addIPAddressToList`, with what adds to the list. -/
def addIPAddressToList (p : Platform) (add : IPAddress → ProxyConfig → ProxyConfig) : (items : List (List Char)) → Load
  | [] => pure ()
  | item :: items =>
      let item := p.toLowerCase (trim item)
      if startsWith item "#" then pure ()
      else orThrow (IPAddress.ofString p item) fun ip => do
        modify (add ip)
        addIPAddressToList p add items

/-- `HttpConnectConfig.parse`. -/
def parseProxy (p : Platform) (proxyInfo : List Char) : Except JavaException InetSocketAddress :=
  p.inetSocketAddress (p.uriHost proxyInfo) (p.uriPort proxyInfo)

/-- `addProxyToList` of a string. -/
def addProxyString (p : Platform) (proxyString : List Char) : Load :=
  let proxyString :=
    if startsWith (p.toLowerCase proxyString) "http://" then proxyString else "http://".toList ++ proxyString
  orThrow (parseProxy p proxyString) fun a => modify (addProxy a)

def addProxyToList (p : Platform) : (items : List (List Char)) → Load
  | [] => pure ()
  | item :: items => do
      addProxyString p (trim item)
      addProxyToList p items

/-- The name that a domain is put under: `charAt(0)` throws for an empty one. -/
def domainName (p : Platform) (item : List Char) : Except JavaException (List Char) :=
  match trim (p.toLowerCase item) with
  | [] => .error .indexOutOfBounds
  | ch :: name => if ch = '.' then .ok name else .ok (ch :: name)

def addDomainToHashMap (p : Platform) (state : Bool) : (items : List (List Char)) → Load
  | [] => pure ()
  | item :: items => orThrow (domainName p item) fun name => do
      modify (putDomain name state)
      addDomainToHashMap p state items

/-- No letter beyond ASCII has one of the words as its lower case. -/
def convertToBool (value : List Char) : Bool :=
  trim (value.map Char.toLower) ∈ ["on", "1", "true", "yes"].map String.toList

/-- `line.substring(line.indexOf(" ")).trim()`, which throws where the line has no space. -/
def afterSpace (line : List Char) : Except JavaException (List Char) :=
  if ' ' ∈ line then .ok (trim (line.dropWhile (· ≠ ' '))) else .error .indexOutOfBounds

/-- One line with the tag and the items behind it, of which `value` is the first. -/
def loadTag (p : Platform) (line tag value : List Char) (items : List (List Char)) : Load :=
  if tag = "ip".toList then addIPAddressToList p addIp items
  else if tag = "dns".toList then addIPAddressToList p addDns items
  else if tag = "route".toList then addIPAddressToList p addRoute items
  else if tag = "proxy".toList then addProxyToList p items
  else if tag = "direct_domain".toList then addDomainToHashMap p false items
  else if tag = "proxy_domain".toList then addDomainToHashMap p true items
  else if tag = "dns_ttl".toList then orThrow (p.parseInt value) fun n => modify ({ · with dnsTtl := n })
  else if tag = "welcome_info".toList then orThrow (afterSpace line) fun s => modify ({ · with welcomeInfo := some s })
  else if tag = "session_name".toList then modify ({ · with sessionName := some value })
  else if tag = "user_agent".toList then orThrow (afterSpace line) fun s => modify ({ · with userAgent := some s })
  else if tag = "outside_china_use_proxy".toList then modify ({ · with outsideChinaUseProxy := convertToBool value })
  else if tag = "isolate_http_host_header".toList then modify ({ · with isolateHttpHostHeader := convertToBool value })
  else if tag = "mtu".toList then orThrow (p.parseInt value) fun n => modify ({ · with mtu := n })
  else pure ()

/-- What `loadFromLines` throws: the message has the number and the tag of the line, unless `tryAddProxy` throws. -/
inductive LoadError
  | line (lineNumber : Nat) (tag : List Char) (e : JavaException)
  | exception (e : JavaException)
  deriving DecidableEq, Repr

/-- The loop over the lines. -/
def loadLines (p : Platform) : (lineNumber : Nat) → (lines : List (List Char)) → EStateM LoadError ProxyConfig Unit
  | _, [] => pure ()
  | lineNumber, line :: lines =>
      match splitWords line with
      | first :: value :: items => do
          let tag := trim (first.map Char.toLower)
          if !startsWith tag "#" then
            (loadTag p line tag value (value :: items)).adaptExcept (.line lineNumber tag)
          loadLines p (lineNumber + 1) lines
      | _ => loadLines p (lineNumber + 1) lines

/-- The first group of the pattern: the blanks before it give the last of them back where nothing else is left. -/
def hostGroup (blanks host : List Char) : List Char :=
  if host = [] then blanks.drop (max 1 (blanks.length - 1)) else host

/-- `proxy\s+([^:]+):(\d+)` at the beginning of a string, in any case: the two groups and what follows. -/
def matchProxy (s : List Char) : Option (List Char × List Char × List Char) :=
  if (s.take 5).map Char.toLower = "proxy".toList then
    let blanks := (s.drop 5).takeWhile isSpace
    let rest := (s.drop 5).dropWhile isSpace
    let host := hostGroup blanks (rest.takeWhile (· ≠ ':'))
    let rest := (rest.dropWhile (· ≠ ':')).drop 1
    let port := rest.takeWhile Char.isDigit
    if blanks ≠ [] ∧ host ≠ [] ∧ port ≠ [] then some (host, port, rest.dropWhile Char.isDigit) else none
  else none

theorem matchProxy_lt {s host port rest : List Char} (h : matchProxy s = some (host, port, rest)) :
    rest.length < s.length := by
  simp only [matchProxy] at h
  split at h
  · generalize hr : (((s.drop 5).dropWhile isSpace).dropWhile (· ≠ ':')).drop 1 = r at h
    split at h
    · rename_i hne
      cases h
      have hle : r.length ≤ s.length := by
        rw [← hr, List.length_drop]
        have h₁ := (List.dropWhile_suffix (l := (s.drop 5).dropWhile isSpace) (· ≠ ':')).length_le
        have h₂ := (List.dropWhile_suffix (l := s.drop 5) isSpace).length_le
        rw [List.length_drop] at h₂
        omega
      have hsum := congrArg List.length (List.takeWhile_append_dropWhile (p := Char.isDigit) (l := r))
      have hpos := List.length_pos_iff.2 hne.2.2
      rw [List.length_append] at hsum
      omega
    · cases h
  · cases h

/-- The matches that `find` goes through. -/
def findProxies (s : List Char) : List (List Char × List Char) :=
  match _h : matchProxy s with
  | some (host, port, rest) => (host, port) :: findProxies rest
  | none =>
      match s with
      | [] => []
      | _ :: s => findProxies s
termination_by s.length
decreasing_by
  · exact matchProxy_lt ‹_›
  · exact Nat.lt_succ_self _

def addFoundProxies (p : Platform) : (found : List (List Char × List Char)) → Load
  | [] => pure ()
  | (host, port) :: found =>
      orThrow (p.parseInt port) fun port =>
        orThrow (p.inetSocketAddress (some host) port) fun a => do
          modify (addProxy a)
          addFoundProxies p found

/-- `tryAddProxy`. -/
def tryAddProxy (p : Platform) (lines : List (List Char)) : Load := addFoundProxies p (lines.flatMap findProxies)

def loadFromLines (p : Platform) (lines : List (List Char)) : EStateM LoadError ProxyConfig Unit := do
  modify clear
  loadLines p 1 lines
  if (← get).proxyList = [] then (tryAddProxy p lines).adaptExcept .exception

/-! ## The question -/

/-- The loop of `getDomainState`. The index of a dot that is absent is the length. -/
def domainState (map : AList fun _ : List Char => Bool) (domain : List Char) : Option Bool :=
  if 0 < domain.length then
    match map.lookup domain with
    | some state => some state
    | none =>
        let start := domain.idxOf '.' + 1
        if start < domain.length then domainState map (domain.drop start) else none
  else none
termination_by domain.length
decreasing_by simp only [List.length_drop]; omega

def getDomainState (p : Platform) (c : ProxyConfig) (domain : List Char) : Option Bool :=
  domainState c.domainMap (p.toLowerCase domain)

def needProxy (p : Platform) (c : ProxyConfig) (china : ChinaIpMaskManager) (host : Option (List Char))
    (ip : BitVec 32) : Bool :=
  if c.globalMode then true
  else
    match host.bind (getDomainState p c) with
    | some state => state
    | none =>
        if isFakeIP ip then true
        else if c.outsideChinaUseProxy ∧ ip ≠ 0 then !china.isIPInChina ip
        else false

end ProxyConfig

end TunProxy.Vpn
