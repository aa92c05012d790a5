import TunProxy.Vpn.ProxyConfig

/-!
# What a configuration file says

A file as the list of the updates that its lines ask for, up to the first thing in it that is rejected.
-/

namespace TunProxy.Vpn

/-! ## Updates -/

/-- The three lists of addresses. -/
inductive AddressList
  | ip | dns | route
  deriving DecidableEq, Repr

/-- The settings that have one value. -/
inductive Kind
  | dnsTtl | welcomeInfo | sessionName | userAgent | outsideChinaUseProxy | isolateHttpHostHeader | mtu
  deriving DecidableEq, Repr

inductive Setting
  | dnsTtl (n : Int)
  | welcomeInfo (s : Option (List Char))
  | sessionName (s : Option (List Char))
  | userAgent (s : Option (List Char))
  | outsideChinaUseProxy (b : Bool)
  | isolateHttpHostHeader (b : Bool)
  | mtu (n : Int)
  deriving DecidableEq, Repr

def Setting.kind : Setting → Kind
  | .dnsTtl _ => .dnsTtl
  | .welcomeInfo _ => .welcomeInfo
  | .sessionName _ => .sessionName
  | .userAgent _ => .userAgent
  | .outsideChinaUseProxy _ => .outsideChinaUseProxy
  | .isolateHttpHostHeader _ => .isolateHttpHostHeader
  | .mtu _ => .mtu

def Setting.apply : Setting → ProxyConfig → ProxyConfig
  | .dnsTtl n, c => { c with dnsTtl := n }
  | .welcomeInfo s, c => { c with welcomeInfo := s }
  | .sessionName s, c => { c with sessionName := s }
  | .userAgent s, c => { c with userAgent := s }
  | .outsideChinaUseProxy b, c => { c with outsideChinaUseProxy := b }
  | .isolateHttpHostHeader b, c => { c with isolateHttpHostHeader := b }
  | .mtu n, c => { c with mtu := n }

inductive Update
  | address (l : AddressList) (ip : IPAddress)
  | proxy (a : InetSocketAddress)
  | domain (name : List Char) (state : Bool)
  | set (s : Setting)
  deriving DecidableEq, Repr

def Update.apply : Update → ProxyConfig → ProxyConfig
  | .address .ip ip => ProxyConfig.addIp ip
  | .address .dns ip => ProxyConfig.addDns ip
  | .address .route ip => ProxyConfig.addRoute ip
  | .proxy a => ProxyConfig.addProxy a
  | .domain name state => ProxyConfig.putDomain name state
  | .set s => s.apply

def applyAll (us : List Update) (c : ProxyConfig) : ProxyConfig := us.foldl (fun c u => u.apply c) c

/-! ## Reading a file -/

/-- The updates before the first rejection, and the rejection if there is one. -/
structure Reading (ε : Type) where
  updates : List Update
  rejected : Option ε

namespace Reading

variable {ε ε' : Type}

def done : Reading ε := ⟨[], none⟩

def andThen (r s : Reading ε) : Reading ε :=
  match r.rejected with
  | none => ⟨r.updates ++ s.updates, s.rejected⟩
  | some _ => r

def mapError (f : ε → ε') (r : Reading ε) : Reading ε' := ⟨r.updates, r.rejected.map f⟩

/-- One update for each item. -/
def ofItems {α : Type} (parse : α → Except ε Update) : List α → Reading ε
  | [] => done
  | item :: items =>
      match parse item with
      | .ok u => ⟨u :: (ofItems parse items).updates, (ofItems parse items).rejected⟩
      | .error e => ⟨[], some e⟩

/-- A line with one value. -/
def ofValue (x : Except ε Setting) : Reading ε := ofItems (fun x => x.map Update.set) [x]

end Reading

open ProxyConfig

/-- Addresses up to a comment. -/
def readAddresses (p : Platform) (l : AddressList) (items : List (List Char)) : Reading JavaException :=
  .ofItems (fun item => (IPAddress.ofString p (p.toLowerCase (trim item))).map (.address l))
    (items.takeWhile fun item => !startsWith (p.toLowerCase (trim item)) "#")

/-- A proxy, with `http://` in front or without. -/
def readProxy (p : Platform) (item : List Char) : Except JavaException Update :=
  let proxyString := trim item
  (parseProxy p (if startsWith (p.toLowerCase proxyString) "http://" then proxyString
    else "http://".toList ++ proxyString)).map .proxy

def readTag (p : Platform) (line tag value : List Char) (items : List (List Char)) : Reading JavaException :=
  if tag = "ip".toList then readAddresses p .ip items
  else if tag = "dns".toList then readAddresses p .dns items
  else if tag = "route".toList then readAddresses p .route items
  else if tag = "proxy".toList then .ofItems (readProxy p) items
  else if tag = "direct_domain".toList then .ofItems (fun item => (domainName p item).map (.domain · false)) items
  else if tag = "proxy_domain".toList then .ofItems (fun item => (domainName p item).map (.domain · true)) items
  else if tag = "dns_ttl".toList then .ofValue ((p.parseInt value).map .dnsTtl)
  else if tag = "welcome_info".toList then .ofValue ((afterSpace line).map fun s => .welcomeInfo (some s))
  else if tag = "session_name".toList then .ofValue (.ok (.sessionName (some value)))
  else if tag = "user_agent".toList then .ofValue ((afterSpace line).map fun s => .userAgent (some s))
  else if tag = "outside_china_use_proxy".toList then .ofValue (.ok (.outsideChinaUseProxy (convertToBool value)))
  else if tag = "isolate_http_host_header".toList then .ofValue (.ok (.isolateHttpHostHeader (convertToBool value)))
  else if tag = "mtu".toList then .ofValue ((p.parseInt value).map .mtu)
  else .done

def readLines (p : Platform) : (lineNumber : Nat) → (lines : List (List Char)) → Reading LoadError
  | _, [] => .done
  | lineNumber, line :: lines =>
      match splitWords line with
      | first :: value :: items =>
          let tag := trim (first.map Char.toLower)
          let reading := if startsWith tag "#" then .done else readTag p line tag value (value :: items)
          (reading.mapError (.line lineNumber tag)).andThen (readLines p (lineNumber + 1) lines)
      | _ => readLines p (lineNumber + 1) lines

/-- A proxy that the search for one has found. -/
def readFound (p : Platform) (found : List Char × List Char) : Except JavaException Update := do
  let port ← p.parseInt found.2
  let a ← p.inetSocketAddress (some found.1) port
  return .proxy a

def Update.isProxy : Update → Bool
  | .proxy _ => true
  | _ => false

/-- The whole file: proxies are searched for where no line gives one. -/
def readFile (p : Platform) (lines : List (List Char)) : Reading LoadError :=
  let reading := readLines p 1 lines
  reading.andThen
    (if reading.updates.any Update.isProxy then .done
    else (Reading.ofItems (readFound p) (lines.flatMap findProxies)).mapError .exception)

/-! ## What a configuration has -/

def ProxyConfig.addresses (c : ProxyConfig) : AddressList → List IPAddress
  | .ip => c.ipList
  | .dns => c.dnsList
  | .route => c.routeList

def ProxyConfig.setting (c : ProxyConfig) : Kind → Setting
  | .dnsTtl => .dnsTtl c.dnsTtl
  | .welcomeInfo => .welcomeInfo c.welcomeInfo
  | .sessionName => .sessionName c.sessionName
  | .userAgent => .userAgent c.userAgent
  | .outsideChinaUseProxy => .outsideChinaUseProxy c.outsideChinaUseProxy
  | .isolateHttpHostHeader => .isolateHttpHostHeader c.isolateHttpHostHeader
  | .mtu => .mtu c.mtu

/-- The same lists, the same domains and the same settings. -/
structure ProxyConfig.Same (c c' : ProxyConfig) : Prop where
  addresses : ∀ l, c.addresses l = c'.addresses l
  proxyList : c.proxyList = c'.proxyList
  domainMap : ∀ name, c.domainMap.lookup name = c'.domainMap.lookup name
  globalMode : c.globalMode = c'.globalMode
  settings : ∀ k, c.setting k = c'.setting k

/-! ## What updates amount to -/

def addressesOf (l : AddressList) (us : List Update) : List IPAddress :=
  us.filterMap fun
    | .address l' ip => if l' = l then some ip else none
    | _ => none

/-- The proxies whose text has not been seen. -/
def proxiesOf : (seen : List (List Char)) → List Update → List InetSocketAddress
  | _, [] => []
  | seen, .proxy a :: us => if seen.contains a.text then proxiesOf seen us else a :: proxiesOf (seen ++ [a.text]) us
  | seen, _ :: us => proxiesOf seen us

/-- The domains that are put into the map: a new proxy puts its host there. -/
def domainsOf : (seen : List (List Char)) → List Update → List (List Char × Bool)
  | _, [] => []
  | seen, .proxy a :: us =>
      if seen.contains a.text then domainsOf seen us else (a.hostName, false) :: domainsOf (seen ++ [a.text]) us
  | seen, .domain name state :: us => (name, state) :: domainsOf seen us
  | seen, _ :: us => domainsOf seen us

def settingsOf (us : List Update) : List (Kind × Setting) :=
  us.filterMap fun
    | .set s => some (s.kind, s)
    | _ => none

/-- The configuration has what the updates amount to, each address and proxy where it comes first, and for each domain
and setting what comes last. Settings that no update is about may have any value. -/
structure ProxyConfig.Describes (c : ProxyConfig) (us : List Update) : Prop where
  addresses : ∀ l, c.addresses l = (addressesOf l us).eraseDups
  proxyList : c.proxyList = proxiesOf [] us
  domainMap : ∀ name state, c.domainMap.lookup name = some state ↔ Lib.LastOf (domainsOf [] us) name state
  settings : ∀ k s, Lib.LastOf (settingsOf us) k s → c.setting k = s

end TunProxy.Vpn
