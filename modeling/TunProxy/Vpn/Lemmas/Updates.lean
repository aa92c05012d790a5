import TunProxy.Lib.Inserts
import TunProxy.Vpn.Updates

/-!
# Loading makes the updates of the reading

Loading a file does what its reading says, and stops where the reading is rejected. What the updates do to each part of
a configuration follows without the loaders.
-/

namespace TunProxy.Vpn

open ProxyConfig

variable {ε ε' α β : Type} {p : Platform} {c : ProxyConfig} {u : Update} {us vs : List Update} {s : Setting} {k : Kind}
  {l : AddressList} {seen : List (List Char)}

@[simp] theorem applyAll_nil : applyAll [] c = c := rfl

@[simp] theorem applyAll_cons : applyAll (u :: us) c = applyAll us (u.apply c) := rfl

theorem applyAll_append : applyAll (us ++ vs) c = applyAll vs (applyAll us c) := List.foldl_append

/-! ## Methods and readings -/

/-- How a method ends that makes the updates and throws the rejection. -/
def Reading.ending (r : Reading ε) (c : ProxyConfig) : EStateM.Result ε ProxyConfig Unit :=
  match r.rejected with
  | none => .ok () (applyAll r.updates c)
  | some e => .error e (applyAll r.updates c)

def Performs (x : EStateM ε ProxyConfig Unit) (r : Reading ε) : Prop := ∀ c, x c = r.ending c

variable {x y : EStateM ε ProxyConfig Unit} {r r' : Reading ε}

theorem performs_done : Performs (pure () : EStateM ε ProxyConfig Unit) .done := fun _ => rfl

/-- What comes next runs where the updates have been made. -/
theorem bind_eq_ending {f : Unit → EStateM ε ProxyConfig Unit} (hx : x c = r.ending c)
    (hf : f () (applyAll r.updates c) = r'.ending (applyAll r.updates c)) :
    (x >>= f) c = (r.andThen r').ending c := by
  obtain ⟨us, rejected⟩ := r
  cases rejected with
  | some e => exact Lib.bind_of_error hx
  | none =>
      rw [Lib.bind_of_ok hx, hf]
      simp only [Reading.ending, Reading.andThen, applyAll_append]

theorem Performs.andThen (hx : Performs x r) (hy : Performs y r') : Performs (x >>= fun _ => y) (r.andThen r') :=
  fun c => bind_eq_ending (hx c) (hy _)

theorem Performs.adaptExcept {f : ε → ε'} (hx : Performs x r) : Performs (x.adaptExcept f) (r.mapError f) := by
  intro c
  obtain ⟨us, rejected⟩ := r
  have hx := hx c
  cases rejected with
  | some e => exact Lib.adaptExcept_error hx
  | none => exact Lib.adaptExcept_ok hx

theorem Performs.ite {b : Prop} [Decidable b] (hx : Performs x r) (hy : Performs y r') :
    Performs (if b then x else y) (if b then r else r') := by
  split
  · exact hx
  · exact hy

theorem orThrow_map {x : Except JavaException α} {g : α → β} {f : β → Load} :
    orThrow (x.map g) f = orThrow x fun a => f (g a) := by
  cases x with
  | ok a => rfl
  | error e => rfl

theorem orThrow_bind {x : Except JavaException α} {g : α → Except JavaException β} {f : β → Load} :
    orThrow (x >>= g) f = orThrow x fun a => orThrow (g a) f := by
  cases x with
  | ok a => rfl
  | error e => rfl

theorem performs_ofItems {parse : α → Except JavaException Update} {load : List α → Load} (hnil : load [] = pure ())
    (hcons : ∀ item items, load (item :: items) = orThrow (parse item) fun u => do modify u.apply; load items)
    (items : List α) : Performs (load items) (.ofItems parse items) := by
  induction items with
  | nil =>
      rw [hnil]
      exact performs_done
  | cons item items ih =>
      intro c
      rw [hcons, Reading.ofItems]
      cases parse item with
      | ok u => exact ih (u.apply c)
      | error e => rfl

theorem performs_ofValue (x : Except JavaException α) (g : α → Setting) :
    Performs (orThrow x fun a => modify (g a).apply) (.ofValue (x.map g)) := by
  intro c
  cases x with
  | ok a => rfl
  | error e => rfl

/-! ## The loaders -/

theorem performs_readAddresses (p : Platform) (l : AddressList) (items : List (List Char)) :
    Performs (addIPAddressToList p (fun ip => (Update.address l ip).apply) items) (readAddresses p l items) := by
  induction items with
  | nil => exact performs_done
  | cons item items ih =>
      intro c
      rw [addIPAddressToList, readAddresses]
      by_cases h : startsWith (p.toLowerCase (trim item)) "#"
      · rw [if_pos h, List.takeWhile_cons_of_neg (by rw [h]; exact Bool.false_ne_true)]
        rfl
      · rw [if_neg h, List.takeWhile_cons_of_pos (by rw [Bool.eq_false_of_not_eq_true h]; rfl), Reading.ofItems]
        cases IPAddress.ofString p (p.toLowerCase (trim item)) with
        | ok ip => exact ih _
        | error e => rfl

theorem performs_readProxies (p : Platform) (items : List (List Char)) :
    Performs (addProxyToList p items) (.ofItems (readProxy p) items) := by
  apply performs_ofItems
  · rfl
  · intro item items
    rw [readProxy, orThrow_map, addProxyToList, addProxyString]
    cases parseProxy p (if startsWith (p.toLowerCase (trim item)) "http://" then trim item
      else "http://".toList ++ trim item) with
    | ok a => rfl
    | error e => rfl

theorem performs_readDomains (p : Platform) (state : Bool) (items : List (List Char)) :
    Performs (addDomainToHashMap p state items)
      (.ofItems (fun item => (domainName p item).map (.domain · state)) items) := by
  apply performs_ofItems
  · rfl
  · intro item items
    rw [orThrow_map]
    rfl

theorem performs_readFound (p : Platform) (found : List (List Char × List Char)) :
    Performs (addFoundProxies p found) (.ofItems (readFound p) found) := by
  apply performs_ofItems
  · rfl
  · rintro ⟨host, port⟩ found
    rw [readFound, orThrow_bind, addFoundProxies]
    congr 1
    funext port
    rw [orThrow_bind]
    rfl

theorem performs_readTag (p : Platform) (line tag value : List Char) (items : List (List Char)) :
    Performs (loadTag p line tag value items) (readTag p line tag value items) := by
  unfold loadTag readTag
  apply Performs.ite (performs_readAddresses p .ip items)
  apply Performs.ite (performs_readAddresses p .dns items)
  apply Performs.ite (performs_readAddresses p .route items)
  apply Performs.ite (performs_readProxies p items)
  apply Performs.ite (performs_readDomains p false items)
  apply Performs.ite (performs_readDomains p true items)
  apply Performs.ite (performs_ofValue (p.parseInt value) .dnsTtl)
  apply Performs.ite (performs_ofValue (afterSpace line) fun s => .welcomeInfo (some s))
  apply Performs.ite (performs_ofValue (.ok value) fun s => .sessionName (some s))
  apply Performs.ite (performs_ofValue (afterSpace line) fun s => .userAgent (some s))
  apply Performs.ite (performs_ofValue (.ok (convertToBool value)) .outsideChinaUseProxy)
  apply Performs.ite (performs_ofValue (.ok (convertToBool value)) .isolateHttpHostHeader)
  exact Performs.ite (performs_ofValue (p.parseInt value) .mtu) performs_done

theorem performs_readLines (p : Platform) (n : Nat) (lines : List (List Char)) :
    Performs (loadLines p n lines) (readLines p n lines) := by
  induction lines generalizing n with
  | nil => exact performs_done
  | cons line lines ih =>
      rw [loadLines, readLines]
      generalize splitWords line = words
      cases words with
      | nil => exact ih (n + 1)
      | cons first words =>
          cases words with
          | nil => exact ih (n + 1)
          | cons value items =>
              have htag := (performs_readTag p line (trim (first.map Char.toLower)) value (value :: items)).adaptExcept
                (f := LoadError.line n (trim (first.map Char.toLower)))
              simp only []
              cases h : startsWith (trim (first.map Char.toLower)) "#" with
              | true => exact performs_done.andThen (ih (n + 1))
              | false => exact htag.andThen (ih (n + 1))

/-! ## What the updates do to each part -/

theorem addresses_apply : (u.apply c).addresses l = (addressesOf l [u]).foldl addNew (c.addresses l) := by
  cases u with
  | address l' ip => cases l' <;> cases l <;> rfl
  | proxy a =>
      rw [Update.apply, addProxy]
      split <;> cases l <;> rfl
  | domain name state => cases l <;> rfl
  | set s => cases s <;> cases l <;> rfl

theorem foldl_addNew (ips : List IPAddress) : ips.foldl addNew [] = ips.eraseDups := by
  induction ips using List.reverseRecOn with
  | nil => rfl
  | append_singleton ips ip ih =>
      rw [List.foldl_append, ih, List.foldl_cons, List.foldl_nil, List.eraseDups_append, addNew]
      by_cases h : ip ∈ ips
      · rw [if_pos (List.mem_eraseDups.2 h), List.removeAll, List.filter_cons_of_neg (by simpa using h)]
        simp
      · rw [if_neg fun hmem => h (List.mem_eraseDups.1 hmem), List.removeAll,
          List.filter_cons_of_pos (by simpa using h)]
        rfl

theorem addresses_applyAll (l : AddressList) (us : List Update) (c : ProxyConfig) :
    (applyAll us c).addresses l = (addressesOf l us).foldl addNew (c.addresses l) := by
  induction us generalizing c with
  | nil => rfl
  | cons u us ih =>
      rw [applyAll_cons, ih, addresses_apply, ← List.foldl_append, addressesOf, addressesOf, ← List.filterMap_append]
      rfl

@[simp] theorem proxyList_address {ip : IPAddress} : ((Update.address l ip).apply c).proxyList = c.proxyList := by
  cases l <;> rfl

@[simp] theorem proxyList_set : ((Update.set s).apply c).proxyList = c.proxyList := by
  cases s <;> rfl

@[simp] theorem domainMap_address {ip : IPAddress} : ((Update.address l ip).apply c).domainMap = c.domainMap := by
  cases l <;> rfl

@[simp] theorem domainMap_set : ((Update.set s).apply c).domainMap = c.domainMap := by
  cases s <;> rfl

/-- Whether a proxy is new is a question about its text. -/
theorem addProxy_eq (a : InetSocketAddress) (c : ProxyConfig) : c.addProxy a =
    if (c.proxyList.map InetSocketAddress.text).contains a.text then c
    else { c with proxyList := c.proxyList ++ [a], domainMap := c.domainMap.insert a.hostName false } := by
  have hany : c.proxyList.any (·.text = a.text) = (c.proxyList.map InetSocketAddress.text).contains a.text := by
    simp only [List.contains_map, Bool.beq_eq_decide_eq, eq_comm]
  rw [addProxy, hany]

theorem proxyList_applyAll (us : List Update) (c : ProxyConfig) :
    (applyAll us c).proxyList = c.proxyList ++ proxiesOf (c.proxyList.map InetSocketAddress.text) us := by
  induction us generalizing c with
  | nil => rw [applyAll_nil, proxiesOf, List.append_nil]
  | cons u us ih =>
      rw [applyAll_cons, ih]
      cases u with
      | address l ip => rw [proxyList_address]; rfl
      | proxy a =>
          rw [Update.apply, addProxy_eq, proxiesOf]
          by_cases h : (c.proxyList.map InetSocketAddress.text).contains a.text
          · rw [if_pos h, if_pos h]
          · rw [if_neg h, if_neg h, List.map_append, List.append_assoc]
            rfl
      | domain name state => rfl
      | set s => rw [proxyList_set]; rfl

theorem domainMap_applyAll (us : List Update) (c : ProxyConfig) : (applyAll us c).domainMap =
    Lib.insertAll c.domainMap (domainsOf (c.proxyList.map InetSocketAddress.text) us) := by
  induction us generalizing c with
  | nil => rfl
  | cons u us ih =>
      rw [applyAll_cons, ih]
      cases u with
      | address l ip => rw [proxyList_address, domainMap_address]; rfl
      | proxy a =>
          rw [Update.apply, addProxy_eq, domainsOf]
          by_cases h : (c.proxyList.map InetSocketAddress.text).contains a.text
          · rw [if_pos h, if_pos h]
          · rw [if_neg h, if_neg h, List.map_append]
            rfl
      | domain name state => rfl
      | set s => rw [proxyList_set, domainMap_set]; rfl

theorem any_isProxy (us : List Update) : us.any Update.isProxy = false ↔ proxiesOf [] us = [] := by
  induction us with
  | nil => exact iff_of_true rfl rfl
  | cons u us ih =>
      cases u with
      | proxy a => exact iff_of_false Bool.noConfusion (List.cons_ne_nil _ _)
      | address l ip => exact ih
      | domain name state => exact ih
      | set s => exact ih

theorem setting_apply_eq (s : Setting) (c : ProxyConfig) : (s.apply c).setting s.kind = s := by
  cases s <;> rfl

theorem setting_apply_ne (h : s.kind ≠ k) : (s.apply c).setting k = c.setting k := by
  cases s <;> cases k <;> first | rfl | exact absurd rfl h

/-- An update of something else leaves a setting as it was. -/
theorem setting_apply_of_not (h : ∀ e ∈ settingsOf [u], e.1 ≠ k) : (u.apply c).setting k = c.setting k := by
  cases u with
  | address l ip => cases l <;> cases k <;> rfl
  | proxy a =>
      rw [Update.apply, addProxy_eq]
      split
      · rfl
      · cases k <;> rfl
  | domain name state => cases k <;> rfl
  | set s => exact setting_apply_ne (h (s.kind, s) List.mem_cons_self)

theorem settingsOf_append : settingsOf (us ++ vs) = settingsOf us ++ settingsOf vs := List.filterMap_append

theorem setting_applyAll_of_not (h : ∀ e ∈ settingsOf us, e.1 ≠ k) : (applyAll us c).setting k = c.setting k := by
  induction us generalizing c with
  | nil => rfl
  | cons u us ih =>
      rw [← List.singleton_append, settingsOf_append] at h
      rw [applyAll_cons, ih fun e he => h e (List.mem_append_right _ he)]
      exact setting_apply_of_not fun e he => h e (List.mem_append_left _ he)

/-- A setting has the value that it was given last. -/
theorem setting_applyAll_of_last (h : Lib.LastOf (settingsOf us) k s) : (applyAll us c).setting k = s := by
  induction us using List.reverseRecOn with
  | nil => cases h.mem
  | append_singleton us u ih =>
      rw [settingsOf_append] at h
      rw [applyAll_append, applyAll_cons, applyAll_nil]
      by_cases hu : settingsOf [u] = []
      · rw [hu, List.append_nil] at h
        rw [setting_apply_of_not (by simp [hu]), ih h]
      · cases u with
        | set s' =>
            obtain heq | ⟨hne, h⟩ := Lib.lastOf_snoc.1 h
            · cases heq
              exact setting_apply_eq _ _
            · exact (setting_apply_ne hne).trans (ih h)
        | address l ip => exact absurd rfl hu
        | proxy a => exact absurd rfl hu
        | domain name state => exact absurd rfl hu

theorem globalMode_apply : (u.apply c).globalMode = c.globalMode := by
  cases u with
  | address l ip => cases l <;> rfl
  | proxy a =>
      rw [Update.apply, addProxy_eq]
      split <;> rfl
  | domain name state => rfl
  | set s => cases s <;> rfl

theorem globalMode_applyAll (us : List Update) (c : ProxyConfig) : (applyAll us c).globalMode = c.globalMode := by
  induction us generalizing c with
  | nil => rfl
  | cons u us ih => rw [applyAll_cons, ih, globalMode_apply]

/-! ## The whole file -/

theorem loadFromLines_eq (p : Platform) (lines : List (List Char)) (c : ProxyConfig) :
    loadFromLines p lines c = (readFile p lines).ending (clear c) := by
  have hclear : (modify clear : EStateM LoadError ProxyConfig PUnit) c = .ok () (clear c) := rfl
  have hget (c : ProxyConfig) : (get : EStateM LoadError ProxyConfig ProxyConfig) c = .ok c c := rfl
  have hlist := proxyList_applyAll (readLines p 1 lines).updates (clear c)
  unfold loadFromLines
  rw [Lib.bind_of_ok hclear]
  apply bind_eq_ending (performs_readLines p 1 lines (clear c))
  rw [Lib.bind_of_ok (hget _)]
  cases h : (readLines p 1 lines).updates.any Update.isProxy with
  | true =>
      have hne : (applyAll (readLines p 1 lines).updates (clear c)).proxyList ≠ [] := by
        intro hnil
        rw [hlist] at hnil
        rw [(any_isProxy _).2 hnil] at h
        cases h
      rw [if_neg hne]
      rfl
  | false =>
      rw [if_pos (hlist.trans ((any_isProxy _).1 h))]
      exact (performs_readFound p (lines.flatMap findProxies)).adaptExcept _

/-- What loading leaves is what was there before exactly where that is what the updates amount to. -/
theorem same_applyAll_iff : (applyAll us (clear c)).Same c ↔ c.Describes us := by
  constructor
  · intro h
    constructor
    · intro l
      rw [← h.addresses l, addresses_applyAll, ← foldl_addNew]
      cases l <;> rfl
    · rw [← h.proxyList, proxyList_applyAll]
      rfl
    · intro name state
      rw [← h.domainMap name, domainMap_applyAll]
      exact Lib.lookup_insertAll_empty
    · intro k s hs
      rw [← h.settings k, setting_applyAll_of_last hs]
  · intro h
    constructor
    · intro l
      rw [h.addresses l, addresses_applyAll, ← foldl_addNew]
      cases l <;> rfl
    · rw [h.proxyList, proxyList_applyAll]
      rfl
    · intro name
      apply Option.ext
      intro state
      rw [h.domainMap name state, domainMap_applyAll]
      exact Lib.lookup_insertAll_empty
    · rw [globalMode_applyAll]
      rfl
    · intro k
      obtain ⟨s, hs⟩ | hnone := Lib.lastOf_or_none (settingsOf us) k
      · rw [setting_applyAll_of_last hs, h.settings k s hs]
      · rw [setting_applyAll_of_not hnone]
        cases k <;> rfl

end TunProxy.Vpn
