import TunProxy.Vpn.ProxyConfig

/-!
# Domain rules

Lines of a configuration that say which domains need the proxy, and what they mean: the most specific name decides.
-/

namespace TunProxy.Vpn

/-- The characters of names, and the dots between them. -/
def IsNameChar (ch : Char) : Prop := ch.isAlphanum ∨ ch = '-' ∨ ch = '.'

/-- A blank between the items of a line. -/
def IsBlank (ch : Char) : Prop := ch = ' ' ∨ ch = '\t'

/-- A domain as it is written, perhaps with a dot in front, behind the blanks before it. -/
structure DomainItem where
  blanks : List Char
  text : List Char
  blanks_ne : blanks ≠ []
  isBlank : ∀ ch ∈ blanks, IsBlank ch
  text_ne : text ≠ [] ∧ text ≠ ['.']
  isNameChar : ∀ ch ∈ text, IsNameChar ch

/-- The name that is listed: without the dot in front, in lower case. -/
def DomainItem.name (i : DomainItem) : List Char :=
  (if i.text.head? = some '.' then i.text.tail else i.text).map Char.toLower

/-- A line `direct_domain` or `proxy_domain`, the tag in any case. -/
structure DomainLine where
  state : Bool
  tag : List Char
  items : List DomainItem
  blanks : List Char
  tag_eq : tag.map Char.toLower = if state then "proxy_domain".toList else "direct_domain".toList
  items_ne : items ≠ []
  isBlank : ∀ ch ∈ blanks, IsBlank ch

namespace DomainLine

def text (l : DomainLine) : List Char := l.tag ++ l.items.flatMap (fun i => i.blanks ++ i.text) ++ l.blanks

/-- The names that the line lists, with their state. -/
def entries (l : DomainLine) : List (List Char × Bool) := l.items.map fun i => (i.name, l.state)

end DomainLine

/-- What the lines list, in their order. -/
def entriesOf (lines : List DomainLine) : List (List Char × Bool) := lines.flatMap DomainLine.entries

/-- The name is the host, or what follows one of its dots. -/
def Covers (name host : List Char) : Prop := name = host ∨ ∃ before, host = before ++ '.' :: name

/-- The state loaded last for the longest of the listed names that cover the host. -/
def Decides (entries : List (List Char × Bool)) (host : List Char) (state : Bool) : Prop :=
  ∃ name, Covers name host ∧ Lib.LastOf entries name state ∧
    ∀ e ∈ entries, Covers e.1 host → e.1.length ≤ name.length

/-- The rule for addresses, for hosts that no name covers. -/
def addressRule (c : ProxyConfig) (china : ChinaIpMaskManager) (ip : BitVec 32) : Bool :=
  isFakeIP ip || (decide (ip ≠ 0) && c.outsideChinaUseProxy && !china.isIPInChina ip)

end TunProxy.Vpn
