/-
The hosts of a network allow list.  One function reads a host from six spellings:
a name, a name with a port, an IPv6 literal with or without brackets, and any of
them before a path or in a URL.
-/
import HermesPipeline.CapabilityPaths
import HermesPipeline.Lib.PyInt

namespace HermesPipeline

open Lib Lib.Pieces

namespace NetworkHosts

open CapabilityPaths (CaseFold CapabilityVerdict)

/-- The tables of Unicode that are used; lower case differs from a text in case
only. -/
structure Unicode extends CaseFold where
  lower : List Char → List Char
  nfkc : List Char → List Char
  casefold_lower : ∀ text, toCaseFold.casefold (lower text) = toCaseFold.casefold text

/-- A `ValueError`. -/
inductive Failure
  | invalidUrl
deriving Repr, DecidableEq

section IpAddress

def hexDigits : List Char :=
  ['0', '1', '2', '3', '4', '5', '6', '7', '8', '9', 'A', 'B', 'C', 'D', 'E', 'F',
    'a', 'b', 'c', 'd', 'e', 'f']

/-- `_parse_hextet` reads the text. -/
def isHextet (letters : List Char) : Bool :=
  letters ≠ [] && letters.length ≤ 4 && letters.all (· ∈ hexDigits)

/-- `_parse_octet` reads the text. -/
def isOctet (letters : List Char) : Bool :=
  letters ≠ [] && letters.all Char.isDigit && letters.length ≤ 3 &&
    (letters = ['0'] || letters.head? ≠ some '0') &&
    letters.foldl (fun value c => 10 * value + (c.toNat - '0'.toNat)) 0 ≤ 255

/-- `IPv4Address` reads the text. -/
def isQuad (text : List Char) : Bool :=
  (text.splitOn '.').length = 4 && (text.splitOn '.').all isOctet

/-- The groups of an IPv6 address, with at most one gap between them. -/
def readsGroups (parts : List (List Char)) : Bool :=
  let gaps := (List.range parts.length).filter fun i =>
    1 ≤ i && i + 1 < parts.length && parts.getD i [] = []
  match gaps with
  | [] => parts.length = 8 && parts.all isHextet
  | [i] =>
      let high := if parts.head? = some [] then i - 1 else i
      let low :=
        if parts.getLast? = some [] then parts.length - i - 2 else parts.length - i - 1
      (parts.head? ≠ some [] || high = 0) && (parts.getLast? ≠ some [] || low = 0) &&
        high + low < 8 && (parts.take high).all isHextet &&
        (parts.drop (parts.length - low)).all isHextet
  | _ => false

/-- `IPv6Address._ip_int_from_string` reads the text. -/
def readsAddress (text : List Char) : Bool :=
  let parts := text.splitOn ':'
  let last := parts.getLastD []
  3 ≤ parts.length &&
    if '.' ∈ last then
      isQuad last && parts.length ≤ 8 && readsGroups (parts.dropLast ++ [['0'], ['0']])
    else parts.length ≤ 9 && readsGroups parts

/-- `ip_address` reads the text as an IPv6 address. -/
def isIpv6 (text : List Char) : Bool :=
  '/' ∉ text &&
    match partition? '%' text with
    | none => readsAddress text
    | some (address, scope) => scope ≠ [] && '%' ∉ scope && readsAddress address

end IpAddress

section UrlParse

def asciiLetters : List Char :=
  ['a', 'b', 'c', 'd', 'e', 'f', 'g', 'h', 'i', 'j', 'k', 'l', 'm', 'n', 'o', 'p', 'q',
    'r', 's', 't', 'u', 'v', 'w', 'x', 'y', 'z', 'A', 'B', 'C', 'D', 'E', 'F', 'G', 'H',
    'I', 'J', 'K', 'L', 'M', 'N', 'O', 'P', 'Q', 'R', 'S', 'T', 'U', 'V', 'W', 'X', 'Y',
    'Z']

/-- `scheme_chars`. -/
def schemeChars : List Char :=
  asciiLetters ++ ['0', '1', '2', '3', '4', '5', '6', '7', '8', '9', '+', '-', '.']

/-- The text before the first separator, or the whole text. -/
def upTo (sep : Char) (text : List Char) : List Char :=
  ((partition? sep text).map Prod.fst).getD text

/-- The text after the first separator, or none. -/
def after (sep : Char) (text : List Char) : List Char :=
  ((partition? sep text).map Prod.snd).getD []

/-- The text after the last separator, or the whole text. -/
def afterLast (sep : Char) (text : List Char) : List Char :=
  ((rpartition? sep text).map Prod.snd).getD text

/-- A URL without its scheme. -/
def afterScheme (url : List Char) : List Char :=
  match partition? ':' url with
  | some (scheme, rest) =>
      if (scheme.head?.any (· ∈ asciiLetters)) && scheme.all (· ∈ schemeChars) then rest
      else url
  | none => url

/-- `_splitnetloc`. -/
def splitNetloc (url : List Char) : List Char :=
  url.takeWhile fun c => c ∉ ['/', '?', '#']

/-- `v[a-fA-F0-9]+\..+`. -/
def isIpvFuture (hostname : List Char) : Bool :=
  match partition? '.' (hostname.drop 1) with
  | none => false
  | some (version, rest) =>
      version ≠ [] && version.all (· ∈ hexDigits) && rest ≠ [] && '\n' ∉ rest

/-- `_check_bracketed_host` passes. -/
def checkBracketedHost (hostname : List Char) : Bool :=
  if hostname.head? = some 'v' then isIpvFuture hostname else isIpv6 hostname

/-- `_check_bracketed_netloc` passes. -/
def checkBracketedNetloc (netloc : List Char) : Bool :=
  let hostnameAndPort := afterLast '@' netloc
  match partition? '[' hostnameAndPort with
  | some (before, bracketed) =>
      let port := after ']' bracketed
      before = [] && (port = [] || port.head? = some ':') &&
        checkBracketedHost (upTo ']' bracketed)
  | none => checkBracketedHost (upTo ':' hostnameAndPort)

/-- The checks of the brackets in `urlsplit` pass. -/
def checkBrackets (netloc : List Char) : Bool :=
  ('[' ∈ netloc) = (']' ∈ netloc) && ('[' ∉ netloc || checkBracketedNetloc netloc)

/-- `_checknetloc` passes. -/
def checkNetloc (unicode : Unicode) (netloc : List Char) : Bool :=
  if netloc.all fun c => c.toNat < 128 then true
  else
    let plain := netloc.filter fun c => c ∉ ['@', ':', '#', '?']
    plain = unicode.nfkc plain ||
      ['/', '?', '#', '@', ':'].all fun c => c ∉ unicode.nfkc plain

/-- The `netloc` of `urlparse`. -/
def urlNetloc (unicode : Unicode) (url : List Char) : Except Failure (List Char) :=
  let url := (url.dropWhile fun c => c.toNat ≤ 0x20).filter fun c =>
    c ∉ ['\t', '\r', '\n']
  match afterScheme url with
  | '/' :: '/' :: rest =>
      let netloc := splitNetloc rest
      if checkBrackets netloc && checkNetloc unicode netloc then .ok netloc
      else .error .invalidUrl
  | _ => .ok []

/-- `_hostinfo`, without the port. -/
def hostInfo (netloc : List Char) : List Char :=
  let hostinfo := afterLast '@' netloc
  match partition? '[' hostinfo with
  | some (_, bracketed) => upTo ']' bracketed
  | none => upTo ':' hostinfo

/-- `hostname`. -/
def hostnameOf (unicode : Unicode) (netloc : List Char) : Option (List Char) :=
  let hostname := hostInfo netloc
  if hostname = [] then none
  else
    match partition? '%' hostname with
    | some (host, zone) => some (unicode.lower host ++ '%' :: zone)
    | none => some (unicode.lower hostname)

end UrlParse

section Source

/-- A part is `port.isdigit()`. -/
def isPort (letters : List Char) : Bool := letters ≠ [] && letters.all isDigitChar

/-- The host of a text without a scheme. -/
def plainHost (unicode : Unicode) (text : List Char) : Option (List Char) :=
  match upTo '/' text with
  | '[' :: bracketed => (partition? ']' bracketed).map fun found =>
      unicode.casefold found.1
  | text =>
      let text :=
        match rpartition? ':' text with
        | some (host, port) => if host ≠ [] && isPort port then host else text
        | none => text
      if text = [] then none else some (unicode.casefold text)

/-- `_network_host`. -/
def networkHost (unicode : Unicode) (target : String) :
    Except Failure (Option (List Char)) := do
  let text := (pyStrip target).toList
  if text = [] ∨ '\x00' ∈ text then return none
  else if [':', '/', '/'] <:+: text then
    let netloc ← urlNetloc unicode text
    return (hostnameOf unicode netloc).map unicode.casefold
  else return plainHost unicode text

/-- `NetworkMode`. -/
inductive NetworkMode
  | denyAll
  | allowList
deriving Repr, DecidableEq

/-- `Network`. -/
structure Network where
  mode : NetworkMode
  allow : List String

/-- `_evaluate_network`. -/
def evaluateNetwork (unicode : Unicode) (network : Network) (target : String) :
    Except Failure CapabilityVerdict := do
  if network.mode = .denyAll then return ⟨false, "network denied"⟩
  match ← networkHost unicode target with
  | none => return ⟨false, "invalid host"⟩
  | some host =>
      let hosts ← network.allow.mapM (networkHost unicode)
      if hosts.any fun item => item = some host && host ≠ [] then return ⟨true, "allowed"⟩
      else return ⟨false, "host not in allow list"⟩

end Source

section Spellings

/-- Neither a control character nor white space. -/
def Visible (c : Char) : Prop := 0x20 < c.toNat ∧ isPySpace c = false

/-- The characters that separate the pieces of a URL. -/
def reserved : List Char := [':', '/', '?', '#', '[', ']', '@', '%']

structure HostName where
  letters : List Char
  nonempty : letters ≠ []
  visible : ∀ c ∈ letters, Visible c
  plain : ∀ c ∈ letters, c ∉ reserved

structure Ipv6 where
  letters : List Char
  plain : ∀ c ∈ letters, c ∈ ':' :: '.' :: hexDigits
  reads : isIpv6 letters = true

structure Port where
  digits : List Char
  decimal : ∀ c ∈ digits, c ∈ ['0', '1', '2', '3', '4', '5', '6', '7', '8', '9']

/-- What follows a host. -/
structure Rest where
  letters : List Char
  visible : ∀ c ∈ letters, Visible c

inductive Authority
  | name (name : HostName)
  | namePort (name : HostName) (port : Port) (hport : port.digits ≠ [])
  | bare (literal : Ipv6)
  | bracketed (literal : Ipv6)
  | bracketedPort (literal : Ipv6) (port : Port)

inductive Host
  | name (name : HostName)
  | ipv6 (literal : Ipv6)

structure UserInfo where
  letters : List Char
  visible : ∀ c ∈ letters, Visible c
  plain : ∀ c ∈ letters, c ∉ ['/', '?', '#', '[', ']', '@']

structure Url where
  letter : Char
  more : List Char
  scheme : letter ∈ asciiLetters ∧ ∀ c ∈ more, c ∈ schemeChars
  userinfo : Option UserInfo
  host : Host
  port : Option Port
  rest : Rest
  ends : rest.letters = [] ∨ rest.letters.head? ∈ [some '/', some '?', some '#']

/-- The ways to write a host. -/
inductive Spelling
  | plain (authority : Authority)
  | path (authority : Authority) (rest : Rest)
  | url (url : Url)

def Host.letters : Host → List Char
  | .name host => host.letters
  | .ipv6 literal => literal.letters

def Host.text : Host → List Char
  | .name host => host.letters
  | .ipv6 literal => '[' :: (literal.letters ++ [']'])

def Authority.host : Authority → List Char
  | .name host | .namePort host _ _ => host.letters
  | .bare literal | .bracketed literal | .bracketedPort literal _ => literal.letters

def Authority.text : Authority → List Char
  | .name host => host.letters
  | .namePort host port _ => host.letters ++ ':' :: port.digits
  | .bare literal => literal.letters
  | .bracketed literal => '[' :: (literal.letters ++ [']'])
  | .bracketedPort literal port => '[' :: (literal.letters ++ ']' :: ':' :: port.digits)

def Url.portText (url : Url) : List Char :=
  match url.port with
  | none => []
  | some port => ':' :: port.digits

def Url.userText (url : Url) : List Char :=
  match url.userinfo with
  | none => []
  | some user => user.letters ++ ['@']

def Url.netloc (url : Url) : List Char := url.userText ++ (url.host.text ++ url.portText)

def Url.text (url : Url) : List Char :=
  url.letter :: (url.more ++ ':' :: '/' :: '/' :: (url.netloc ++ url.rest.letters))

/-- What is written. -/
def Spelling.letters : Spelling → List Char
  | .plain authority => authority.text
  | .path authority rest => authority.text ++ '/' :: rest.letters
  | .url written => written.text

def Spelling.text (spelling : Spelling) : String := String.ofList spelling.letters

/-- The host, without port and path. -/
def Spelling.host : Spelling → List Char
  | .plain authority | .path authority _ => authority.host
  | .url written => written.host.letters

end Spellings

section Hearing

/-- A literal is taken for a host and a port where its last group is decimal. -/
def Authority.heard : Authority → List Char
  | .bare literal =>
      match rpartition? ':' literal.letters with
      | some (front, last) => if isPort last then front else literal.letters
      | none => literal.letters
  | authority => authority.host

/-- A path with `://` in it is taken for a URL, which then has no host. -/
def Spelling.heard : Spelling → Option (List Char)
  | .plain authority => some authority.heard
  | .path authority rest =>
      if [':', '/', '/'] <:+: authority.text ++ '/' :: rest.letters then none
      else some authority.heard
  | .url written => some written.host.letters

/-- Unicode would write other separators for the host of a URL. -/
def Spelling.refused (unicode : Unicode) : Spelling → Bool
  | .url written => !checkNetloc unicode written.netloc
  | _ => false

/-- What is read from a spelling. -/
def Spelling.reading (unicode : Unicode) (spelling : Spelling) :
    Except Failure (Option (List Char)) :=
  if spelling.refused unicode then .error .invalidUrl
  else .ok (spelling.heard.map unicode.casefold)

end Hearing

section Letters

variable {unicode : Unicode}

theorem visible_of_mem {allowed : List Char}
    (hall : (allowed.all fun c => 0x20 < c.toNat && !isPySpace c) = true) {c : Char}
    (hc : c ∈ allowed) : Visible c := by
  have hvisible := List.all_eq_true.mp hall c hc
  simpa [Visible] using hvisible

theorem Ipv6.not_mem (literal : Ipv6) {c : Char} (hc : c ∉ ':' :: '.' :: hexDigits) :
    c ∉ literal.letters := fun hmem => hc (literal.plain c hmem)

theorem Port.not_mem (port : Port) {c : Char}
    (hc : c ∉ ['0', '1', '2', '3', '4', '5', '6', '7', '8', '9']) : c ∉ port.digits :=
  fun hmem => hc (port.decimal c hmem)

theorem HostName.not_mem (name : HostName) {c : Char} (hc : c ∈ reserved) :
    c ∉ name.letters := fun hmem => name.plain c hmem hc

theorem Ipv6.visible (literal : Ipv6) {c : Char} (hc : c ∈ literal.letters) : Visible c :=
  visible_of_mem (by decide) (literal.plain c hc)

theorem Port.visible (port : Port) {c : Char} (hc : c ∈ port.digits) : Visible c :=
  visible_of_mem (by decide) (port.decimal c hc)

/-- An IPv6 literal has two colons. -/
theorem Ipv6.colons (literal : Ipv6) : 2 ≤ literal.letters.count ':' := by
  have hreads := literal.reads
  rw [isIpv6, partition?_eq_none (literal.not_mem (by decide)), Bool.and_eq_true,
    readsAddress, Bool.and_eq_true, length_splitOn] at hreads
  exact Nat.le_of_succ_le_succ (of_decide_eq_true hreads.2.1)

/-- So something stands before its last colon. -/
theorem Ipv6.front_ne_nil (literal : Ipv6) {front last : List Char}
    (hletters : literal.letters = front ++ ':' :: last) (hlast : ':' ∉ last) :
    front ≠ [] := by
  rintro rfl
  have hcolons := literal.colons
  rw [hletters, List.nil_append, List.count_cons_self,
    List.count_eq_zero_of_not_mem hlast] at hcolons
  exact absurd hcolons (by decide)

theorem Authority.visible (authority : Authority) :
    ∀ c ∈ authority.text, Visible c := by
  have hmark : ∀ c ∈ ['[', ']', ':'], Visible c := fun c => visible_of_mem (by decide)
  intro c hc
  cases authority with
  | name name => exact name.visible c hc
  | namePort name port _ =>
      rcases List.mem_append.mp hc with hc | hc
      · exact name.visible c hc
      · rcases List.mem_cons.mp hc with rfl | hc
        · exact hmark _ (by simp)
        · exact port.visible hc
  | bare literal => exact literal.visible hc
  | bracketed literal =>
      simp only [Authority.text, List.mem_cons, List.mem_append, List.not_mem_nil,
        or_false] at hc
      rcases hc with rfl | hc | rfl
      · exact hmark _ (by simp)
      · exact literal.visible hc
      · exact hmark _ (by simp)
  | bracketedPort literal port =>
      simp only [Authority.text, List.mem_cons, List.mem_append] at hc
      rcases hc with rfl | hc | rfl | rfl | hc
      · exact hmark _ (by simp)
      · exact literal.visible hc
      · exact hmark _ (by simp)
      · exact hmark _ (by simp)
      · exact port.visible hc

theorem Authority.ne_nil (authority : Authority) : authority.text ≠ [] := by
  cases authority with
  | name name => exact name.nonempty
  | namePort name port _ => simp [Authority.text]
  | bare literal =>
      intro hnil
      have hcolons := literal.colons
      rw [show literal.letters = [] from hnil] at hcolons
      exact absurd hcolons (by decide)
  | bracketed literal => simp [Authority.text]
  | bracketedPort literal port => simp [Authority.text]

theorem Authority.no_slash (authority : Authority) : '/' ∉ authority.text := by
  cases authority with
  | name name => exact name.not_mem (by decide)
  | namePort name port _ =>
      simp [Authority.text, name.not_mem (c := '/') (by decide), port.not_mem (c := '/')]
  | bare literal => exact literal.not_mem (by decide)
  | bracketed literal => simp [Authority.text, literal.not_mem (c := '/') (by decide)]
  | bracketedPort literal port =>
      simp [Authority.text, literal.not_mem (c := '/') (by decide), port.not_mem (c := '/')]

theorem Url.netloc_visible (url : Url) : ∀ c ∈ url.netloc, Visible c := by
  have hmark : ∀ c ∈ ['[', ']', ':', '@'], Visible c := fun c => visible_of_mem (by decide)
  intro c hc
  rw [Url.netloc, List.mem_append, List.mem_append] at hc
  rcases hc with hc | hc | hc
  · rw [Url.userText] at hc
    split at hc
    · cases hc
    · next user _ =>
        rcases List.mem_append.mp hc with hc | hc
        · exact user.visible c hc
        · exact hmark c (by simp_all)
  · generalize url.host = host at hc
    cases host with
    | name name => exact name.visible c hc
    | ipv6 literal =>
        simp only [Host.text, List.mem_cons, List.mem_append, List.not_mem_nil,
          or_false] at hc
        rcases hc with rfl | hc | rfl
        · exact hmark _ (by simp)
        · exact literal.visible hc
        · exact hmark _ (by simp)
  · rw [Url.portText] at hc
    split at hc
    · cases hc
    · next port _ =>
        rcases List.mem_cons.mp hc with rfl | hc
        · exact hmark _ (by simp)
        · exact port.visible hc

theorem Spelling.visible (spelling : Spelling) : ∀ c ∈ spelling.letters, Visible c := by
  have hscheme : ∀ c ∈ ':' :: '/' :: schemeChars, Visible c :=
    fun c => visible_of_mem (by decide)
  intro c hc
  cases spelling with
  | plain authority => exact authority.visible c hc
  | path authority rest =>
      rcases List.mem_append.mp hc with hc | hc
      · exact authority.visible c hc
      · rcases List.mem_cons.mp hc with rfl | hc
        · exact hscheme _ (by simp)
        · exact rest.visible c hc
  | url url =>
      simp only [Spelling.letters, Url.text, List.mem_cons, List.mem_append] at hc
      rcases hc with rfl | hc | rfl | rfl | rfl | hc | hc
      · exact hscheme _ (by simp [schemeChars, url.scheme.1])
      · exact hscheme _ (by simp [url.scheme.2 c hc])
      · exact hscheme _ (by simp)
      · exact hscheme _ (by simp)
      · exact hscheme _ (by simp)
      · exact url.netloc_visible c hc
      · exact url.rest.visible c hc

theorem Spelling.ne_nil (spelling : Spelling) : spelling.letters ≠ [] := by
  cases spelling with
  | plain authority => exact authority.ne_nil
  | path authority rest => simp [Spelling.letters]
  | url url => simp [Spelling.letters, Url.text]

end Letters

section Reading

variable {unicode : Unicode} {text : List Char}

/-- Nothing is stripped from visible characters. -/
theorem pyStrip_visible (hvisible : ∀ c ∈ text, Visible c) :
    (pyStrip (String.ofList text)).toList = text := by
  rw [Strip.pyStrip_toList, String.toList_ofList]
  have hfront : text.dropWhile isPySpace = text := by
    rw [List.dropWhile_eq_self_iff]
    intro hlength
    rw [(hvisible _ (List.getElem_mem hlength)).2]
    exact Bool.false_ne_true
  rw [hfront, List.rdropWhile_eq_self_iff]
  intro hne
  rw [(hvisible _ (List.getLast_mem hne)).2]
  exact Bool.false_ne_true

theorem noNul_of_visible (hvisible : ∀ c ∈ text, Visible c) : '\x00' ∉ text :=
  fun hmem => absurd (hvisible _ hmem).1 (by decide)

/-- Nothing is removed from visible characters. -/
theorem cleaned_visible (hvisible : ∀ c ∈ text, Visible c) :
    ((text.dropWhile fun c => c.toNat ≤ 0x20).filter fun c =>
      c ∉ ['\t', '\r', '\n']) = text := by
  have hfront : (text.dropWhile fun c => c.toNat ≤ 0x20) = text := by
    rw [List.dropWhile_eq_self_iff]
    intro hlength
    have hfirst := (hvisible _ (List.getElem_mem hlength)).1
    simpa using hfirst
  rw [hfront, List.filter_eq_self]
  intro c hc
  have hcode := (hvisible c hc).1
  rw [decide_eq_true_eq]
  intro hmem
  have hsmall : ∀ c ∈ ['\t', '\r', '\n'], c.toNat ≤ 0x20 := by simp
  exact absurd (hsmall c hmem) (Nat.not_le.mpr hcode)

theorem upTo_self {sep : Char} (hnone : sep ∉ text) : upTo sep text = text := by
  rw [upTo, partition?_eq_none hnone]
  rfl

theorem upTo_append {sep : Char} (hfront : sep ∉ text) (rest : List Char) :
    upTo sep (text ++ sep :: rest) = text := by
  rw [upTo, partition?_append hfront]
  rfl

theorem after_append {sep : Char} (hfront : sep ∉ text) (rest : List Char) :
    after sep (text ++ sep :: rest) = rest := by
  rw [after, partition?_append hfront]
  rfl

theorem isPort_digits (port : Port) (hne : port.digits ≠ []) : isPort port.digits = true := by
  have hdigits : ∀ c ∈ ['0', '1', '2', '3', '4', '5', '6', '7', '8', '9'],
      isDigitChar c = true := List.all_eq_true.mp (by decide)
  simp only [isPort, Bool.and_eq_true, decide_eq_true_eq, List.all_eq_true]
  exact ⟨hne, fun c hc => hdigits c (port.decimal c hc)⟩

/-- The host that is read from a text without a path. -/
theorem plainHost_authority (authority : Authority)
    (hupTo : upTo '/' text = authority.text) :
    plainHost unicode text = some (unicode.casefold authority.heard) := by
  have hopen : ∀ letters : List Char, authority.text = letters →
      letters.head? ≠ some '[' → plainHost unicode text =
        (let read :=
          match rpartition? ':' letters with
          | some (host, port) => if host ≠ [] && isPort port then host else letters
          | none => letters
        if read = [] then none else some (unicode.casefold read)) := by
    intro letters hletters hhead
    unfold plainHost
    rw [hupTo, hletters]
    split
    · next hcons => exact absurd (by rfl) hhead
    · rfl
  have hclosed : ∀ literal more, authority.text = '[' :: (literal ++ ']' :: more) →
      ']' ∉ literal → plainHost unicode text = some (unicode.casefold literal) := by
    intro literal more hletters hbracket
    unfold plainHost
    rw [hupTo, hletters]
    simp only [partition?_append hbracket, Option.map_some]
  cases authority with
  | name name =>
      rw [hopen name.letters rfl (fun hhead =>
          name.not_mem (c := '[') (by decide) (List.mem_of_mem_head? hhead)),
        rpartition?_eq_none (name.not_mem (by decide))]
      exact if_neg name.nonempty
  | namePort name port hport =>
      rw [hopen (name.letters ++ ':' :: port.digits) rfl,
        rpartition?_append _ (port.not_mem (by decide))]
      · simp [isPort_digits port hport, name.nonempty, Authority.heard, Authority.host]
      · rw [List.head?_append_of_ne_nil _ name.nonempty]
        exact fun hhead => name.not_mem (c := '[') (by decide) (List.mem_of_mem_head? hhead)
  | bare literal =>
      rw [hopen literal.letters rfl (fun hhead =>
        literal.not_mem (c := '[') (by decide) (List.mem_of_mem_head? hhead))]
      have hcolons := literal.colons
      rcases last_separator ':' literal.letters with hnone | ⟨front, last, hlast, hletters⟩
      · rw [List.count_eq_zero_of_not_mem hnone] at hcolons
        exact absurd hcolons (by decide)
      · have hfront := literal.front_ne_nil hletters hlast
        have hne : literal.letters ≠ [] := by
          rw [hletters]
          simp
        rw [Authority.heard, hletters, rpartition?_append front hlast, ← hletters]
        by_cases hport : isPort last = true
        · simp [hfront, hport]
        · simp [hport, hne]
  | bracketed literal =>
      exact hclosed literal.letters [] rfl (literal.not_mem (by decide))
  | bracketedPort literal port =>
      exact hclosed literal.letters (':' :: port.digits) rfl (literal.not_mem (by decide))

/-- A colon in an authority is followed by something, or it stands in brackets. -/
theorem Authority.colon_followed (authority : Authority) {front more : List Char}
    (htext : authority.text = front ++ ':' :: more) (hfront : ':' ∉ front) :
    more ≠ [] ∨ front.head? = some '[' := by
  have hbracket : ∀ letters, authority.text = '[' :: letters → front.head? = some '[' := by
    intro letters hletters
    rw [htext] at hletters
    cases front with
    | nil => simp at hletters
    | cons c front =>
        rw [List.cons_append, List.cons.injEq] at hletters
        rw [hletters.1]
        rfl
  cases authority with
  | name name =>
      have hmem : ':' ∈ name.letters := by
        rw [show name.letters = front ++ ':' :: more from htext]
        simp
      exact absurd hmem (name.not_mem (by decide))
  | namePort name port hport =>
      refine .inl ?_
      have hsame := congrArg (partition? ':') htext
      rw [Authority.text, partition?_append (name.not_mem (by decide)),
        partition?_append hfront, Option.some.injEq, Prod.mk.injEq] at hsame
      rw [← hsame.2]
      exact hport
  | bare literal =>
      refine .inl ?_
      rintro rfl
      have hcolons := literal.colons
      rw [show literal.letters = front ++ [':'] from htext, List.count_append,
        List.count_eq_zero_of_not_mem hfront] at hcolons
      exact absurd hcolons (by decide)
  | bracketed literal => exact .inr (hbracket _ rfl)
  | bracketedPort literal port => exact .inr (hbracket _ rfl)

/-- A path behind an authority is never taken for a host. -/
theorem urlNetloc_path (authority : Authority) (rest : Rest) :
    urlNetloc unicode (authority.text ++ '/' :: rest.letters) = .ok [] := by
  have hvisible := (Spelling.path authority rest).visible
  rw [Spelling.letters] at hvisible
  rw [urlNetloc, cleaned_visible hvisible]
  have hfirst : ∀ more, authority.text ++ '/' :: rest.letters ≠ '/' :: more := by
    intro more hmore
    cases htext : authority.text with
    | nil => exact authority.ne_nil htext
    | cons c letters =>
        rw [htext, List.cons_append, List.cons.injEq] at hmore
        exact authority.no_slash (htext ▸ hmore.1 ▸ List.mem_cons_self)
  have hscheme : ∀ more, afterScheme (authority.text ++ '/' :: rest.letters) ≠
      '/' :: '/' :: more := by
    intro more
    rw [afterScheme]
    split
    · next scheme after hpart =>
        split
        · next hscheme =>
            rw [Bool.and_eq_true, List.all_eq_true] at hscheme
            rcases first_separator ':' authority.text with hnone | ⟨front, back, hfront, htext⟩
            · -- the colon stands in the path, and the slash before it is in no scheme
              have hslash : '/' ∈ scheme := by
                rcases first_separator ':' rest.letters with hrest | ⟨path, back, hpath, hrest⟩
                · rw [partition?_eq_none (by simp [hnone, hrest])] at hpart
                  cases hpart
                · have hfront : ':' ∉ authority.text ++ '/' :: path := by simp [hnone, hpath]
                  rw [hrest, ← List.cons_append, ← List.append_assoc,
                    partition?_append hfront, Option.some.injEq, Prod.mk.injEq] at hpart
                  rw [← hpart.1]
                  simp
              exact absurd (of_decide_eq_true (hscheme.2 _ hslash)) (by decide)
            · rw [htext, List.append_assoc, List.cons_append, partition?_append hfront,
                Option.some.injEq, Prod.mk.injEq] at hpart
              obtain ⟨rfl, rfl⟩ := hpart
              rcases authority.colon_followed htext hfront with hback | hbracket
              · intro hslashes
                cases back with
                | nil => exact hback rfl
                | cons c back =>
                    rw [List.cons_append, List.cons.injEq] at hslashes
                    exact authority.no_slash (htext ▸ hslashes.1 ▸ by simp)
              · rw [hbracket] at hscheme
                exact absurd hscheme.1 (by decide)
        · exact hfirst _
    · exact hfirst _
  split
  · next hslashes => exact absurd hslashes (hscheme _)
  · rfl

theorem splitNetloc_append {netloc rest : List Char}
    (hnetloc : ∀ c ∈ netloc, c ∉ ['/', '?', '#'])
    (hrest : rest = [] ∨ rest.head? ∈ [some '/', some '?', some '#']) :
    splitNetloc (netloc ++ rest) = netloc := by
  rw [splitNetloc, List.takeWhile_append_of_pos (fun c hc => decide_eq_true (hnetloc c hc))]
  rcases hrest with rfl | hhead
  · simp
  · cases rest with
    | nil => simp
    | cons c rest =>
        have hc : c ∈ ['/', '?', '#'] := by simpa using hhead
        rw [List.takeWhile_cons_of_neg (by simp only [hc, not_true_eq_false, decide_false,
          Bool.false_eq_true, not_false_eq_true]), List.append_nil]

theorem Url.userText_cases (url : Url) :
    url.userText = [] ∨ ∃ user : UserInfo, url.userText = user.letters ++ ['@'] := by
  rw [Url.userText]
  split
  · exact .inl rfl
  · next user _ => exact .inr ⟨user, rfl⟩

theorem Url.portText_cases (url : Url) :
    url.portText = [] ∨ ∃ port : Port, url.portText = ':' :: port.digits := by
  rw [Url.portText]
  split
  · exact .inl rfl
  · next port _ => exact .inr ⟨port, rfl⟩

/-- What the pieces of a `netloc` do not hold is not in it. -/
theorem Url.netloc_not_mem (url : Url) {c : Char} (huser : c ∈ ['/', '?', '#', '[', ']'])
    (hhost : c ∉ url.host.text) : c ∉ url.netloc := by
  have hmark : c ≠ '@' ∧ c ≠ ':' ∧ c ∉ ['0', '1', '2', '3', '4', '5', '6', '7', '8', '9'] := by
    have hall : ∀ c ∈ ['/', '?', '#', '[', ']'],
        c ≠ '@' ∧ c ≠ ':' ∧ c ∉ ['0', '1', '2', '3', '4', '5', '6', '7', '8', '9'] := by
      simp
    exact hall c huser
  rw [Url.netloc, List.mem_append, List.mem_append, not_or, not_or]
  refine ⟨?_, hhost, ?_⟩
  · rcases url.userText_cases with h | ⟨user, h⟩
    · simp [h]
    · have hletters : c ∉ user.letters := fun hmem => by
        have hplain := user.plain c hmem
        simp only [List.mem_cons, List.not_mem_nil, or_false, not_or] at hplain huser
        tauto
      simp [h, hletters, hmark.1]
  · rcases url.portText_cases with h | ⟨port, h⟩
    · simp [h]
    · simp [h, hmark.2.1, port.not_mem hmark.2.2]

theorem Url.afterLast_netloc (url : Url) :
    afterLast '@' url.netloc = url.host.text ++ url.portText := by
  have hnone : '@' ∉ url.host.text ++ url.portText := by
    rw [List.mem_append, not_or]
    constructor
    · generalize url.host = host
      cases host with
      | name name => exact name.not_mem (by decide)
      | ipv6 literal => simp [Host.text, literal.not_mem (c := '@') (by decide)]
    · rcases url.portText_cases with h | ⟨port, h⟩
      · simp [h]
      · simp [h, port.not_mem (c := '@')]
  rw [Url.netloc, afterLast]
  rcases url.userText_cases with h | ⟨user, h⟩
  · rw [h, List.nil_append, rpartition?_eq_none hnone]
    rfl
  · rw [h, List.append_assoc, List.singleton_append, rpartition?_append _ hnone]
    rfl

/-- The brackets of a URL pass, and its host is found. -/
theorem Url.host_found (url : Url) :
    checkBrackets url.netloc = true ∧ hostInfo url.netloc = url.host.letters := by
  have hport : ∀ c ∈ ['[', ']', '@'], c ∉ url.portText := by
    intro c hc
    have hmark : ∀ c ∈ ['[', ']', '@'], c ≠ ':' ∧
        c ∉ ['0', '1', '2', '3', '4', '5', '6', '7', '8', '9'] := by simp
    rcases url.portText_cases with h | ⟨port, h⟩
    · simp [h]
    · simp [h, (hmark c hc).1, port.not_mem (hmark c hc).2]
  cases hhost : url.host with
  | name name =>
      have hnone : ∀ c ∈ ['[', ']'], c ∉ name.letters := by
        have hreserved : ∀ c ∈ ['[', ']'], c ∈ reserved := by simp [reserved]
        exact fun c hc => name.not_mem (hreserved c hc)
      have hopen : '[' ∉ url.netloc :=
        url.netloc_not_mem (by decide) (by rw [hhost]; exact hnone '[' (by decide))
      have hclose : ']' ∉ url.netloc :=
        url.netloc_not_mem (by decide) (by rw [hhost]; exact hnone ']' (by decide))
      have hinfo : '[' ∉ name.letters ++ url.portText := by
        rw [List.mem_append, not_or]
        exact ⟨hnone _ (by decide), hport _ (by decide)⟩
      constructor
      · simp [checkBrackets, hopen, hclose]
      · rw [hostInfo, url.afterLast_netloc, hhost]
        change (match partition? '[' (name.letters ++ url.portText) with
          | some (_, bracketed) => upTo ']' bracketed
          | none => upTo ':' (name.letters ++ url.portText)) = name.letters
        rw [partition?_eq_none hinfo]
        rcases url.portText_cases with h | ⟨port, h⟩
        · rw [h, List.append_nil]
          exact upTo_self (name.not_mem (by decide))
        · rw [h]
          exact upTo_append (name.not_mem (by decide)) _
  | ipv6 literal =>
      have htail : url.host.text ++ url.portText =
          '[' :: (literal.letters ++ ']' :: url.portText) := by
        rw [hhost, Host.text]
        simp
      have hbracket : ']' ∉ literal.letters := literal.not_mem (by decide)
      have hsplit : partition? '[' ('[' :: (literal.letters ++ ']' :: url.portText)) =
          some ([], literal.letters ++ ']' :: url.portText) := if_pos rfl
      constructor
      · have hopen : '[' ∈ url.netloc := by
          rw [Url.netloc, htail]
          simp
        have hclose : ']' ∈ url.netloc := by
          rw [Url.netloc, htail]
          simp
        have hv : literal.letters.head? ≠ some 'v' := fun hhead =>
          literal.not_mem (c := 'v') (by decide) (List.mem_of_mem_head? hhead)
        have hchecked : checkBracketedNetloc url.netloc = true := by
          rw [checkBracketedNetloc, url.afterLast_netloc, htail, hsplit]
          simp only [after_append hbracket, upTo_append hbracket, checkBracketedHost, if_neg hv,
            literal.reads, Bool.and_true, decide_true, Bool.true_and]
          rcases url.portText_cases with h | ⟨port, h⟩
          · simp [h]
          · simp [h]
        simp [checkBrackets, hopen, hclose, hchecked]
      · rw [hostInfo, url.afterLast_netloc, htail]
        simp only [hsplit]
        exact upTo_append hbracket _

theorem Url.afterScheme_text (url : Url) :
    afterScheme url.text = '/' :: '/' :: (url.netloc ++ url.rest.letters) := by
  have hcolon : ':' ∉ url.letter :: url.more := by
    have hnone : ':' ∉ schemeChars := by decide
    rw [List.mem_cons, not_or]
    refine ⟨fun h => ?_, fun h => hnone (url.scheme.2 _ h)⟩
    have hletters : ':' ∉ asciiLetters := by decide
    exact hletters (h ▸ url.scheme.1)
  have hletter : url.letter ∈ schemeChars := List.mem_append_left _ url.scheme.1
  rw [afterScheme, Url.text, ← List.cons_append, partition?_append hcolon]
  simp only [List.head?_cons, Option.any_some, List.all_cons, Bool.and_eq_true,
    decide_eq_true_eq, List.all_eq_true]
  exact if_pos ⟨url.scheme.1, hletter, url.scheme.2⟩

theorem Url.urlNetloc_text (url : Url) :
    urlNetloc unicode url.text =
      if checkNetloc unicode url.netloc then .ok url.netloc else .error .invalidUrl := by
  have hvisible : ∀ c ∈ url.text, Visible c := (Spelling.url url).visible
  have hsplit : splitNetloc (url.netloc ++ url.rest.letters) = url.netloc := by
    refine splitNetloc_append (fun c hc hmem => ?_) url.ends
    have huser : ∀ c ∈ ['/', '?', '#'], c ∈ ['/', '?', '#', '[', ']'] := by simp
    refine url.netloc_not_mem (huser c hmem) ?_ hc
    generalize url.host = host
    cases host with
    | name name =>
        have hreserved : ∀ c ∈ ['/', '?', '#'], c ∈ reserved := by simp [reserved]
        exact name.not_mem (hreserved c hmem)
    | ipv6 literal =>
        have hplain : ∀ c ∈ ['/', '?', '#'], c ∉ ':' :: '.' :: hexDigits ∧ c ∉ ['[', ']'] := by
          simp [hexDigits]
        have hc' := hplain c hmem
        have hliteral := literal.not_mem hc'.1
        simp only [List.mem_cons, List.not_mem_nil, or_false, not_or] at hc'
        simp [Host.text, hliteral, hc'.2]
  rw [urlNetloc, cleaned_visible hvisible, url.afterScheme_text]
  simp only [hsplit, url.host_found.1, Bool.true_and]

theorem Host.ne_nil (host : Host) : host.letters ≠ [] := by
  cases host with
  | name name => exact name.nonempty
  | ipv6 literal => exact (Authority.bare literal).ne_nil

theorem Host.no_percent (host : Host) : '%' ∉ host.letters := by
  cases host with
  | name name => exact name.not_mem (by decide)
  | ipv6 literal => exact literal.not_mem (by decide)

/-- Every spelling is read as it is heard. -/
theorem networkHost_text (spelling : Spelling) :
    networkHost unicode spelling.text = spelling.reading unicode := by
  have hblank : ¬ (spelling.letters = [] ∨ '\x00' ∈ spelling.letters) :=
    not_or.mpr ⟨spelling.ne_nil, noNul_of_visible spelling.visible⟩
  have hread : networkHost unicode spelling.text =
      if [':', '/', '/'] <:+: spelling.letters then
        (urlNetloc unicode spelling.letters).map fun netloc =>
          (hostnameOf unicode netloc).map unicode.casefold
      else .ok (plainHost unicode spelling.letters) := by
    simp only [networkHost, Spelling.text, pyStrip_visible spelling.visible, if_neg hblank]
    split
    · cases urlNetloc unicode spelling.letters <;> rfl
    · rfl
  rw [hread]
  cases spelling with
  | plain authority =>
      have hplain : ¬ [':', '/', '/'] <:+: authority.text := fun hinside =>
        authority.no_slash (hinside.subset (by decide))
      rw [Spelling.letters, if_neg hplain, plainHost_authority authority (upTo_self authority.no_slash)]
      rfl
  | path authority rest =>
      rw [Spelling.letters]
      by_cases hinner : [':', '/', '/'] <:+: authority.text ++ '/' :: rest.letters
      · rw [if_pos hinner, urlNetloc_path]
        simp only [Spelling.reading, Spelling.refused, Spelling.heard, if_pos hinner]
        rfl
      · rw [if_neg hinner, plainHost_authority authority (upTo_append authority.no_slash _)]
        simp only [Spelling.reading, Spelling.refused, Spelling.heard, if_neg hinner]
        rfl
  | url url =>
      have hinside : [':', '/', '/'] <:+: url.text :=
        ⟨url.letter :: url.more, url.netloc ++ url.rest.letters, by simp [Url.text]⟩
      rw [Spelling.letters, if_pos hinside, url.urlNetloc_text]
      by_cases hnetloc : checkNetloc unicode url.netloc = true
      · have hname : hostnameOf unicode url.netloc = some (unicode.lower url.host.letters) := by
          simp only [hostnameOf, url.host_found.2, if_neg url.host.ne_nil,
            partition?_eq_none url.host.no_percent]
        simp only [Spelling.reading, Spelling.refused, Spelling.heard, hnetloc, if_true,
          Bool.not_true, Bool.false_eq_true, if_false, Except.map, hname, Option.map_some,
          unicode.casefold_lower]
      · simp only [Spelling.reading, Spelling.refused, hnetloc, if_false, Bool.false_eq_true,
          Bool.not_false, if_true]
        rfl

end Reading

section Deciding

variable {unicode : Unicode}

/-- The host of the target is the host of an entry, case aside. -/
def Listed (unicode : Unicode) (entries : List Spelling) (target : Spelling) : Prop :=
  ∃ entry ∈ entries, unicode.casefold entry.host = unicode.casefold target.host

/-- A bare literal whose last group is decimal. -/
def Authority.Clipped : Authority → Prop
  | .bare literal =>
      ∃ front last, literal.letters = front ++ ':' :: last ∧ isPort last = true
  | _ => False

/-- The host of the spelling is heard whole. -/
def Spelling.Faithful (unicode : Unicode) : Spelling → Prop
  | .plain authority => ¬ authority.Clipped
  | .path authority rest =>
      ¬ authority.Clipped ∧ ¬ [':', '/', '/'] <:+: authority.text ++ '/' :: rest.letters
  | .url written => checkNetloc unicode written.netloc = true

/-- Two spellings sound alike: the host of each is what is heard of it. -/
def Alike (unicode : Unicode) (entry target : Spelling) : Prop :=
  ∃ left right, entry.heard = some left ∧ target.heard = some right ∧
    unicode.casefold left = unicode.casefold right

/-- The host is on the list, and nothing there sounds like the target, or a URL is
refused. -/
def WronglyDenied (unicode : Unicode) (entries : List Spelling) (target : Spelling) : Prop :=
  Listed unicode entries target ∧
    ((∃ spelling ∈ target :: entries, spelling.refused unicode = true) ∨
      ∀ entry ∈ entries, ¬ Alike unicode entry target)

/-- The host is not on the list, but something there sounds like the target. -/
def WronglyAllowed (unicode : Unicode) (entries : List Spelling) (target : Spelling) : Prop :=
  ¬ Listed unicode entries target ∧
    (∀ spelling ∈ target :: entries, spelling.refused unicode = false) ∧
      ∃ entry ∈ entries, Alike unicode entry target

theorem not_mem_of_isPort {letters : List Char} (hport : isPort letters = true) :
    ':' ∉ letters := by
  rw [isPort, Bool.and_eq_true, List.all_eq_true] at hport
  intro hmem
  exact absurd (hport.2 ':' hmem) (by decide)

theorem Authority.heard_eq_host_iff (authority : Authority) :
    authority.heard = authority.host ↔ ¬ authority.Clipped := by
  cases authority with
  | bare literal =>
      rw [Authority.heard, Authority.host, Authority.Clipped]
      constructor
      · rintro hheard ⟨front, last, hletters, hport⟩
        rw [hletters, rpartition?_append front (not_mem_of_isPort hport)] at hheard
        simp [hport] at hheard
      · intro hclipped
        rcases last_separator ':' literal.letters with hnone | ⟨front, last, hlast, hletters⟩
        · rw [rpartition?_eq_none hnone]
        · have hport : ¬ isPort last = true := fun hport =>
            hclipped ⟨front, last, hletters, hport⟩
          rw [hletters, rpartition?_append front hlast]
          exact if_neg hport
  | name name => exact iff_of_true rfl not_false
  | namePort name port _ => exact iff_of_true rfl not_false
  | bracketed literal => exact iff_of_true rfl not_false
  | bracketedPort literal port => exact iff_of_true rfl not_false

/-- What is heard of a clipped literal is another host. -/
theorem Authority.clipped_differs {authority : Authority} (hclipped : authority.Clipped) :
    unicode.casefold authority.heard ≠ unicode.casefold authority.host := by
  cases authority with
  | bare literal =>
      obtain ⟨front, last, hletters, hport⟩ := hclipped
      have hheard : (Authority.bare literal).heard = front := by
        rw [Authority.heard, hletters, rpartition?_append front (not_mem_of_isPort hport)]
        exact if_pos hport
      rw [hheard, Authority.host, hletters, CapabilityPaths.casefold_append]
      intro hsame
      exact CapabilityPaths.casefold_ne_nil (List.cons_ne_nil ':' last)
        (List.append_right_eq_self.mp hsame.symm)
  | name name => cases hclipped
  | namePort name port _ => cases hclipped
  | bracketed literal => cases hclipped
  | bracketedPort literal port => cases hclipped

theorem Spelling.Faithful.faithful_heard {spelling : Spelling}
    (hfaithful : spelling.Faithful unicode) :
    spelling.refused unicode = false ∧ spelling.heard = some spelling.host := by
  cases spelling with
  | plain authority =>
      exact ⟨rfl, congrArg some (authority.heard_eq_host_iff.mpr hfaithful)⟩
  | path authority rest =>
      refine ⟨rfl, ?_⟩
      rw [Spelling.heard, if_neg hfaithful.2, authority.heard_eq_host_iff.mpr hfaithful.1]
      rfl
  | url url =>
      have hnetloc : checkNetloc unicode url.netloc = true := hfaithful
      exact ⟨by simp [Spelling.refused, hnetloc], rfl⟩

/-- Every entry is read, unless one is refused. -/
theorem mapM_entries (entries : List Spelling) :
    (entries.map Spelling.text).mapM (networkHost unicode) =
      if entries.any (Spelling.refused unicode) then .error .invalidUrl
      else .ok (entries.map fun entry => entry.heard.map unicode.casefold) := by
  induction entries with
  | nil => rfl
  | cons entry rest ih =>
      rw [List.map_cons, List.mapM_cons, networkHost_text, ih, List.any_cons,
        Spelling.reading]
      cases entry.refused unicode with
      | true => rfl
      | false =>
          cases rest.any (Spelling.refused unicode) with
          | true => rfl
          | false => rfl

theorem Authority.heard_ne_nil (authority : Authority) : authority.heard ≠ [] := by
  by_cases hclipped : authority.Clipped
  · cases authority with
    | bare literal =>
        obtain ⟨front, last, hletters, hport⟩ := hclipped
        have hlast := not_mem_of_isPort hport
        rw [Authority.heard, hletters, rpartition?_append front hlast]
        simpa [hport] using literal.front_ne_nil hletters hlast
    | name name => cases hclipped
    | namePort name port _ => cases hclipped
    | bracketed literal => cases hclipped
    | bracketedPort literal port => cases hclipped
  · rw [authority.heard_eq_host_iff.mpr hclipped]
    cases authority with
    | name name => exact name.nonempty
    | namePort name port _ => exact name.nonempty
    | bare literal => exact (Host.ipv6 literal).ne_nil
    | bracketed literal => exact (Host.ipv6 literal).ne_nil
    | bracketedPort literal port => exact (Host.ipv6 literal).ne_nil

theorem Spelling.heard_ne_nil {spelling : Spelling} {letters : List Char}
    (hheard : spelling.heard = some letters) : letters ≠ [] := by
  cases spelling with
  | plain authority =>
      rw [← Option.some.inj hheard]
      exact authority.heard_ne_nil
  | path authority rest =>
      rw [Spelling.heard] at hheard
      split at hheard
      · cases hheard
      · rw [← Option.some.inj hheard]
        exact authority.heard_ne_nil
  | url url =>
      rw [← Option.some.inj hheard]
      exact url.host.ne_nil

/-- A target is allowed when no URL is refused and an entry sounds like it. -/
theorem evaluateNetwork_allowed_iff (entries : List Spelling) (target : Spelling) :
    evaluateNetwork unicode ⟨.allowList, entries.map Spelling.text⟩ target.text =
        .ok ⟨true, "allowed"⟩ ↔
      (∀ spelling ∈ target :: entries, spelling.refused unicode = false) ∧
        ∃ entry ∈ entries, Alike unicode entry target := by
  have hmode : ¬ NetworkMode.allowList = .denyAll := by simp
  rw [evaluateNetwork, networkHost_text, Spelling.reading, List.forall_mem_cons]
  cases htarget : target.refused unicode with
  | true =>
      refine iff_of_false ?_ fun h => Bool.false_ne_true h.1.1.symm
      simp [hmode, bind, Except.bind]
  | false =>
      cases hheard : target.heard with
      | none =>
          refine iff_of_false ?_ ?_
          · simp [hmode, bind, Except.bind, pure, Except.pure]
          · rintro ⟨-, _, -, _, _, -, hsome, -⟩
            rw [hheard] at hsome
            cases hsome
      | some letters =>
          have hne : unicode.casefold letters ≠ [] :=
            CapabilityPaths.casefold_ne_nil (target.heard_ne_nil hheard)
          have halike : ∀ entry, Alike unicode entry target ↔
              entry.heard.map unicode.casefold = some (unicode.casefold letters) := by
            intro entry
            rw [Option.map_eq_some_iff]
            constructor
            · rintro ⟨left, right, hleft, hright, hsame⟩
              rw [hheard, Option.some.injEq] at hright
              exact ⟨left, hleft, hright ▸ hsame⟩
            · rintro ⟨left, hleft, hsame⟩
              exact ⟨left, letters, hleft, hheard, hsame⟩
          simp only [halike]
          have hrefused : (∀ entry ∈ entries, entry.refused unicode = false) ↔
              entries.any (Spelling.refused unicode) = false := by
            rw [List.any_eq_false]
            simp only [Bool.not_eq_true]
          rw [hrefused]
          simp only [hmode, if_false, Bool.false_eq_true, Option.map_some, bind, Except.bind,
            mapM_entries, true_and]
          cases entries.any (Spelling.refused unicode) with
          | true => simp
          | false =>
              simp only [Bool.false_eq_true, if_false, List.any_map, hne, pure, Except.pure,
                true_and, ne_eq, not_false_eq_true, decide_true, Bool.and_true]
              have hany : (entries.any ((fun item => decide (item =
                  some (unicode.casefold letters))) ∘ fun entry =>
                    entry.heard.map unicode.casefold)) = true ↔
                  ∃ entry ∈ entries, entry.heard.map unicode.casefold =
                    some (unicode.casefold letters) := by
                rw [List.any_eq_true]
                simp only [Function.comp_apply, decide_eq_true_eq]
              rw [← hany]
              split
              · next h => simp [h]
              · next h => simp [h]

/-- The list is exact unless a host on it is denied or another one allowed. -/
theorem exact_iff (entries : List Spelling) (target : Spelling) :
    (evaluateNetwork unicode ⟨.allowList, entries.map Spelling.text⟩ target.text =
        .ok ⟨true, "allowed"⟩ ↔ Listed unicode entries target) ↔
      ¬ WronglyDenied unicode entries target ∧ ¬ WronglyAllowed unicode entries target := by
  rw [evaluateNetwork_allowed_iff, WronglyDenied, WronglyAllowed]
  have hrefused : (∃ spelling ∈ target :: entries, spelling.refused unicode = true) ↔
      ¬ ∀ spelling ∈ target :: entries, spelling.refused unicode = false := by
    rw [not_forall]
    refine exists_congr fun spelling => ?_
    rw [Classical.not_imp, Bool.not_eq_false]
  have halike : (∀ entry ∈ entries, ¬ Alike unicode entry target) ↔
      ¬ ∃ entry ∈ entries, Alike unicode entry target := by
    rw [not_exists]
    refine forall_congr' fun entry => ?_
    rw [not_and]
  rw [hrefused, halike]
  generalize (∃ entry ∈ entries, Alike unicode entry target) = alike
  generalize (∀ spelling ∈ target :: entries, spelling.refused unicode = false) = unrefused
  clear hrefused halike
  tauto

/-- Among spellings that are heard whole the list is exact. -/
theorem exact_of_faithful {entries : List Spelling} {target : Spelling}
    (htarget : target.Faithful unicode) (hentries : ∀ entry ∈ entries, entry.Faithful unicode) :
    evaluateNetwork unicode ⟨.allowList, entries.map Spelling.text⟩ target.text =
      .ok ⟨true, "allowed"⟩ ↔ Listed unicode entries target := by
  rw [evaluateNetwork_allowed_iff, List.forall_mem_cons]
  have hall : target.refused unicode = false ∧
      ∀ entry ∈ entries, entry.refused unicode = false :=
    ⟨htarget.faithful_heard.1, fun entry hentry => (hentries entry hentry).faithful_heard.1⟩
  rw [and_iff_right hall, Listed]
  refine exists_congr fun entry => and_congr_right fun hentry => ?_
  rw [Alike, htarget.faithful_heard.2, (hentries entry hentry).faithful_heard.2]
  simp

def Authority.whole : Authority → Authority
  | .bare literal => .bracketed literal
  | authority => authority

def Host.whole : Host → Authority
  | .name host => .name host
  | .ipv6 literal => .bracketed literal

/-- The same host, written so that it is heard whole. -/
def Spelling.whole : Spelling → Spelling
  | .plain authority | .path authority _ => .plain authority.whole
  | .url written => .plain written.host.whole

theorem Authority.whole_spec (authority : Authority) :
    ¬ authority.whole.Clipped ∧ authority.whole.host = authority.host := by
  cases authority <;> exact ⟨not_false, rfl⟩

theorem Spelling.whole_spec (spelling : Spelling) :
    spelling.whole.Faithful unicode ∧ spelling.whole.host = spelling.host := by
  cases spelling with
  | plain authority => exact authority.whole_spec
  | path authority rest => exact authority.whole_spec
  | url url =>
      change ¬ url.host.whole.Clipped ∧ url.host.whole.host = url.host.letters
      generalize url.host = host
      cases host <;> exact ⟨not_false, rfl⟩

/-- What is not heard whole does not sound like its host. -/
theorem not_alike_whole {spelling : Spelling} (hunfaithful : ¬ spelling.Faithful unicode)
    (hrefused : spelling.refused unicode = false) :
    ¬ Alike unicode spelling.whole spelling := by
  rintro ⟨left, right, hleft, hright, hsame⟩
  rw [(@Spelling.whole_spec unicode spelling).1.faithful_heard.2,
    (@Spelling.whole_spec unicode spelling).2, Option.some.injEq] at hleft
  subst hleft
  cases spelling with
  | plain authority =>
      rw [Spelling.heard, Option.some.injEq] at hright
      subst hright
      exact Authority.clipped_differs (Classical.not_not.mp hunfaithful) hsame.symm
  | path authority rest =>
      rw [Spelling.heard] at hright
      split at hright
      · cases hright
      · next hinner =>
          rw [Option.some.injEq] at hright
          subst hright
          have hclipped : authority.Clipped := by
            by_contra h
            exact hunfaithful ⟨h, hinner⟩
          exact Authority.clipped_differs hclipped hsame.symm
  | url url =>
      rw [Spelling.refused, Bool.not_eq_false'] at hrefused
      exact hunfaithful hrefused

/-- A target is judged exactly by every list that is heard whole, just when it is
heard whole itself. -/
theorem faithful_iff (target : Spelling) :
    target.Faithful unicode ↔
      ∀ entries : List Spelling, (∀ entry ∈ entries, entry.Faithful unicode) →
        (evaluateNetwork unicode ⟨.allowList, entries.map Spelling.text⟩ target.text =
          .ok ⟨true, "allowed"⟩ ↔ Listed unicode entries target) := by
  constructor
  · exact fun htarget entries hentries => exact_of_faithful htarget hentries
  · intro hexact
    by_contra hunfaithful
    obtain ⟨hwhole, hhost⟩ := @Spelling.whole_spec unicode target
    have hlisted : Listed unicode [target.whole] target :=
      ⟨target.whole, List.mem_singleton_self _, by rw [hhost]⟩
    have hallowed := (hexact [target.whole] (List.forall_mem_singleton.mpr hwhole)).mpr hlisted
    obtain ⟨hrefused, entry, hentry, halike⟩ :=
      (evaluateNetwork_allowed_iff _ _).mp hallowed
    obtain rfl := List.mem_singleton.mp hentry
    exact not_alike_whole hunfaithful (hrefused target List.mem_cons_self) halike

end Deciding

end NetworkHosts

end HermesPipeline
