/-
The evaluation of a capability request against a profile: paths by lexical
containment, hosts by an allow list, the rest by membership.
-/
import HermesPipeline.NetworkHosts

namespace HermesPipeline

open Lib

namespace Capability

open CapabilityPaths NetworkHosts

inductive Browser
  | none
  | chromeDevtoolsMcp
deriving Repr, DecidableEq

def Browser.value : Browser → String
  | .none => "NONE"
  | .chromeDevtoolsMcp => "CHROME_DEVTOOLS_MCP"

inductive SideEffect
  | none
  | localBuild
  | localTest
  | browserTest
deriving Repr, DecidableEq

def SideEffect.value : SideEffect → String
  | .none => "NONE"
  | .localBuild => "LOCAL_BUILD"
  | .localTest => "LOCAL_TEST"
  | .browserTest => "BROWSER_TEST"

/-- `CapabilityProfile`, the members that are evaluated. -/
structure CapabilityProfile where
  readRoots : List String
  writeRoots : List String
  executables : List String
  network : Network
  secrets : List String
  browser : Browser
  sideEffects : List SideEffect

/-- `CapabilityRequest`. -/
structure CapabilityRequest where
  kind : String
  target : String
deriving Repr, DecidableEq

/-- `_KNOWN_KINDS`. -/
def knownKinds : List String :=
  ["READ_PATH", "WRITE_PATH", "EXECUTABLE", "NETWORK", "BROWSER", "SECRET", "SIDE_EFFECT"]

/-- A verdict by membership. -/
def verdict (allowed : Bool) (refusal : String) : CapabilityVerdict :=
  if allowed then ⟨true, "allowed"⟩ else ⟨false, refusal⟩

/-- `evaluate`. -/
def evaluate (unicode : Unicode) (profile : CapabilityProfile) (request : CapabilityRequest) :
    Except Failure CapabilityVerdict :=
  if request.kind ∉ knownKinds then .ok ⟨false, "unknown capability kind"⟩
  else if request.kind = "READ_PATH" then
    .ok (evaluatePath unicode.toCaseFold request.target profile.readRoots)
  else if request.kind = "WRITE_PATH" then
    .ok (evaluatePath unicode.toCaseFold request.target profile.writeRoots)
  else if request.kind = "EXECUTABLE" then
    .ok (verdict (request.target ∈ profile.executables) "executable not allowed")
  else if request.kind = "NETWORK" then
    evaluateNetwork unicode profile.network request.target
  else if request.kind = "BROWSER" then
    .ok (verdict (request.target = profile.browser.value) "browser not allowed")
  else if request.kind = "SECRET" then
    .ok (verdict (request.target ∈ profile.secrets) "secret not allowed")
  else
    .ok (verdict (request.target ∈ profile.sideEffects.map SideEffect.value)
      "side effect not allowed")

/-- A path capability and the roots it is judged by. -/
inductive PathKind
  | read
  | write
deriving Repr, DecidableEq

def PathKind.value : PathKind → String
  | .read => "READ_PATH"
  | .write => "WRITE_PATH"

def PathKind.roots : PathKind → CapabilityProfile → List String
  | .read, profile => profile.readRoots
  | .write, profile => profile.writeRoots

/-- The request is granted. -/
def Granted (unicode : Unicode) (profile : CapabilityProfile) (kind : String)
    (target : String) : Prop :=
  ∃ reason, evaluate unicode profile ⟨kind, target⟩ = .ok ⟨true, reason⟩

theorem evaluate_path (unicode : Unicode) (profile : CapabilityProfile) (kind : PathKind)
    (target : String) :
    evaluate unicode profile ⟨kind.value, target⟩ =
      .ok (evaluatePath unicode.toCaseFold target (kind.roots profile)) := by
  cases kind with
  | read => rfl
  | write => rfl

theorem evaluate_network (unicode : Unicode) (profile : CapabilityProfile)
    (target : String) :
    evaluate unicode profile ⟨"NETWORK", target⟩ =
      evaluateNetwork unicode profile.network target := rfl

theorem granted_path_iff (unicode : Unicode) (profile : CapabilityProfile) (kind : PathKind)
    (target : String) :
    Granted unicode profile kind.value target ↔
      Inside unicode.toCaseFold (kind.roots profile) (pyStrip target).toList := by
  rw [← evaluatePath_allowed_iff, Granted, evaluate_path]
  simp only [Except.ok.injEq]
  generalize evaluatePath unicode.toCaseFold target (kind.roots profile) = found
  obtain ⟨allowed, reason⟩ := found
  simp

/-- A path capability is granted exactly to the targets inside a root; a target is
resolved to names, a longer name is no root's, and more roots grant no less. -/
theorem path_capability_iff (unicode : Unicode) (kind : PathKind)
    (profile : CapabilityProfile) (target : String) (hstripped : pyStrip target = target) :
    (Granted unicode profile kind.value target ↔
      Inside unicode.toCaseFold (kind.roots profile) target.toList) ∧
    (∀ style anchor names, ResolvesTo style target.toList anchor names →
      ∀ name ∈ names, name ≠ [] ∧ name ≠ ['.'] ∧ name ≠ ['.', '.'] ∧ sepOf style ∉ name) ∧
    (∀ root style anchor parents name more below,
      kind.roots profile = [root] → more ≠ [] →
        ResolvesTo style (pyStrip root).toList anchor (parents ++ [name]) →
          ResolvesTo style target.toList anchor (parents ++ (name ++ more) :: below) →
            ¬ Granted unicode profile kind.value target) ∧
    ∀ larger : CapabilityProfile, kind.roots profile ⊆ kind.roots larger →
      Granted unicode profile kind.value target → Granted unicode larger kind.value target := by
  refine ⟨?_, ?_, ?_, ?_⟩
  · rw [granted_path_iff, hstripped]
  · exact fun style anchor names hresolves => resolved_names hresolves
  · intro root style anchor parents name more below hroots hmore hroot htarget
    rw [granted_path_iff, hroots]
    rw [← hstripped] at htarget
    exact not_inside_sibling hmore hroot htarget
  · intro larger hroots hgranted
    rw [granted_path_iff] at hgranted ⊢
    exact hgranted.mono hroots

/-- The network list is exact for a target and its entries unless one is wrongly
denied or allowed; a target is judged exactly by every list heard whole just when it
is heard whole itself. -/
theorem network_allow_iff (unicode : Unicode) (profile : CapabilityProfile)
    (target : Spelling) :
    (∀ entries : List Spelling,
      (evaluate unicode
          { profile with network := ⟨.allowList, entries.map Spelling.text⟩ }
          ⟨"NETWORK", target.text⟩ = .ok ⟨true, "allowed"⟩ ↔ Listed unicode entries target) ↔
        ¬ WronglyDenied unicode entries target ∧ ¬ WronglyAllowed unicode entries target) ∧
    (target.Faithful unicode ↔
      ∀ entries : List Spelling, (∀ entry ∈ entries, entry.Faithful unicode) →
        (evaluate unicode
          { profile with network := ⟨.allowList, entries.map Spelling.text⟩ }
          ⟨"NETWORK", target.text⟩ = .ok ⟨true, "allowed"⟩ ↔
            Listed unicode entries target)) :=
  ⟨fun entries => exact_iff entries target, faithful_iff target⟩

namespace CapabilityWitness

/-- Unicode as it is for ASCII. -/
def ascii : Unicode where
  fold c := [c.toLower]
  fold_ne_nil c := List.cons_ne_nil c.toLower []
  lower text := text
  nfkc text := text
  casefold_lower _ := rfl

def sampleProfile : CapabilityProfile where
  readRoots := ["/work"]
  writeRoots := []
  executables := []
  network := ⟨.denyAll, []⟩
  secrets := []
  browser := .none
  sideEffects := []

def climbing : List Char := ['/', 'w', 'o', 'r', 'k', '/', 'a', '/', '.', '.', '/', 'b']

theorem climbing_resolves :
    ResolvesTo .posix climbing ['/'] [['w', 'o', 'r', 'k'], ['b']] := by
  refine ⟨by decide, climbing.tail, .root (by decide), ?_, 0, ?_⟩
  · rw [Lexical.neverClimbs_iff]
    decide
  · rw [Lexical.resolves_iff]
    decide

theorem root_resolves :
    ResolvesTo .posix ['/', 'w', 'o', 'r', 'k'] ['/'] [['w', 'o', 'r', 'k']] := by
  refine ⟨by decide, ['w', 'o', 'r', 'k'], .root (by decide), ?_, 0, ?_⟩
  · rw [Lexical.neverClimbs_iff]
    decide
  · rw [Lexical.resolves_iff]
    decide

theorem stripped {letters : List Char}
    (hall : (letters.all fun c => 0x20 < c.toNat && !isPySpace c) = true) :
    pyStrip (String.ofList letters) = String.ofList letters := by
  apply String.toList_injective
  rw [pyStrip_visible fun c hc => visible_of_mem hall hc, String.toList_ofList]

/-- A step up that stays in the root. -/
theorem path_capability_granted :
    Granted ascii sampleProfile "READ_PATH" (String.ofList climbing) := by
  have hexact := path_capability_iff ascii .read sampleProfile (String.ofList climbing)
    (stripped (by decide))
  refine hexact.1.mpr ?_
  rw [String.toList_ofList]
  refine ⟨.posix, ['/'], _, climbing_resolves, "/work", List.mem_singleton_self _, ['/'],
    [['w', 'o', 'r', 'k']], ?_, ?_⟩
  · have hroot : pyStrip "/work" = String.ofList ['/', 'w', 'o', 'r', 'k'] :=
      stripped (by decide)
    rw [hroot, String.toList_ofList]
    exact root_resolves
  · exact ⟨[['b']], rfl⟩

/-- The literals that end in a digit of their own. -/
def ending (digit : Char) : List Char := ['2', '0', '0', '1', ':', 'd', 'b', '8', ':', ':', digit]

theorem ending_plain {digit : Char} (hdigit : digit ∈ hexDigits) :
    ∀ c ∈ ending digit, c ∈ ':' :: '.' :: hexDigits := by
  have hfront : (['2', '0', '0', '1', ':', 'd', 'b', '8', ':', ':'].all fun c =>
      decide (c ∈ ':' :: '.' :: hexDigits)) = true := by decide
  intro c hc
  rcases List.mem_append.mp
    (show c ∈ ['2', '0', '0', '1', ':', 'd', 'b', '8', ':', ':'] ++ [digit] from hc) with hc | hc
  · exact of_decide_eq_true (List.all_eq_true.mp hfront c hc)
  · rw [List.mem_singleton.mp hc]
    exact List.mem_cons_of_mem _ (List.mem_cons_of_mem _ hdigit)

theorem one_mem : '1' ∈ hexDigits := by decide

theorem two_mem : '2' ∈ hexDigits := by decide

theorem one_reads : isIpv6 (ending '1') = true := by decide

theorem two_reads : isIpv6 (ending '2') = true := by decide

def listed : Ipv6 := ⟨ending '1', ending_plain one_mem, one_reads⟩

def other : Ipv6 := ⟨ending '2', ending_plain two_mem, two_reads⟩

/-- Two IPv6 addresses are confused: the last group of a bare literal is dropped. -/
theorem addresses_confused :
    ¬ (evaluate ascii
        { sampleProfile with
          network := ⟨.allowList, [Spelling.text (.plain (.bare listed))]⟩ }
        ⟨"NETWORK", Spelling.text (.plain (.bare other))⟩ = .ok ⟨true, "allowed"⟩ ↔
      Listed ascii [.plain (.bare listed)] (.plain (.bare other))) := by
  rw [evaluate_network]
  have hallowed := (@evaluateNetwork_allowed_iff ascii
    [.plain (.bare listed)] (.plain (.bare other))).mpr
  intro hexact
  have hlisted := hexact.mp (hallowed ⟨by decide, _, List.mem_singleton_self _, _, _, rfl, rfl,
    by decide⟩)
  obtain ⟨entry, hentry, hsame⟩ := hlisted
  obtain rfl := List.mem_singleton.mp hentry
  exact absurd hsame (by decide)

end CapabilityWitness

end Capability

end HermesPipeline
