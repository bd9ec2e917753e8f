/-
The hash chain of the event log.  Every row stores the hash of the row before it
and its own hash, computed over the joined text of that link, its sequence and
its payload.  A chain that verification accepts is the chain one gets by
appending its payloads one by one, so its last hash stands for all of it.
-/
import HermesPipeline.Lib.AsciiText
import HermesPipeline.Lib.HashChain
import Mathlib.Data.Nat.Digits.Defs
import Mathlib.Tactic.SplitIfs

namespace HermesPipeline

open Lib

/-- SHA-256 of a UTF-8 text as 64 lower-case hexadecimal digits. -/
structure Sha256 where
  hexdigest : String → String
  length_hexdigest : ∀ text, (hexdigest text).length = 64
  hex : ∀ text, ∀ c ∈ (hexdigest text).toList, c ∈ "0123456789abcdef".toList

namespace Sha256

variable (sha : Sha256)

/-- The letters of a digest, checked one by one. -/
theorem hex_of_all {digest : String}
    (hall : digest.toList.all ("0123456789abcdef".toList.contains ·) = true) :
    ∀ c ∈ digest.toList, c ∈ "0123456789abcdef".toList := fun c hc =>
  List.contains_iff_mem.mp (List.all_eq_true.mp hall c hc)

theorem hexdigest_ne_empty (text : String) : sha.hexdigest text ≠ "" := by
  intro hempty
  have hlength := sha.length_hexdigest text
  rw [hempty] at hlength
  exact absurd hlength (by decide)

theorem bar_not_mem_hexdigest (text : String) :
    '|' ∉ (sha.hexdigest text).toList := by
  intro hmem
  exact absurd (sha.hex text _ hmem) (by decide)

/-- No two of the texts have one digest. -/
def NoCollision (texts : List String) : Prop :=
  ∀ left ∈ texts, ∀ right ∈ texts,
    sha.hexdigest left = sha.hexdigest right → left = right

end Sha256

namespace EventChain

/-- The columns of an event row that the chain covers. -/
structure ChainRow where
  sequence : Int
  previousEventHash : Option String
  eventHash : String
  payloadJson : String
deriving Repr, DecidableEq

/-- The text that is hashed for one row. -/
def chainText (previousEventHash : Option String) (sequence : Int)
    (payloadJson : String) : String :=
  previousEventHash.getD "" ++ "|" ++ toString sequence ++ "|" ++ payloadJson

/-- The event hash of one row. -/
def chainHash (sha : Sha256) (previousEventHash : Option String)
    (sequence : Int) (payloadJson : String) : String :=
  sha.hexdigest (chainText previousEventHash sequence payloadJson)

/-- The rows from position `index` on, where the row before them has the hash
`expectedPrevious`. -/
def verifyFrom (sha : Sha256) (index : Nat) (expectedPrevious : Option String) :
    List ChainRow → Except String Unit
  | [] => .ok ()
  | row :: rest =>
      let expectedSequence : Int := index + 1
      let sequence := row.sequence
      if sequence ≠ expectedSequence then
        .error s!"event chain sequence gap at {sequence} (expected {expectedSequence})"
      else if row.previousEventHash ≠ expectedPrevious then
        .error s!"event chain link mismatch at sequence {sequence}"
      else if row.eventHash ≠
          chainHash sha row.previousEventHash sequence row.payloadJson then
        .error s!"event chain hash mismatch at sequence {sequence}"
      else verifyFrom sha (index + 1) (some row.eventHash) rest

/-- Verify a complete event log chain. -/
def verifyChain (sha : Sha256) (events : List ChainRow) : Except String Unit :=
  verifyFrom sha 0 none events

/-- The stored hash of the last row. -/
def lastEventHash (events : List ChainRow) : Option String :=
  events.getLast?.map ChainRow.eventHash

/-- The row that is appended to `events` for a payload. -/
def nextRow (sha : Sha256) (events : List ChainRow) (payloadJson : String) :
    ChainRow where
  sequence := events.length + 1
  previousEventHash := lastEventHash events
  eventHash := chainHash sha (lastEventHash events) (events.length + 1) payloadJson
  payloadJson := payloadJson

/-- The log that appending the payloads one after the other gives. -/
def appendAll (sha : Sha256) (payloads : List String) : List ChainRow :=
  HashChain.build (nextRow sha) payloads

/-- The text that was hashed for a stored row. -/
def ChainRow.text (row : ChainRow) : String :=
  chainText row.previousEventHash row.sequence row.payloadJson

section Verify

variable {sha : Sha256}

@[simp] theorem lastEventHash_append (events : List ChainRow) (row : ChainRow) :
    lastEventHash (events ++ [row]) = some row.eventHash := by
  simp [lastEventHash]

theorem prefix_foldl (sha : Sha256) (events : List ChainRow) (payloads : List String) :
    events <+: payloads.foldl
      (fun rows payload => rows ++ [nextRow sha rows payload]) events := by
  induction payloads generalizing events with
  | nil => exact List.prefix_refl _
  | cons payload rest ih =>
      exact (List.prefix_append events _).trans (ih _)

/-- Verification accepts exactly the rows that appending their payloads to the
rows before them gives. -/
theorem verifyFrom_iff (sha : Sha256) (events rows : List ChainRow) :
    verifyFrom sha events.length (lastEventHash events) rows = .ok () ↔
      events ++ rows = (rows.map ChainRow.payloadJson).foldl
        (fun rows payload => rows ++ [nextRow sha rows payload]) events := by
  induction rows generalizing events with
  | nil => simp [verifyFrom]
  | cons row rest ih =>
      have hnext : verifyFrom sha events.length (lastEventHash events)
          (row :: rest) = .ok () ↔
          row = nextRow sha events row.payloadJson ∧
            verifyFrom sha (events.length + 1) (some row.eventHash) rest =
              .ok () := by
        obtain ⟨sequence, previous, stored, payload⟩ := row
        simp only [verifyFrom, nextRow, ChainRow.mk.injEq]
        split_ifs with hsequence hprevious hstored
        · simp [hsequence]
        · simp [hprevious]
        · rw [not_not] at hsequence hprevious
          subst hsequence hprevious
          simp [hstored]
        · rw [not_not] at hsequence hprevious hstored
          subst hsequence hprevious
          simp [hstored]
      have hrest := ih (events ++ [row])
      rw [List.length_append, List.length_singleton, lastEventHash_append] at hrest
      rw [hnext, hrest, List.map_cons, List.foldl_cons, List.append_assoc,
        List.singleton_append]
      constructor
      · rintro ⟨hrow, hrows⟩
        rw [← hrow]
        exact hrows
      · intro hrows
        have hrow : row = nextRow sha events row.payloadJson := by
          have hstart := prefix_foldl sha
            (events ++ [nextRow sha events row.payloadJson])
            (rest.map ChainRow.payloadJson)
          rw [← hrows] at hstart
          have hhead : [nextRow sha events row.payloadJson] <+: row :: rest :=
            (List.prefix_append_right_inj events).mp hstart
          exact (List.cons_prefix_cons.mp hhead).1.symm
        refine ⟨hrow, ?_⟩
        rw [← hrow] at hrows
        exact hrows

theorem verifyChain_iff (rows : List ChainRow) :
    verifyChain sha rows = .ok () ↔
      rows = appendAll sha (rows.map ChainRow.payloadJson) := by
  have hrows := verifyFrom_iff sha [] rows
  rwa [List.nil_append] at hrows

@[simp] theorem payloads_appendAll (payloads : List String) :
    (appendAll sha payloads).map ChainRow.payloadJson = payloads := by
  induction payloads using List.reverseRecOn with
  | nil => rfl
  | append_singleton payloads payload ih =>
      rw [appendAll, HashChain.build_append_singleton, List.map_append]
      simpa [appendAll, nextRow] using ih

/-- A log that only grew by appended rows is accepted. -/
theorem verifyChain_appendAll (payloads : List String) :
    verifyChain sha (appendAll sha payloads) = .ok () := by
  rw [verifyChain_iff, payloads_appendAll]

theorem verifyChain_append {rows : List ChainRow} (payload : String)
    (hverified : verifyChain sha rows = .ok ()) :
    verifyChain sha (rows ++ [nextRow sha rows payload]) = .ok () := by
  rw [verifyChain_iff] at hverified ⊢
  rw [List.map_append, List.map_singleton, appendAll,
    HashChain.build_append_singleton]
  change rows ++ _ = appendAll sha _ ++ [nextRow sha (appendAll sha _) _]
  rw [← hverified]
  rfl

end Verify

section Commitment

variable {sha : Sha256}

/-- Texts that begin with a part without the separator. -/
theorem split_first_inj {sep : Char} {front front' rest rest' : List Char}
    (hfront : sep ∉ front) (hfront' : sep ∉ front')
    (heq : front ++ sep :: rest = front' ++ sep :: rest') :
    front = front' ∧ rest = rest' := by
  induction front generalizing front' with
  | nil =>
      cases front' with
      | nil => exact ⟨rfl, (List.cons.inj heq).2⟩
      | cons c front' =>
          have hsep : sep = c := (List.cons.inj heq).1
          exact absurd (List.mem_cons.mpr (.inl hsep)) hfront'
  | cons c front ih =>
      cases front' with
      | nil =>
          have hsep : c = sep := (List.cons.inj heq).1
          exact absurd (List.mem_cons.mpr (.inl hsep.symm)) hfront
      | cons c' front' =>
          obtain ⟨rfl, htail⟩ := List.cons.inj heq
          obtain ⟨rfl, rfl⟩ := ih (fun hmem => hfront (List.mem_cons_of_mem _ hmem))
            (fun hmem => hfront' (List.mem_cons_of_mem _ hmem)) htail
          exact ⟨rfl, rfl⟩

theorem bar_not_mem_toString (n : Nat) : '|' ∉ (toString (n : Int)).toList := by
  intro hmem
  have hdigits : (toString (n : Int)).toList = Nat.toDigits 10 n :=
    Nat.toList_repr
  rw [hdigits] at hmem
  exact absurd (Nat.isDigit_of_mem_toDigits (by decide) (by decide) hmem)
    (by decide)

/-- The hashed text determines the link and the payload. -/
theorem chainText_inj {previous previous' : Option String} {n n' : Nat}
    {payload payload' : String}
    (hprevious : '|' ∉ (previous.getD "").toList)
    (hprevious' : '|' ∉ (previous'.getD "").toList)
    (heq : chainText previous (n : Int) payload =
      chainText previous' (n' : Int) payload') :
    previous.getD "" = previous'.getD "" ∧ payload = payload' := by
  have hchars := congrArg String.toList heq
  have hbar : "|".toList = ['|'] := by decide
  simp only [chainText, String.toList_append, hbar, List.append_assoc,
    List.singleton_append] at hchars
  obtain ⟨hlink, hafter⟩ := split_first_inj hprevious hprevious' hchars
  obtain ⟨-, hpayload⟩ := split_first_inj (bar_not_mem_toString n)
    (bar_not_mem_toString n') hafter
  exact ⟨String.toList_inj.mp hlink, String.toList_inj.mp hpayload⟩

/-- The last hash of an appended log is empty or a digest. -/
theorem lastEventHash_appendAll (sha : Sha256) (payloads : List String) :
    lastEventHash (appendAll sha payloads) = none ∨
      ∃ text, lastEventHash (appendAll sha payloads) =
        some (sha.hexdigest text) := by
  induction payloads using List.reverseRecOn with
  | nil => exact .inl rfl
  | append_singleton payloads payload =>
      right
      rw [appendAll, HashChain.build_append_singleton, lastEventHash_append]
      exact ⟨_, rfl⟩

theorem bar_not_mem_lastEventHash (payloads : List String) :
    '|' ∉ ((lastEventHash (appendAll sha payloads)).getD "").toList := by
  rcases lastEventHash_appendAll sha payloads with hnone | ⟨text, hsome⟩
  · rw [hnone]
    decide
  · rw [hsome]
    exact sha.bar_not_mem_hexdigest text

/-- An empty log and a digest do not read the same. -/
theorem lastEventHash_inj {us vs : List String}
    (heq : (lastEventHash (appendAll sha us)).getD "" =
      (lastEventHash (appendAll sha vs)).getD "") :
    lastEventHash (appendAll sha us) = lastEventHash (appendAll sha vs) := by
  rcases lastEventHash_appendAll sha us with hus | ⟨text, hus⟩ <;>
    rcases lastEventHash_appendAll sha vs with hvs | ⟨text', hvs⟩ <;>
    rw [hus, hvs] at heq ⊢
  · exact absurd heq.symm (sha.hexdigest_ne_empty text')
  · exact absurd heq (sha.hexdigest_ne_empty text)
  · exact congrArg some heq

theorem text_mem {us payloads : List String} {u : String}
    (hstart : us ++ [u] <+: payloads) :
    (nextRow sha (appendAll sha us) u).text ∈
      (appendAll sha payloads).map ChainRow.text := by
  have hrows : appendAll sha (us ++ [u]) <+: appendAll sha payloads :=
    HashChain.build_prefix hstart
  rw [appendAll, HashChain.build_append_singleton] at hrows
  have hmem : nextRow sha (appendAll sha us) u ∈ appendAll sha payloads :=
    hrows.subset (List.mem_append_right _ (List.mem_singleton_self _))
  exact List.mem_map.mpr ⟨_, hmem, rfl⟩

/-- The hash of a row commits to its payload and to the row before it. -/
theorem commits {left right : List String}
    (hcollision : sha.NoCollision ((appendAll sha left).map ChainRow.text ++
      (appendAll sha right).map ChainRow.text)) :
    HashChain.Commits (nextRow sha) ChainRow.eventHash left right := by
  intro us u vs v hleft hright hdigest
  have htext := hcollision _ (List.mem_append_left _ (text_mem hleft)) _
    (List.mem_append_right _ (text_mem hright)) hdigest
  simp only [ChainRow.text, nextRow, ← Nat.cast_add_one] at htext
  obtain ⟨hlink, hpayload⟩ := chainText_inj (bar_not_mem_lastEventHash us)
    (bar_not_mem_lastEventHash vs) htext
  exact ⟨hpayload, lastEventHash_inj hlink⟩

end Commitment

/-- Two accepted logs with the same last hash are the same log; and a log that
only grew by appended rows is accepted. -/
theorem verify_chain_tamper_evident (sha : Sha256) :
    (∀ left right : List ChainRow,
      sha.NoCollision (left.map ChainRow.text ++ right.map ChainRow.text) →
      verifyChain sha left = .ok () → verifyChain sha right = .ok () →
      lastEventHash left = lastEventHash right → left = right) ∧
      ∀ payloads, verifyChain sha (appendAll sha payloads) = .ok () := by
  refine ⟨fun left right hcollision hleft hright hlast => ?_,
    verifyChain_appendAll⟩
  rw [verifyChain_iff] at hleft hright
  rw [hleft, hright] at hcollision hlast ⊢
  exact congrArg (appendAll sha)
    (HashChain.eq_of_head_eq (commits hcollision) hlast)

/-! A log of two increments, and the log whose first payload was rewritten and
whose hashes were computed again. -/

namespace EventChainWitness

def first : String := "\x7b\"revision\":1,\"value\":1\x7d"

def second : String := "\x7b\"revision\":2,\"value\":2\x7d"

def rewritten : String := "\x7b\"revision\":1,\"value\":7\x7d"

/-- The digests of the hashed texts, and of one more payload. -/
def digests : List (String × String) :=
  [("\x7b\"delta\":1\x7d",
      "2c5f28bf1e8d3e071e067f175a8b6f728081245b9b8313a9cce44a5aeff3f246"),
    ("|1|" ++ first,
      "e1647f17f3c17c172a8d064181b100a102d084c377fae41aef47e8467a2f9902"),
    ("e1647f17f3c17c172a8d064181b100a102d084c377fae41aef47e8467a2f9902|2|" ++
      second,
      "63bdef0ae914ce07ab168b914e8e80498c6ab1187e2c64f8bca2a96c3be6e579"),
    ("|1|" ++ rewritten,
      "3cd64e61b704c632186adbbd46ace0c914ee4d45157b702702b9dbf3b86d77f9"),
    ("3cd64e61b704c632186adbbd46ace0c914ee4d45157b702702b9dbf3b86d77f9|2|" ++
      second,
      "de8ecdc2f0c37f7a83077b86ee9cdc01c03aa6712015041ca7272385f12440da")]

/-- The digest of the empty text. -/
def emptyDigest : String :=
  "e3b0c44298fc1c149afbf4c8996fb92427ae41e4649b934ca495991b7852b855"

def hexdigest (text : String) : String :=
  ((digests.find? fun entry => entry.1 = text).map Prod.snd).getD emptyDigest

theorem hexdigest_mem (text : String) :
    hexdigest text ∈ emptyDigest :: digests.map Prod.snd := by
  cases hfind : digests.find? fun entry => entry.1 = text with
  | none => simp [hexdigest, hfind]
  | some entry =>
      have hmem := List.mem_map_of_mem (f := Prod.snd) (List.mem_of_find?_eq_some hfind)
      have hdigest : hexdigest text = entry.2 := by simp [hexdigest, hfind]
      rw [hdigest]
      exact List.mem_cons_of_mem _ hmem

def sha : Sha256 where
  hexdigest := hexdigest
  length_hexdigest := by
    intro text
    have hall : ∀ digest ∈ emptyDigest :: digests.map Prod.snd,
        digest.length = 64 := by
      simp only [← String.length_toList, ← AsciiText.letters_eq]
      decide +kernel
    exact hall _ (hexdigest_mem text)
  hex := by
    intro text
    have hall : ∀ digest ∈ emptyDigest :: digests.map Prod.snd,
        digest.toList.all ("0123456789abcdef".toList.contains ·) = true := by
      simp only [← AsciiText.letters_eq]
      decide +kernel
    exact Sha256.hex_of_all (hall _ (hexdigest_mem text))

def log : List ChainRow := appendAll sha [first, second]

def rewrittenLog : List ChainRow := appendAll sha [rewritten, second]

/-- The rewritten log is accepted too, but under another last hash. -/
theorem rewritten_head :
    verifyChain sha rewrittenLog = .ok () ∧
      lastEventHash log ≠ lastEventHash rewrittenLog := by
  have hlog : verifyChain sha log = .ok () :=
    (verify_chain_tamper_evident sha).2 _
  have hrewritten : verifyChain sha rewrittenLog = .ok () :=
    (verify_chain_tamper_evident sha).2 _
  refine ⟨hrewritten, fun hlast => ?_⟩
  have hcollision : sha.NoCollision
      (log.map ChainRow.text ++ rewrittenLog.map ChainRow.text) := by
    unfold Sha256.NoCollision
    decide +kernel
  have hsame := (verify_chain_tamper_evident sha).1 _ _ hcollision hlog
    hrewritten hlast
  exact absurd hsame (by decide +kernel)

end EventChainWitness

end EventChain

end HermesPipeline
