/-
The bounded redaction of captured texts: canaries replaced by a marker one after
another, and the result cut to a number of bytes.
-/
import HermesPipeline.Lib.Masking
import HermesPipeline.Lib.PyText

namespace HermesPipeline

namespace Redaction

open Lib Lib.Substitution Lib.Masking Lib.Utf8

/-- `MAX_BOUNDED_BYTES`. -/
def maxBoundedBytes : Nat := 4096

/-- `REDACTED`. -/
def redactedMarker : PyText := .ofLetters
  ['[', 'R', 'E', 'D', 'A', 'C', 'T', 'E', 'D', ']']

/-- The word in the marker. -/
def markerWord : PyText := .ofLetters ['R', 'E', 'D', 'A', 'C', 'T', 'E', 'D']

/-- The marker behind its first bracket. -/
def markerRest : PyText := markerWord ++ [.scalar ']']

/-- `bound_text`; a surrogate that stands alone cannot be encoded, and raises. -/
def boundText (text : PyText) (limit : Nat) : Option (List Char) :=
  text.letters?.map fun letters =>
    if byteLength letters ≤ limit then letters else takeBytes limit letters

/-- The loop of `redact` over the canaries. -/
def replaceCanaries (text : PyText) (canaries : List PyText) : PyText :=
  canaries.foldl (fun redacted canary =>
    if canary = [] then redacted else replaceAll canary redactedMarker redacted) text

/-- `redact`. -/
def redact (text : PyText) (canaries : List PyText) : Option (List Char) :=
  boundText (replaceCanaries text canaries) maxBoundedBytes

/-- The loop of `redact` over characters that carry their positions in the text; the
characters of the marker have none. -/
def traceCanaries (text : PyText) (canaries : List PyText) : List (PyChar × Option Nat) :=
  canaries.foldl (fun redacted canary =>
    if canary = [] then redacted
    else maskWord Prod.fst (redactedMarker.map fun c => (c, none)) redacted canary) (placed 0 text)

/-- The positions of the text whose characters the result keeps. -/
def keptPositions (text : PyText) (canaries : List PyText) : List Nat :=
  match redact text canaries with
  | none => []
  | some result => ((traceCanaries text canaries).take result.length).filterMap Prod.snd

/-- A canary that is not empty, has no bracket and is no part of the marker's word. -/
structure Secret (canary : PyText) : Prop where
  nonempty : canary ≠ []
  opening : .scalar '[' ∉ canary
  closing : .scalar ']' ∉ canary
  foreign : ¬ canary <:+: markerWord

/-- The order of the canaries is not seen in what is made of a text, and no character
that is kept stands in an occurrence of a canary. -/
structure Clean (canaries : List PyText) (text : PyText) : Prop where
  orderFree : ∀ first second : List PyText, first.Perm canaries → second.Perm canaries →
    redact text first = redact text second
  complete : ∀ order : List PyText, order.Perm canaries → ∀ i ∈ keptPositions text order,
    ∀ canary ∈ canaries, ∀ start, canary <+: text.drop start → start ≤ i →
      start + canary.length ≤ i

variable {canaries : List PyText} {text : PyText}

/-- The marker with the positions that its characters do not have. -/
theorem map_marker : (redactedMarker.map fun c => (c, (none : Option Nat))).map Prod.fst =
    .scalar '[' :: markerRest := rfl

/-- The traced loop is the loop. -/
theorem map_traceCanaries (text : PyText) (canaries : List PyText) :
    (traceCanaries text canaries).map Prod.fst = replaceCanaries text canaries := by
  have hall : ∀ traced : List (PyChar × Option Nat),
      (canaries.foldl (fun redacted canary =>
        if canary = [] then redacted
        else maskWord Prod.fst (redactedMarker.map fun c => (c, none)) redacted
          canary) traced).map Prod.fst = replaceCanaries (traced.map Prod.fst) canaries := by
    induction canaries with
    | nil => exact fun traced => rfl
    | cons canary rest ih =>
        intro traced
        rw [List.foldl_cons, ih, replaceCanaries, replaceCanaries, List.foldl_cons]
        split
        · rfl
        · rw [map_maskWord, map_marker]
          rfl
  rw [traceCanaries, hall, map_placed]

/-- What is shown is the front of the traced loop's result. -/
theorem redact_front {result : List Char} (hredact : redact text canaries = some result) :
    PyText.ofLetters result =
      ((traceCanaries text canaries).take result.length).map Prod.fst := by
  obtain ⟨letters, hletters, hbound⟩ := Option.map_eq_some_iff.mp hredact
  have hfront : result <+: letters := by
    rw [← hbound]
    split
    · exact List.prefix_refl letters
    · exact takeBytes_front _ _
  rw [List.map_take, map_traceCanaries]
  have hall : replaceCanaries text canaries = .ofLetters letters :=
    PyText.eq_ofLetters hletters
  rw [hall, PyText.ofLetters, PyText.ofLetters, ← List.map_take,
    ← List.prefix_iff_eq_take.mp hfront]

/-- A canary starts nowhere in the marker. -/
theorem Secret.inert {canary : PyText} (hsecret : Secret canary) :
    Inert (.scalar '[') markerRest canary where
  nonempty := hsecret.nonempty
  unmarked := hsecret.opening
  outside := by
    rintro tail ⟨before, hbefore⟩ hne rest hstarts
    obtain ⟨front, last, rfl⟩ := (List.eq_nil_or_concat tail).resolve_left hne
    rw [List.concat_eq_append] at hbefore hstarts
    rw [← List.append_assoc] at hbefore
    have hparts : before ++ front = .scalar '[' :: markerWord ∧ [last] = [.scalar ']'] :=
      List.append_inj' hbefore rfl
    have hlast : last = .scalar ']' := (List.cons.inj hparts.2).1
    have hfront : front <:+ .scalar '[' :: markerWord :=
      ⟨before, hparts.1⟩
    rw [List.append_assoc, hlast] at hstarts
    have hwithin : canary <:+: .scalar '[' :: markerWord :=
      (starts_of_not_mem hsecret.closing hstarts).isInfix.trans hfront.isInfix
    rcases List.infix_cons_iff.mp hwithin with hbegins | hpart
    · cases canary with
      | nil => exact hsecret.nonempty rfl
      | cons head canary =>
          refine hsecret.opening ?_
          rw [(List.cons_prefix_cons.mp hbegins).1]
          exact List.mem_cons_self
    · exact hsecret.foreign hpart

theorem traceCanaries_eq (hsecret : ∀ canary ∈ canaries, Secret canary) (text : PyText) :
    traceCanaries text canaries =
      maskAll Prod.fst (redactedMarker.map fun c => (c, none)) canaries (placed 0 text) := by
  refine List.foldl_ext _ _ _ fun redacted canary hcanary => ?_
  rw [if_neg (hsecret canary hcanary).nonempty]

section Apart

/-- In any order the canaries are masked as if in one pass. -/
theorem traceCanaries_perm (hsecret : ∀ canary ∈ canaries, Secret canary)
    (hapart : Apart canaries text) {order : List PyText} (horder : order.Perm canaries) :
    traceCanaries text order =
      maskOnce Prod.fst (redactedMarker.map fun c => (c, none)) canaries (placed 0 text) := by
  rw [traceCanaries_eq (fun canary hcanary => hsecret canary (horder.mem_iff.mp hcanary))]
  refine maskAll_perm map_marker (fun canary hcanary => (hsecret canary hcanary).inert) ?_ horder
  rwa [map_placed]

/-- A text in which no occurrences overlap is redacted cleanly. -/
theorem clean_of_apart (hsecret : ∀ canary ∈ canaries, Secret canary)
    (hapart : Apart canaries text) : Clean canaries text where
  orderFree := by
    intro first second hfirst hsecond
    rw [redact, redact, ← map_traceCanaries, ← map_traceCanaries,
      traceCanaries_perm hsecret hapart hfirst, traceCanaries_perm hsecret hapart hsecond]
  complete := by
    intro order horder i hi canary hcanary start hstarts hbefore
    have hmarker : ∀ b ∈ redactedMarker.map fun c => (c, (none : Option Nat)), b.2 = none := by
      intro b hb
      obtain ⟨c, -, rfl⟩ := List.mem_map.mp hb
      rfl
    rw [keptPositions] at hi
    split at hi
    · cases hi
    · obtain ⟨⟨c, place⟩, hmem, rfl⟩ := List.mem_filterMap.mp hi
      have htrace := List.mem_of_mem_take hmem
      rw [traceCanaries_perm hsecret hapart horder] at htrace
      have hkept := place_kept hmarker (fun word hword => (hsecret word hword).nonempty) hapart
        htrace
      have hbound := hkept.2 canary hcanary start hstarts (by omega)
      omega

end Apart

section Overlaps

/-- A cut leaves at least so many characters as surely fit. -/
theorem length_of_boundText {result : List Char}
    (hbound : boundText text maxBoundedBytes = some result) :
    min text.length 1024 ≤ result.length := by
  obtain ⟨letters, hletters, hresult⟩ := Option.map_eq_some_iff.mp hbound
  have hlength : text.length = letters.length := by
    rw [PyText.eq_ofLetters hletters, PyText.ofLetters, List.length_map]
  rw [hlength, ← hresult]
  split
  · exact Nat.min_le_left _ _
  · have hfits : byteLength (letters.take 1024) ≤ maxBoundedBytes := by
      have hle := byteLength_le (letters.take 1024)
      rw [List.length_take] at hle
      rw [maxBoundedBytes]
      omega
    have hfront := (takeBytes_starts (List.take_prefix 1024 letters) hfits).length_le
    rw [List.length_take] at hfront
    omega

/-- A text that starts with a canary and has no canary behind it keeps what is behind. -/
theorem traceCanaries_front {canary : PyText} {others : List PyText}
    (hsecret : ∀ other ∈ canary :: others, Secret other) (hbegins : canary <+: text)
    (hnone : ∀ other ∈ canary :: others, ¬ other <:+: text.drop canary.length) :
    traceCanaries text (canary :: others) = (redactedMarker.map fun c => (c, none)) ++
      placed canary.length (text.drop canary.length) := by
  have hcanary := hsecret canary List.mem_cons_self
  have hkept : maskWord Prod.fst (redactedMarker.map fun c => (c, (none : Option Nat)))
      (placed canary.length (text.drop canary.length)) canary =
        placed canary.length (text.drop canary.length) :=
    maskWord_eq_self (by rw [map_placed]; exact hnone canary List.mem_cons_self)
  rw [traceCanaries_eq hsecret, maskAll, List.foldl_cons,
    maskWord_of_starts hcanary.nonempty (by rwa [map_placed]), drop_placed, Nat.zero_add, hkept]
  refine maskAll_mask map_marker
    (fun other hother => (hsecret other (List.mem_cons_of_mem canary hother)).inert) ?_
  rw [map_placed]
  exact fun other hother => hnone other (List.mem_cons_of_mem canary hother)

/-- Canaries leave what stands around a marker. -/
theorem surrounded_replaceCanaries (hsecret : ∀ canary ∈ canaries, Secret canary)
    (htext : Surrounded (.scalar '[') markerRest text) :
    Surrounded (.scalar '[') markerRest
      (replaceCanaries text canaries) := by
  induction canaries generalizing text with
  | nil => exact htext
  | cons canary rest ih =>
      have hcanary := hsecret canary List.mem_cons_self
      rw [replaceCanaries, List.foldl_cons, if_neg hcanary.nonempty, ← replaceCanaries]
      exact ih (fun other hother => hsecret other (List.mem_cons_of_mem canary hother))
        (htext.masked hcanary.inert)

/-- A canary in another one is seen in the order. -/
theorem unnested_of_clean (hsecret : ∀ canary ∈ canaries, Secret canary)
    (hclean : ∀ text, Clean canaries text) {first second : PyText} (hfirst : first ∈ canaries)
    (hsecond : second ∈ canaries) (hpart : first <:+: second) : first = second := by
  by_contra hne
  have hwhole := List.perm_cons_erase hsecond
  have hinner := List.perm_cons_erase hfirst
  have hwholeSecret : ∀ canary ∈ second :: canaries.erase second, Secret canary :=
    fun canary hcanary => hsecret canary (hwhole.mem_iff.mpr hcanary)
  have hsame := (hclean second).orderFree _ _ hwhole.symm hinner.symm
  have hmarked : replaceCanaries second (second :: canaries.erase second) = redactedMarker := by
    rw [← map_traceCanaries, traceCanaries_front hwholeSecret (List.prefix_refl second)]
    · rw [List.drop_length, List.map_append, map_placed, List.append_nil, map_marker]
      rfl
    · intro other hother hwithin
      rw [List.drop_length] at hwithin
      exact (hwholeSecret other hother).nonempty (List.infix_nil.mp hwithin)
  have hshown : redact second (second :: canaries.erase second) =
      some ['[', 'R', 'E', 'D', 'A', 'C', 'T', 'E', 'D', ']'] := by
    rw [redact, hmarked]
    rfl
  obtain ⟨left, right, hleft, hmore⟩ : Surrounded (.scalar '[') markerRest
      (replaceCanaries second (first :: canaries.erase first)) := by
    rw [replaceCanaries, List.foldl_cons, if_neg (hsecret first hfirst).nonempty,
      ← replaceCanaries]
    exact surrounded_replaceCanaries
      (fun other hother => hsecret other (List.mem_of_mem_erase hother))
      (surrounded_of_part (hsecret first hfirst).nonempty hpart hne)
  have hlong : 10 < (replaceCanaries second (first :: canaries.erase first)).length := by
    have hten : (PyChar.scalar '[' ::
        markerRest).length = 10 := rfl
    rw [hleft, List.length_append, List.length_append, hten]
    rcases hmore with hmore | hmore
    · have hpos := List.length_pos_iff.mpr hmore
      omega
    · have hpos := List.length_pos_iff.mpr hmore
      omega
  have hshort := length_of_boundText (hsame ▸ hshown)
  rw [List.length_cons] at hshort
  simp only [List.length_cons, List.length_nil] at hshort
  omega

/-- A canary that ends as another one starts leaves a part of the other one. -/
theorem borderless_of_clean (hsecret : ∀ canary ∈ canaries, Secret canary)
    (hencodable : ∀ canary ∈ canaries, canary.Encodable)
    (hclean : ∀ text, Clean canaries text) {first second shared : PyText}
    (hfirst : first ∈ canaries) (hsecond : second ∈ canaries) (hends : shared <:+ first)
    (hshared : shared ≠ []) (hproper : shared ≠ first) : ¬ shared <+: second := by
  rintro ⟨more, rfl⟩
  obtain ⟨before, rfl⟩ := hends
  have hunnested := fun {left right : PyText} =>
    @unnested_of_clean canaries hsecret hclean left right
  have hpos := List.length_pos_iff.mpr hshared
  have hfree : ∀ other ∈ canaries, ¬ other <:+: more := by
    intro other hother hwithin
    have hsame := hunnested hother hsecond (hwithin.trans (List.suffix_append shared more).isInfix)
    have hlength := hwithin.length_le
    rw [hsame, List.length_append] at hlength
    omega
  cases more with
  | nil =>
      rw [List.append_nil] at hsecond
      exact hproper (hunnested hsecond hfirst (List.suffix_append before shared).isInfix)
  | cons c more =>
    have horder := List.perm_cons_erase hfirst
    have hdrop : ((before ++ shared) ++ c :: more).drop (before ++ shared).length = c :: more :=
      List.drop_left
    have htrace := @traceCanaries_front ((before ++ shared) ++ c :: more) (before ++ shared)
      (canaries.erase (before ++ shared))
      (fun other hother => hsecret other (horder.mem_iff.mpr hother)) (List.prefix_append _ _)
      (by
        rw [hdrop]
        exact fun other hother => hfree other (horder.mem_iff.mpr hother))
    rw [hdrop] at htrace
    have hletters : replaceCanaries ((before ++ shared) ++ c :: more)
        ((before ++ shared) :: canaries.erase (before ++ shared)) =
          redactedMarker ++ c :: more := by
      rw [← map_traceCanaries, htrace, List.map_append, map_placed, map_marker]
      rfl
    obtain ⟨result, hresult⟩ : ∃ result, redact ((before ++ shared) ++ c :: more)
        ((before ++ shared) :: canaries.erase (before ++ shared)) = some result := by
      have hall : (redactedMarker ++ c :: more).Encodable := by
        intro s hs
        rcases List.mem_append.mp hs with hs | hs
        · obtain ⟨letter, -, hletter⟩ := List.mem_map.mp hs
          cases hletter
        · exact hencodable _ hsecond s (List.mem_append_right _ hs)
      rw [redact, hletters, boundText, (PyText.letters?_eq_some_iff _ _).mpr ⟨hall, rfl⟩]
      exact ⟨_, rfl⟩
    rw [redact, hletters] at hresult
    have hlength := length_of_boundText hresult
    have hten : redactedMarker.length = 10 := rfl
    rw [List.length_append, List.length_cons, hten] at hlength
    have hkept : (before ++ shared).length ∈ keptPositions ((before ++ shared) ++ c :: more)
        ((before ++ shared) :: canaries.erase (before ++ shared)) := by
      rw [keptPositions, redact, hletters, hresult]
      refine List.mem_filterMap.mpr ⟨(c, some (before ++ shared).length), ?_, rfl⟩
      obtain ⟨n, hn⟩ : ∃ n, result.length - 10 = n + 1 := ⟨result.length - 11, by omega⟩
      rw [htrace, placed, List.take_append, List.length_map, hten, hn, List.take_succ_cons]
      exact List.mem_append_right _ List.mem_cons_self
    have hstarts : shared ++ c :: more <+: ((before ++ shared) ++ c :: more).drop before.length := by
      rw [List.append_assoc, List.drop_left]
    have hbound := (hclean _).complete _ horder.symm _ hkept _ hsecond before.length hstarts
      (by rw [List.length_append]; omega)
    simp only [List.length_append, List.length_cons] at hbound
    omega

end Overlaps

/-- A text is redacted cleanly where no occurrences of canaries overlap, and all texts
are just when no canary is a part of another or ends as one starts. -/
theorem redact_clean_iff (canaries : List PyText) (hsecret : ∀ canary ∈ canaries, Secret canary) :
    (∀ text, Apart canaries text → Clean canaries text) ∧
      (Solid canaries → ∀ text, Clean canaries text) ∧
        ((∀ canary ∈ canaries, canary.Encodable) →
          ((∀ text, Clean canaries text) ↔ Solid canaries)) := by
  have hclean : Solid canaries → ∀ text, Clean canaries text := fun hsolid text =>
    clean_of_apart hsecret (hsolid.apart text)
  refine ⟨fun text => clean_of_apart hsecret, hclean, fun hencodable => ⟨fun hall => ?_, hclean⟩⟩
  exact {
    unnested := fun first hfirst second hsecond =>
      unnested_of_clean hsecret hall hfirst hsecond
    borderless := fun first hfirst second hsecond shared =>
      borderless_of_clean hsecret hencodable hall hfirst hsecond }

namespace RedactionWitness

/-- One canary starts as the other one does. -/
def nested : List PyText := [.ofLetters ['a', 'b'], .ofLetters ['a', 'b', 'c']]

theorem nested_secret : ∀ canary ∈ nested, Secret canary := by
  intro canary hcanary
  rcases List.mem_cons.mp hcanary with rfl | hcanary
  · exact ⟨by decide, by decide, by decide, by decide⟩
  · rw [List.mem_singleton.mp hcanary]
    exact ⟨by decide, by decide, by decide, by decide⟩

/-- The shorter canary first leaves the end of the longer one. -/
theorem nested_canary_left : ¬ ∀ canaries : List PyText, (∀ canary ∈ canaries, Secret canary) →
    ∀ text, Clean canaries text := by
  intro hall
  have hclean := hall nested nested_secret (.ofLetters ['a', 'b', 'c'])
  have hsame := hclean.orderFree nested nested.reverse (List.Perm.refl _) (List.reverse_perm _)
  have hshort : redact (.ofLetters ['a', 'b', 'c']) nested =
      some ['[', 'R', 'E', 'D', 'A', 'C', 'T', 'E', 'D', ']', 'c'] := rfl
  have hlong : redact (.ofLetters ['a', 'b', 'c']) nested.reverse =
      some ['[', 'R', 'E', 'D', 'A', 'C', 'T', 'E', 'D', ']'] := rfl
  rw [hshort, hlong] at hsame
  exact absurd hsame (by decide)

def apart : List PyText := [.ofLetters ['a', 'b'], .ofLetters ['c', 'd']]

theorem apart_solid : Solid apart where
  unnested := by decide
  borderless := by
    have hall : ∀ first ∈ apart, ∀ second ∈ apart, ∀ shared ∈ first.tails, shared ≠ [] →
        shared ≠ first → ¬ shared <+: second := by decide
    intro first hfirst second hsecond shared hshared
    exact hall first hfirst second hsecond shared ((List.mem_tails _ _).mpr hshared)

theorem apart_secret : ∀ canary ∈ apart, Secret canary := by
  intro canary hcanary
  rcases List.mem_cons.mp hcanary with rfl | hcanary
  · exact ⟨by decide, by decide, by decide, by decide⟩
  · rw [List.mem_singleton.mp hcanary]
    exact ⟨by decide, by decide, by decide, by decide⟩

theorem apart_clean : Clean apart (.ofLetters ['a', 'b', 'c', 'd', 'a']) :=
  (redact_clean_iff apart apart_secret).2.1 apart_solid _

end RedactionWitness

end Redaction

end HermesPipeline
