/-
The rendering of architecture diagnostics.  A message is cut at its line budget; the
lines are cut at a budget that does not count the separators between them.
-/
import HermesPipeline.Lib.PyText
import Mathlib.Data.List.Lex
import Mathlib.Data.List.Sort
import Mathlib.Data.Prod.Lex

namespace HermesPipeline

open Lib Lib.Utf8

namespace RenderedDiagnostics

def maxDiagnostics : Nat := 100

def maxLineBytes : Nat := 240

def maxOutputBytes : Nat := 8000

/-- `Diagnostic`. -/
structure Diagnostic where
  path : PyText
  line : Int
  rule : PyText
  message : PyText
deriving DecidableEq

/-- The scalar values whose category starts with `C`; control characters do. -/
structure Categories where
  other : Char → Bool
  control : ∀ c : Char, c.toNat < 32 ∨ (127 ≤ c.toNat ∧ c.toNat ≤ 159) → other c = true

section Source

variable (categories : Categories)

/-- A character of a message as it is shown. -/
def piece : PyChar → List Char
  | .scalar c => if categories.other c then '\\' :: 'u' :: hexPad 4 c.toNat else [c]
  | .surrogate s => '\\' :: 'u' :: hexPad 4 (PyChar.surrogate s).ord

/-- The loop of `_sanitize`. -/
def sanitizeFrom (used : Nat) : PyText → List Char
  | [] => []
  | char :: rest =>
      let shown := piece categories char
      if used + byteLength shown > maxLineBytes - 3 then ['.', '.', '.']
      else shown ++ sanitizeFrom (used + byteLength shown) rest

/-- `_sanitize`. -/
def sanitize (value : PyText) : List Char := sanitizeFrom categories 0 value

/-- `str(n)`. -/
def decimal (n : Int) : List Char :=
  if n < 0 then '-' :: Nat.toDigits 10 n.natAbs else Nat.toDigits 10 n.natAbs

/-- The key of the sorting. -/
def sortKey (d : Diagnostic) : Lex (List Nat × Lex (Int × List Nat)) :=
  toLex (d.path.map PyChar.ord, toLex (d.line, d.rule.map PyChar.ord))

def ordered (diagnostics : List Diagnostic) : List Diagnostic :=
  diagnostics.insertionSort fun left right => sortKey left ≤ sortKey right

/-- `f"{d.path}:{d.line}: {d.rule}: {_sanitize(d.message)}"`. -/
def lineText (d : Diagnostic) : PyText :=
  d.path ++ .ofLetters (':' :: (decimal d.line ++ [':', ' '])) ++ d.rule ++
    .ofLetters (':' :: ' ' :: sanitize categories d.message)

/-- `f"... {n} further diagnostic(s) omitted"`. -/
def furtherDiagnostics (n : Nat) : List Char :=
  ['.', '.', '.', ' '] ++ Nat.toDigits 10 n ++
    [' ', 'f', 'u', 'r', 't', 'h', 'e', 'r', ' ', 'd', 'i', 'a', 'g', 'n', 'o', 's', 't', 'i',
      'c', '(', 's', ')', ' ', 'o', 'm', 'i', 't', 't', 'e', 'd']

/-- The line about the diagnostics beyond the limit, if there are any. -/
def omitted (count : Nat) : List (List Char) :=
  if count > maxDiagnostics then [furtherDiagnostics (count - maxDiagnostics)] else []

/-- `"\n... (output truncated)"`. -/
def outputMarker : List Char :=
  ['\n', '.', '.', '.', ' ', '(', 'o', 'u', 't', 'p', 'u', 't', ' ', 't', 'r', 'u', 'n', 'c',
    'a', 't', 'e', 'd', ')']

def budget : Nat := maxOutputBytes - byteLength outputMarker

/-- The loop over the lines. -/
def keepLines (used : Nat) : List (List Char) → List (List Char)
  | [] => []
  | line :: rest =>
      if used + byteLength line > budget then []
      else line :: keepLines (used + byteLength line) rest

/-- `"\n".join(lines)`. -/
def joinLines (lines : List (List Char)) : List Char := ['\n'].intercalate lines

/-- The end of `render_diagnostics`, from the lines. -/
def renderLines (lines : List (List Char)) : List Char :=
  if byteLength (joinLines lines) ≤ maxOutputBytes then joinLines lines
  else joinLines (keepLines 0 lines) ++ outputMarker

/-- `render_diagnostics`; a line that cannot be encoded raises. -/
def renderDiagnostics (diagnostics : List Diagnostic) : Option (List Char) := do
  let visible := (ordered diagnostics).take maxDiagnostics
  let lines ← visible.mapM fun d => (lineText categories d).letters?
  return renderLines (lines ++ omitted (ordered diagnostics).length)

end Source

section Reference

variable (categories : Categories)

/-- All of a message, with its control characters escaped. -/
def escapedMessage (message : PyText) : List Char := message.flatMap (piece categories)

/-- The message part is short, without control characters, and ends in dots where
something was left out. -/
structure ShortMessage (message : PyText) : Prop where
  short : byteLength (sanitize categories message) ≤ maxLineBytes
  plain : ∀ c ∈ sanitize categories message,
    ¬ (c.toNat < 32 ∨ (127 ≤ c.toNat ∧ c.toNat ≤ 159))
  marked : sanitize categories message = escapedMessage categories message ∨
    ['.', '.', '.'] <:+ sanitize categories message

/-- The text shows the lines of these diagnostics, and markers where it leaves
something out. -/
def Shows (diagnostics shown : List Diagnostic) (text : List Char) : Prop :=
  ∃ lines further truncated, shown.mapM (fun d => (lineText categories d).letters?) = some lines ∧
    text = joinLines (lines ++ further) ++ truncated ∧
    (further = [] ∨ further = omitted diagnostics.length) ∧
    (truncated = [] ∨ truncated = outputMarker) ∧
    (shown.length < diagnostics.length → further ≠ [] ∨ truncated ≠ [])

/-- A rendering that keeps to its bounds. -/
def Bounded (diagnostics : List Diagnostic) : Prop :=
  ∃ text, renderDiagnostics categories diagnostics = some text ∧
    byteLength text ≤ maxOutputBytes ∧
    (∀ d ∈ diagnostics, ShortMessage categories d.message) ∧
    ∃ sorted shown, sorted.Perm diagnostics ∧
      sorted.Pairwise (fun left right => sortKey left ≤ sortKey right) ∧
      shown <+: sorted ∧ Shows categories diagnostics shown text

end Reference

section Messages

variable {categories : Categories}

/-- What is left of the line budget bounds what is still shown. -/
theorem sanitizeFrom_length_le {used : Nat} (hused : used ≤ maxLineBytes - 3) (value : PyText) :
    used + byteLength (sanitizeFrom categories used value) ≤ maxLineBytes := by
  induction value generalizing used with
  | nil =>
      rw [sanitizeFrom, byteLength_nil]
      omega
  | cons char rest ih =>
      rw [sanitizeFrom]
      split
      · have hdots : byteLength ['.', '.', '.'] = 3 := by decide
        have hroom : 3 ≤ maxLineBytes := by decide
        rw [hdots]
        omega
      · next hfits =>
          have hrest := ih (Nat.not_lt.mp hfits)
          rw [byteLength_append]
          omega

theorem plain_piece (char : PyChar) :
    ∀ c ∈ piece categories char, ¬ (c.toNat < 32 ∨ (127 ≤ c.toNat ∧ c.toNat ≤ 159)) := by
  have hall : (('\\' :: 'u' :: lowerHex).all fun c =>
      decide ¬ (c.toNat < 32 ∨ (127 ≤ c.toNat ∧ c.toNat ≤ 159))) = true := by decide
  have hescape : ∀ n, ∀ c ∈ '\\' :: 'u' :: hexPad 4 n,
      ¬ (c.toNat < 32 ∨ (127 ≤ c.toNat ∧ c.toNat ≤ 159)) := by
    intro n c hc
    refine of_decide_eq_true (List.all_eq_true.mp hall c ?_)
    rcases List.mem_cons.mp hc with rfl | hc
    · simp
    · rcases List.mem_cons.mp hc with rfl | hc
      · simp
      · simp [mem_hexPad hc]
  cases char with
  | scalar c =>
      rw [piece]
      split
      · exact hescape _
      · next hother =>
          intro c' hc' hcontrol
          rw [List.mem_singleton.mp hc'] at hcontrol
          exact hother (categories.control c hcontrol)
  | surrogate s => exact hescape _

theorem plain_sanitizeFrom (used : Nat) (value : PyText) :
    ∀ c ∈ sanitizeFrom categories used value,
      ¬ (c.toNat < 32 ∨ (127 ≤ c.toNat ∧ c.toNat ≤ 159)) := by
  induction value generalizing used with
  | nil =>
      intro c hc
      cases hc
  | cons char rest ih =>
      rw [sanitizeFrom]
      split
      · simp
      · exact List.forall_mem_append.mpr ⟨plain_piece char, ih _⟩

/-- Either all of a message is shown, or dots stand at its end. -/
theorem sanitizeFrom_marked (used : Nat) (value : PyText) :
    sanitizeFrom categories used value = escapedMessage categories value ∨
      ['.', '.', '.'] <:+ sanitizeFrom categories used value := by
  induction value generalizing used with
  | nil => exact .inl rfl
  | cons char rest ih =>
      rw [sanitizeFrom, escapedMessage, List.flatMap_cons]
      split
      · exact .inr (List.suffix_refl _)
      · rcases ih (used + byteLength (piece categories char)) with hall | hdots
        · exact .inl (congrArg _ hall)
        · exact .inr (hdots.trans (List.suffix_append _ _))

theorem shortMessage (message : PyText) : ShortMessage categories message where
  short := by
    have hshort := @sanitizeFrom_length_le categories 0 (Nat.zero_le _) message
    rwa [Nat.zero_add] at hshort
  plain := plain_sanitizeFrom 0 message
  marked := sanitizeFrom_marked 0 message

end Messages

section Lines

variable {lines : List (List Char)}

/-- The bytes of lines, without separators. -/
def total (sizes : List Nat) (k : Nat) : Nat := (sizes.take k).sum

/-- The longest front of the lines that fits the budget without separators. -/
def Cut (sizes : List Nat) (k : Nat) : Prop :=
  k ≤ sizes.length ∧ total sizes k ≤ budget ∧ (k < sizes.length → budget < total sizes (k + 1))

/-- The lines fit with their separators, or the longest front of them that fits the
budget without separators fits it with them, too. -/
def Fits (sizes : List Nat) : Prop :=
  sizes.sum + (sizes.length - 1) ≤ maxOutputBytes ∨
    ∃ k, Cut sizes k ∧ total sizes k + (k - 1) ≤ budget

theorem total_mono (sizes : List Nat) {k k' : Nat} (hle : k ≤ k') :
    total sizes k ≤ total sizes k' := by
  have hfront : (sizes.take k').take k = sizes.take k := by
    rw [List.take_take, Nat.min_eq_left hle]
  rw [total, total, ← List.take_append_drop k (sizes.take k'), hfront, List.sum_append]
  exact Nat.le_add_right _ _

/-- The longest front is one. -/
theorem cut_unique {sizes : List Nat} {k k' : Nat} (hcut : Cut sizes k) (hcut' : Cut sizes k') :
    k = k' := by
  have hshort : ∀ k k', Cut sizes k → Cut sizes k' → ¬ k < k' := by
    intro k k' hk hk' hlt
    have hover := hk.2.2 (Nat.lt_of_lt_of_le hlt hk'.1)
    have hle := total_mono sizes (show k + 1 ≤ k' from hlt)
    have hfits := hk'.2.1
    omega
  exact Nat.le_antisymm (Nat.not_lt.mp (hshort _ _ hcut' hcut))
    (Nat.not_lt.mp (hshort _ _ hcut hcut'))

theorem byteLength_joinLines (lines : List (List Char)) :
    byteLength (joinLines lines) = (lines.map byteLength).sum + (lines.length - 1) := by
  have hfeed : byteLength ['\n'] = 1 := by decide
  induction lines with
  | nil => rfl
  | cons line rest ih =>
      cases rest with
      | nil => simp [joinLines]
      | cons next rest =>
          rw [joinLines] at ih ⊢
          rw [List.intercalate_cons_cons, byteLength_append, byteLength_append, hfeed, ih]
          simp only [List.map_cons, List.sum_cons, List.length_cons]
          omega

/-- The loop keeps the longest front that fits. -/
theorem keepLines_spec (lines : List (List Char)) (used : Nat) (hused : used ≤ budget) :
    ∃ k, k ≤ lines.length ∧ keepLines used lines = lines.take k ∧
      used + total (lines.map byteLength) k ≤ budget ∧
      (k < lines.length → budget < used + total (lines.map byteLength) (k + 1)) := by
  induction lines generalizing used with
  | nil => exact ⟨0, Nat.le_refl 0, rfl, hused, fun h => absurd h (Nat.not_lt_zero 0)⟩
  | cons line rest ih =>
      rw [keepLines]
      split
      · next hover =>
          refine ⟨0, Nat.zero_le _, rfl, hused, fun _ => ?_⟩
          simpa [total] using hover
      · next hfits =>
          obtain ⟨k, hk, hkeep, hsum, hnext⟩ := ih _ (Nat.not_lt.mp hfits)
          refine ⟨k + 1, Nat.succ_le_succ hk, ?_, ?_, ?_⟩
          · rw [hkeep, List.take_succ_cons]
          · rw [total, List.map_cons, List.take_succ_cons, List.sum_cons, ← Nat.add_assoc]
            exact hsum
          · intro hlt
            have hover := hnext (Nat.lt_of_succ_lt_succ hlt)
            rw [total, List.map_cons, List.take_succ_cons, List.sum_cons, ← Nat.add_assoc]
            exact hover

theorem keepLines_cut (lines : List (List Char)) :
    ∃ k, Cut (lines.map byteLength) k ∧ keepLines 0 lines = lines.take k := by
  obtain ⟨k, hk, hkeep, hsum, hnext⟩ := keepLines_spec lines 0 (Nat.zero_le _)
  simp only [Nat.zero_add] at hsum hnext
  refine ⟨k, ⟨by rwa [List.length_map], hsum, fun hlt => ?_⟩, hkeep⟩
  rw [List.length_map] at hlt
  exact hnext hlt

/-- The rendered lines keep to the output bound exactly where they fit. -/
theorem renderLines_length_iff (lines : List (List Char)) :
    byteLength (renderLines lines) ≤ maxOutputBytes ↔ Fits (lines.map byteLength) := by
  have hmarker : budget + byteLength outputMarker = maxOutputBytes := by decide
  rw [renderLines, Fits, byteLength_joinLines, List.length_map]
  split
  · next hfits => exact iff_of_true (by rwa [byteLength_joinLines]) (.inl hfits)
  · next hlong =>
      obtain ⟨k, hcut, hkeep⟩ := keepLines_cut lines
      have hk : k ≤ lines.length := by
        have hle := hcut.1
        rwa [List.length_map] at hle
      rw [byteLength_append, hkeep, byteLength_joinLines, List.map_take, List.length_take,
        Nat.min_eq_left hk, ← hmarker]
      change total (lines.map byteLength) k + (k - 1) + byteLength outputMarker ≤ _ ↔ _
      rw [Nat.add_le_add_iff_right]
      constructor
      · exact fun hfits => .inr ⟨k, hcut, hfits⟩
      · rintro (hfits | ⟨k', hcut', hfits⟩)
        · exact absurd (hmarker ▸ hfits) hlong
        · rwa [cut_unique hcut hcut']

end Lines

section Rendering

open PyText (Encodable scalars)

variable (categories : Categories)

/-- The bytes of a line. -/
def lineBytes (d : Diagnostic) : Nat := byteLength (scalars (lineText categories d))

/-- Every visible path and rule can be encoded, and the lines fit. -/
structure Fitting (diagnostics : List Diagnostic) : Prop where
  encodable : ∀ d ∈ (ordered diagnostics).take maxDiagnostics,
    Encodable d.path ∧ Encodable d.rule
  fits : Fits (((ordered diagnostics).take maxDiagnostics).map (lineBytes categories) ++
    (omitted diagnostics.length).map byteLength)

variable {categories}

theorem encodable_ofLetters (letters : List Char) : Encodable (.ofLetters letters) := by
  intro s hs
  obtain ⟨c, -, hc⟩ := List.mem_map.mp hs
  cases hc

theorem encodable_lineText (d : Diagnostic) :
    Encodable (lineText categories d) ↔ Encodable d.path ∧ Encodable d.rule := by
  have happend : ∀ left right : PyText, Encodable (left ++ right) ↔
      Encodable left ∧ Encodable right := by
    intro left right
    simp only [PyText.Encodable, List.mem_append, not_or, forall_and]
  rw [lineText, happend, happend, happend]
  simp only [encodable_ofLetters, and_true]

/-- Lines are encoded all, or none. -/
theorem mapM_letters_iff (visible : List Diagnostic) (lines : List (List Char)) :
    visible.mapM (fun d => (lineText categories d).letters?) = some lines ↔
      (∀ d ∈ visible, Encodable d.path ∧ Encodable d.rule) ∧
        lines = visible.map fun d => scalars (lineText categories d) := by
  induction visible generalizing lines with
  | nil => simp [eq_comm]
  | cons d rest ih =>
      rw [List.mapM_cons, List.forall_mem_cons, List.map_cons, ← @encodable_lineText
        categories]
      simp only [Option.bind_eq_bind, Option.bind_eq_some_iff, PyText.letters?_eq_some_iff, ih]
      constructor
      · rintro ⟨_, ⟨hd, rfl⟩, _, ⟨hrest, rfl⟩, hlines⟩
        exact ⟨⟨hd, hrest⟩, (Option.some.inj hlines).symm⟩
      · rintro ⟨⟨hd, hrest⟩, rfl⟩
        exact ⟨_, ⟨hd, rfl⟩, _, ⟨hrest, rfl⟩, rfl⟩

theorem ordered_perm (diagnostics : List Diagnostic) :
    (ordered diagnostics).Perm diagnostics := List.perm_insertionSort _ diagnostics

/-- The rendering is the rendering of its lines. -/
theorem renderDiagnostics_eq_some_iff (diagnostics : List Diagnostic) (text : List Char) :
    renderDiagnostics categories diagnostics = some text ↔
      (∀ d ∈ (ordered diagnostics).take maxDiagnostics, Encodable d.path ∧ Encodable d.rule) ∧
        text = renderLines (((ordered diagnostics).take maxDiagnostics).map
          (fun d => scalars (lineText categories d)) ++ omitted diagnostics.length) := by
  rw [renderDiagnostics]
  simp only [Option.bind_eq_bind, Option.bind_eq_some_iff, mapM_letters_iff,
    (ordered_perm diagnostics).length_eq]
  constructor
  · rintro ⟨_, ⟨hencodable, rfl⟩, htext⟩
    exact ⟨hencodable, (Option.some.inj htext).symm⟩
  · rintro ⟨hencodable, rfl⟩
    exact ⟨_, ⟨hencodable, rfl⟩, rfl⟩

/-- A kept front of the lines is the lines of a front of the diagnostics, and of the
line about the omitted ones nothing or all. -/
theorem take_omitted (count n : Nat) :
    (omitted count).take n = [] ∨ (omitted count).take n = omitted count := by
  rw [omitted]
  split
  · cases n with
    | zero => exact .inl rfl
    | succ n => exact .inr (by simp)
  · exact .inl List.take_nil

/-- What is rendered shows a front of the diagnostics, and markers. -/
theorem shows_renderLines {diagnostics : List Diagnostic}
    (hencodable : ∀ d ∈ (ordered diagnostics).take maxDiagnostics,
      Encodable d.path ∧ Encodable d.rule) :
    ∃ shown, shown <+: ordered diagnostics ∧ Shows categories diagnostics shown
      (renderLines (((ordered diagnostics).take maxDiagnostics).map
        (fun d => scalars (lineText categories d)) ++ omitted diagnostics.length)) := by
  have hcount : ((ordered diagnostics).take maxDiagnostics).length =
      min maxDiagnostics diagnostics.length := by
    rw [List.length_take, (ordered_perm diagnostics).length_eq]
  have hprefix := List.take_prefix maxDiagnostics (ordered diagnostics)
  generalize (ordered diagnostics).take maxDiagnostics = visible at *
  rw [renderLines]
  split
  · refine ⟨visible, hprefix, _, omitted diagnostics.length, [],
      (mapM_letters_iff _ _).mpr ⟨hencodable, rfl⟩, (List.append_nil _).symm, .inr rfl,
      .inl rfl, fun hleft => .inl ?_⟩
    rw [hcount] at hleft
    rw [omitted, if_pos (by omega)]
    exact List.cons_ne_nil _ _
  · obtain ⟨k, -, hkeep⟩ := keepLines_cut
      (visible.map (fun d => scalars (lineText categories d)) ++ omitted diagnostics.length)
    have hmarker : outputMarker ≠ [] := by decide
    refine ⟨visible.take k, (List.take_prefix k visible).trans hprefix, _,
      (omitted diagnostics.length).take (k - visible.length), outputMarker,
      (mapM_letters_iff _ _).mpr ⟨fun d hd => hencodable d (List.mem_of_mem_take hd), rfl⟩,
      ?_, take_omitted _ _, .inr rfl, fun _ => .inr hmarker⟩
    rw [hkeep, List.take_append, List.map_take, List.length_map]

/-- The rendering keeps to its bounds exactly where it fits. -/
theorem bounded_iff (diagnostics : List Diagnostic) :
    Bounded categories diagnostics ↔ Fitting categories diagnostics := by
  have hsizes : ((((ordered diagnostics).take maxDiagnostics).map
      (fun d => scalars (lineText categories d)) ++ omitted diagnostics.length).map
        byteLength) = ((ordered diagnostics).take maxDiagnostics).map (lineBytes categories) ++
          (omitted diagnostics.length).map byteLength := by
    rw [List.map_append, List.map_map]
    rfl
  constructor
  · rintro ⟨text, hrender, hlength, -⟩
    obtain ⟨hencodable, rfl⟩ := (renderDiagnostics_eq_some_iff _ _).mp hrender
    rw [renderLines_length_iff, hsizes] at hlength
    exact ⟨hencodable, hlength⟩
  · rintro ⟨hencodable, hfits⟩
    refine ⟨_, (renderDiagnostics_eq_some_iff _ _).mpr ⟨hencodable, rfl⟩, ?_,
      fun d _ => shortMessage d.message, ordered diagnostics, ?_⟩
    · rw [renderLines_length_iff, hsizes]
      exact hfits
    · obtain ⟨shown, hshown, hshows⟩ := shows_renderLines hencodable
      exact ⟨shown, ordered_perm diagnostics, List.pairwise_insertionSort _ _, hshown, hshows⟩

end Rendering

/-- Diagnostics are rendered within all bounds exactly where their paths can be
encoded and the lines that fit the budget without separators fit it with them. -/
theorem render_diagnostics_iff (categories : Categories) (diagnostics : List Diagnostic) :
    Bounded categories diagnostics ↔ Fitting categories diagnostics := bounded_iff diagnostics

namespace DiagnosticsWitness

/-- The categories of ASCII. -/
def ascii : Categories where
  other c := decide (c.toNat < 32 ∨ (127 ≤ c.toNat ∧ c.toNat ≤ 159))
  control _ hcontrol := decide_eq_true hcontrol

/-- A diagnostic with a line of eighty bytes. -/
def sample : Diagnostic where
  path := .ofLetters (List.replicate 66 'a')
  line := 1
  rule := .ofLetters ['A', 'R', 'C', 'H', '-', '0', '4']
  message := .ofLetters ['m']

theorem lineBytes_sample : lineBytes ascii sample = 80 := by decide

theorem ordered_replicate (n : Nat) :
    ordered (List.replicate n sample) = List.replicate n sample := by
  apply List.Pairwise.insertionSort_eq
  rw [List.pairwise_replicate]
  exact .inr (le_refl _)

/-- Ninety-nine lines fit the budget, but not with the separators between them. -/
theorem output_too_long : ¬ Bounded ascii (List.replicate 99 sample) := by
  rw [bounded_iff]
  rintro ⟨-, hfits⟩
  have hnone : omitted (List.replicate 99 sample).length = [] := by
    rw [List.length_replicate]
    rfl
  rw [ordered_replicate, hnone, List.map_nil, List.append_nil, List.take_replicate,
    List.map_replicate, lineBytes_sample] at hfits
  rcases hfits with hfits | ⟨k, hcut, hfits⟩
  · exact absurd hfits (by decide)
  · have hall : Cut (List.replicate (min maxDiagnostics 99) 80) 99 := by
      refine ⟨by decide, by decide, fun hlt => absurd hlt (by decide)⟩
    rw [cut_unique hcut hall] at hfits
    exact absurd hfits (by decide)

end DiagnosticsWitness

end RenderedDiagnostics

end HermesPipeline
