/-
What the contracts check reports.  Control characters are escaped, then tokens that
look like canaries and the collected ones are replaced, then the text is cut.
-/
import HermesPipeline.Lib.PyText
import HermesPipeline.Lib.Substitution
import Mathlib.Data.List.TakeWhile

namespace HermesPipeline

open Lib Lib.Substitution Lib.Utf8

namespace ReportedOutput

def maxIssues : Nat := 60

def maxLineBytes : Nat := 240

def maxOutputBytes : Nat := 65536

section Source

/-- `canary_`. -/
def canaryPrefix : List Char := ['c', 'a', 'n', 'a', 'r', 'y', '_']

/-- `[A-Za-z0-9_-]`. -/
def isTokenChar (c : Char) : Bool :=
  ('A' ≤ c && c ≤ 'Z') || ('a' ≤ c && c ≤ 'z') || ('0' ≤ c && c ≤ '9') || c = '_' || c = '-'

/-- The match of `CANARY_TOKEN_RE` at the start of a text. -/
def canaryAt (text : List Char) : Option Nat :=
  let name := (text.drop canaryPrefix.length).takeWhile isTokenChar
  if canaryPrefix <+: text ∧ name ≠ [] then some (canaryPrefix.length + name.length) else none

def redacted : List Char := ['<', 'r', 'e', 'd', 'a', 'c', 't', 'e', 'd', '>']

/-- `redact_canaries`. -/
def redactCanaries (text : List Char) : List Char := sub canaryAt redacted text

def isControl (c : Char) : Bool := c.toNat < 32 || (127 ≤ c.toNat && c.toNat ≤ 159)

/-- A character as it is reported; some control characters are kept. -/
def escaped (kept : List Char) : PyChar → List Char
  | .scalar c =>
      if c ∈ kept then [c]
      else if isControl c then '\\' :: 'x' :: hexPad 2 c.toNat
      else [c]
  | .surrogate s => '\\' :: 'u' :: hexPad 4 (PyChar.surrogate s).ord

/-- `sanitize_diagnostic`. -/
def sanitizeDiagnostic (text : PyText) : List Char := text.flatMap (escaped [])

/-- `text.encode("utf-8", errors="backslashreplace").decode("utf-8")`. -/
def backslashReplace (text : PyText) : List Char :=
  text.flatMap fun
    | .scalar c => [c]
    | .surrogate s => '\\' :: 'u' :: hexPad 4 (PyChar.surrogate s).ord

def outputMarker : List Char :=
  ['\n', '.', '.', '.', '(', 'o', 'u', 't', 'p', 'u', 't', ' ', 't', 'r', 'u', 'n', 'c', 'a',
    't', 'e', 'd', ')']

/-- `cap_utf8`. -/
def capUtf8 (text : PyText) (limit : Nat) : List Char :=
  let safeText := backslashReplace text
  if byteLength safeText ≤ limit then safeText
  else
    let head := takeBytes (limit - byteLength outputMarker) safeText
    if byteLength outputMarker ≤ limit then head ++ outputMarker else head

/-- `cap_utf8_inline`. -/
def capUtf8Inline (text : PyText) (limit : Nat) : List Char :=
  let safeText := backslashReplace text
  if byteLength safeText ≤ limit then safeText
  else takeBytes (limit - 3) safeText ++ ['.', '.', '.']

/-- The text of `sanitize_output` before it is cut. -/
def sanitizedText (text : PyText) (canaries : List (List Char)) : List Char :=
  let longestFirst := canaries.mergeSort fun left right => right.length ≤ left.length
  longestFirst.foldl (fun text canary => replaceAll canary redacted text)
    (redactCanaries (text.flatMap (escaped ['\n', '\t'])))

/-- `sanitize_output`. -/
def sanitizeOutput (text : PyText) (canaries : List (List Char)) : List Char :=
  capUtf8 (.ofLetters (sanitizedText text canaries)) maxOutputBytes

/-- `Reporter`. -/
structure Reporter where
  issues : List (List Char) := []
  suppressedIssues : Nat := 0

/-- `Reporter.issue`. -/
def Reporter.issue (report : Reporter) (message : PyText) : Reporter :=
  if report.issues.length < maxIssues then
    { report with
      issues := report.issues ++
        [capUtf8Inline (.ofLetters (sanitizeDiagnostic message)) maxLineBytes] }
  else { report with suppressedIssues := report.suppressedIssues + 1 }

/-- `f"... {n} further issue(s)"`. -/
def furtherIssues (n : Nat) : List Char :=
  ['.', '.', '.', ' '] ++ Nat.toDigits 10 n ++
    [' ', 'f', 'u', 'r', 't', 'h', 'e', 'r', ' ', 'i', 's', 's', 'u', 'e', '(', 's', ')']

/-- `Reporter.render`. -/
def Reporter.render (report : Reporter) : List Char :=
  let lines :=
    if report.suppressedIssues ≠ 0 then report.issues ++ [furtherIssues report.suppressedIssues]
    else report.issues
  ['\n'].intercalate lines

end Source

/-- A text that matches `canary_[A-Za-z0-9_-]+`. -/
def IsCanary (token : List Char) : Prop :=
  ∃ name, token = canaryPrefix ++ name ∧ name ≠ [] ∧ ∀ c ∈ name, isTokenChar c = true

structure CanaryToken where
  letters : List Char
  isCanary : IsCanary letters

/-- No part of the text looks like a canary. -/
def Clean (text : List Char) : Prop := ∀ token, token <:+: text → ¬ IsCanary token

section Redacting

variable {text : List Char}

/-- A canary stands at the start where the expression matches. -/
theorem canaryAt_eq_none_iff (text : List Char) :
    canaryAt text = none ↔ ∀ token, token <+: text → ¬ IsCanary token := by
  rw [canaryAt]
  simp only [ite_eq_right_iff, reduceCtorEq, imp_false, not_and, not_not]
  constructor
  · rintro hnone token htoken ⟨name, rfl, hne, hname⟩
    have hprefix : canaryPrefix <+: text := (List.prefix_append _ _).trans htoken
    obtain ⟨rest, rfl⟩ := htoken
    rw [List.append_assoc, List.drop_left] at hnone
    have hempty := hnone (List.prefix_append _ _)
    rw [List.takeWhile_append_of_pos hname] at hempty
    exact hne (List.append_eq_nil_iff.mp hempty).1
  · rintro hnone ⟨rest, rfl⟩
    rw [List.drop_left]
    by_contra hne
    refine hnone (canaryPrefix ++ rest.takeWhile isTokenChar) ?_
      ⟨_, rfl, hne, fun c hc => List.mem_takeWhile_imp hc⟩
    exact (List.prefix_append_right_inj _).mpr (List.takeWhile_prefix _)

theorem clean_iff (text : List Char) :
    Clean text ↔ ∀ rest, rest <:+ text → canaryAt rest = none := by
  constructor
  · intro hclean rest hrest
    rw [canaryAt_eq_none_iff]
    exact fun token htoken => hclean token (htoken.isInfix.trans hrest.isInfix)
  · rintro hnone token ⟨front, back, rfl⟩ htoken
    have hstart := hnone (token ++ back) ⟨front, by rw [List.append_assoc]⟩
    exact (canaryAt_eq_none_iff _).mp hstart token (List.prefix_append _ _) htoken

theorem clean_nil : Clean [] := by
  rintro token htoken ⟨name, rfl, -⟩
  have hnil := List.infix_nil.mp htoken
  simp [canaryPrefix] at hnil

theorem clean_cons_iff (c : Char) (rest : List Char) :
    Clean (c :: rest) ↔ canaryAt (c :: rest) = none ∧ Clean rest := by
  rw [clean_iff, clean_iff]
  simp only [List.suffix_cons_iff]
  exact ⟨fun h => ⟨h _ (.inl rfl), fun tail htail => h tail (.inr htail)⟩,
    fun h tail htail => htail.elim (fun heq => heq ▸ h.1) (h.2 tail)⟩

/-- The replacement does not make a canary with what follows it. -/
theorem clean_redacted (hclean : Clean text) : Clean (redacted ++ text) := by
  simp only [redacted, List.cons_append, List.nil_append, clean_cons_iff, hclean, and_true]
  simp [canaryAt, canaryPrefix]

/-- The letters of a canary are not the first one of a replacement. -/
theorem mark_not_mem_canary {token : List Char} (htoken : IsCanary token) : '<' ∉ token := by
  obtain ⟨name, rfl, -, hname⟩ := htoken
  rw [List.mem_append, not_or]
  exact ⟨by decide, fun hmem => absurd (hname _ hmem) (by decide)⟩

/-- Nothing that looks like a canary is left, and none is made. -/
theorem clean_redactCanaries (text : List Char) : Clean (redactCanaries text) := by
  have hall : ∀ skip, Clean (subFrom canaryAt redacted skip text) := by
    induction text with
    | nil =>
        intro skip
        cases skip <;> exact clean_nil
    | cons c rest ih =>
        intro skip
        cases skip with
        | succ skip => exact ih skip
        | zero =>
            rw [subFrom]
            split
            · exact clean_redacted (ih _)
            · next hnone =>
                refine (clean_cons_iff _ _).mpr ⟨?_, ih 0⟩
                rw [canaryAt_eq_none_iff] at hnone ⊢
                intro token htoken hcanary
                have hsource : token <+: c :: rest := by
                  cases token with
                  | nil => exact List.nil_prefix
                  | cons first more =>
                      obtain ⟨hfirst, hmore⟩ := List.cons_prefix_cons.mp htoken
                      refine List.cons_prefix_cons.mpr ⟨hfirst, ?_⟩
                      refine prefix_of_prefix_sub (fun hmem => ?_) hmore
                      exact mark_not_mem_canary hcanary (List.mem_cons_of_mem _ hmem)
                exact hnone token hsource hcanary
  exact hall 0

theorem Clean.of_infix {part : List Char} (hclean : Clean text) (hpart : part <:+: text) :
    Clean part := fun token htoken => hclean token (htoken.trans hpart)

/-- No canary is left to be replaced one by one. -/
theorem sanitizedText_eq (text : PyText) (canaries : List CanaryToken) :
    sanitizedText text (canaries.map CanaryToken.letters) =
      redactCanaries (text.flatMap (escaped ['\n', '\t'])) := by
  rw [sanitizedText]
  have hcanaries : ∀ canary ∈ (canaries.map CanaryToken.letters).mergeSort
      fun left right => right.length ≤ left.length, IsCanary canary := by
    intro canary hcanary
    obtain ⟨token, -, rfl⟩ := List.mem_map.mp (List.mem_mergeSort.mp hcanary)
    exact token.isCanary
  generalize (canaries.map CanaryToken.letters).mergeSort _ = longestFirst at hcanaries
  have hclean := clean_redactCanaries (text.flatMap (escaped ['\n', '\t']))
  induction longestFirst with
  | nil => rfl
  | cons canary rest ih =>
      rw [List.foldl_cons, replaceAll_eq_self fun hinside =>
        hclean canary hinside (hcanaries canary List.mem_cons_self)]
      exact ih fun other hother => hcanaries other (List.mem_cons_of_mem _ hother)

end Redacting

section Cutting

variable {text : List Char} {limit : Nat}

@[simp] theorem backslashReplace_ofLetters (letters : List Char) :
    backslashReplace (.ofLetters letters) = letters := by
  induction letters with
  | nil => rfl
  | cons c rest ih => exact congrArg (c :: ·) ih

/-- A canary does not reach over a line feed. -/
theorem clean_append_feed {left right : List Char} (hleft : Clean left)
    (hright : Clean right) : Clean (left ++ '\n' :: right) := by
  have hfeed : ∀ token, IsCanary token → '\n' ∉ token := by
    rintro token ⟨name, rfl, -, hname⟩
    rw [List.mem_append, not_or]
    exact ⟨by decide, fun hmem => absurd (hname _ hmem) (by decide)⟩
  induction left with
  | nil =>
      refine (clean_cons_iff _ _).mpr ⟨?_, hright⟩
      simp [canaryAt, canaryPrefix]
  | cons c left ih =>
      obtain ⟨hnone, hrest⟩ := (clean_cons_iff c left).mp hleft
      refine (clean_cons_iff _ _).mpr ⟨?_, ih hrest⟩
      rw [canaryAt_eq_none_iff] at hnone ⊢
      intro token htoken hcanary
      rcases List.prefix_or_prefix_of_prefix htoken
          (show c :: left <+: c :: (left ++ '\n' :: right) from List.prefix_append _ _) with
        hshort | ⟨more, rfl⟩
      · exact hnone token hshort hcanary
      · have hmore : more <+: '\n' :: right :=
          (List.prefix_append_right_inj (c :: left)).mp htoken
        cases more with
        | nil =>
            rw [List.append_nil] at hcanary
            exact hnone _ (List.prefix_refl _) hcanary
        | cons first more =>
            have hfirst := (List.cons_prefix_cons.mp hmore).1
            exact hfeed _ hcanary (by simp [hfirst])

theorem capUtf8_length_le (text : List Char) (limit : Nat) :
    byteLength (capUtf8 (.ofLetters text) limit) ≤ limit := by
  rw [capUtf8, backslashReplace_ofLetters]
  have hhead := byteLength_takeBytes_le (limit - byteLength outputMarker) text
  split
  · assumption
  · dsimp only
    split
    · rw [byteLength_append]
      omega
    · omega

theorem capUtf8_eq_self (hfits : byteLength text ≤ limit) :
    capUtf8 (.ofLetters text) limit = text := by
  rw [capUtf8, backslashReplace_ofLetters, if_pos hfits]

/-- A cut text is a front of the text, perhaps with the marker behind it. -/
theorem capUtf8_cases (text : List Char) (limit : Nat) :
    ∃ front, front <+: text ∧ (capUtf8 (.ofLetters text) limit = front ∨
      capUtf8 (.ofLetters text) limit = front ++ outputMarker) := by
  rw [capUtf8, backslashReplace_ofLetters]
  split
  · exact ⟨text, List.prefix_refl text, .inl rfl⟩
  · refine ⟨_, takeBytes_front (limit - byteLength outputMarker) text, ?_⟩
    dsimp only
    split
    · exact .inr rfl
    · exact .inl rfl

theorem clean_capUtf8 (hclean : Clean text) : Clean (capUtf8 (.ofLetters text) limit) := by
  obtain ⟨front, hfront, hcut | hcut⟩ := capUtf8_cases text limit
  · rw [hcut]
    exact hclean.of_infix hfront.isInfix
  · rw [hcut]
    refine clean_append_feed (hclean.of_infix hfront.isInfix) ?_
    simp only [clean_cons_iff, clean_nil, and_true]
    simp [canaryAt, canaryPrefix]

theorem mem_capUtf8 {c : Char} (hc : c ∈ capUtf8 (.ofLetters text) limit) :
    c ∈ text ∨ c ∈ outputMarker := by
  obtain ⟨front, hfront, hcut | hcut⟩ := capUtf8_cases text limit
  · rw [hcut] at hc
    exact .inl (hfront.subset hc)
  · rw [hcut] at hc
    exact (List.mem_append.mp hc).imp (fun h => hfront.subset h) id

/-- The only control characters of an escaped text are those that are kept. -/
theorem kept_of_control {kept : List Char} {source : PyText} {c : Char}
    (hc : c ∈ source.flatMap (escaped kept)) (hcontrol : isControl c = true) : c ∈ kept := by
  have hplain : (('\\' :: 'x' :: 'u' :: lowerHex).all fun c => !isControl c) = true := by decide
  have hescape : ∀ c ∈ '\\' :: 'x' :: 'u' :: lowerHex, isControl c = false := by
    intro c hc
    simpa using List.all_eq_true.mp hplain c hc
  obtain ⟨letter, -, hletter⟩ := List.mem_flatMap.mp hc
  cases letter with
  | scalar letter =>
      rw [escaped] at hletter
      split at hletter
      · next hkept =>
          rw [List.mem_singleton.mp hletter]
          exact hkept
      · next hkept =>
          split at hletter
          · have hmem : c ∈ '\\' :: 'x' :: 'u' :: lowerHex := by
              rcases List.mem_cons.mp hletter with rfl | hletter
              · simp
              · rcases List.mem_cons.mp hletter with rfl | hletter
                · simp
                · simp [mem_hexPad hletter]
            rw [hescape c hmem] at hcontrol
            cases hcontrol
          · next hnone =>
              rw [List.mem_singleton.mp hletter] at hcontrol
              exact absurd hcontrol hnone
  | surrogate s =>
      have hmem : c ∈ '\\' :: 'x' :: 'u' :: lowerHex := by
        rcases List.mem_cons.mp hletter with rfl | hletter
        · simp
        · rcases List.mem_cons.mp hletter with rfl | hletter
          · simp
          · simp [mem_hexPad hletter]
      rw [hescape c hmem] at hcontrol
      cases hcontrol

end Cutting

section Reporting

/-- What a reporter keeps: short issues of one line each, and no more than there is
room for. -/
structure Reporter.Kept (report : Reporter) : Prop where
  few : report.issues.length ≤ maxIssues
  full : report.suppressedIssues ≠ 0 → report.issues.length = maxIssues
  short : ∀ issue ∈ report.issues, byteLength issue ≤ maxLineBytes
  oneLine : ∀ issue ∈ report.issues, '\n' ∉ issue

theorem capUtf8Inline_length_le (text : List Char) :
    byteLength (capUtf8Inline (.ofLetters text) maxLineBytes) ≤ maxLineBytes := by
  rw [capUtf8Inline, backslashReplace_ofLetters]
  split
  · assumption
  · have hhead := byteLength_takeBytes_le (maxLineBytes - 3) text
    have hdots : byteLength ['.', '.', '.'] = 3 := by decide
    rw [byteLength_append, hdots]
    have hroom : 3 ≤ maxLineBytes := by decide
    omega

theorem no_feed_in_issue (message : PyText) :
    '\n' ∉ capUtf8Inline (.ofLetters (sanitizeDiagnostic message)) maxLineBytes := by
  have hnone : '\n' ∉ sanitizeDiagnostic message := fun hmem =>
    absurd (kept_of_control hmem (by decide)) List.not_mem_nil
  rw [capUtf8Inline, backslashReplace_ofLetters]
  split
  · exact hnone
  · rw [List.mem_append, not_or]
    exact ⟨fun hmem => hnone ((takeBytes_front _ _).subset hmem), by decide⟩

/-- Another issue keeps everything. -/
theorem Reporter.Kept.issue {report : Reporter} (hkept : report.Kept) (message : PyText) :
    (report.issue message).Kept := by
  rw [Reporter.issue]
  split
  · next hroom =>
      refine ⟨?_, ?_, ?_, ?_⟩
      · rw [List.length_append]
        exact hroom
      · intro hsuppressed
        exact absurd (hkept.full hsuppressed) (Nat.ne_of_lt hroom)
      · rw [List.forall_mem_append]
        exact ⟨hkept.short, List.forall_mem_singleton.mpr (capUtf8Inline_length_le _)⟩
      · rw [List.forall_mem_append]
        exact ⟨hkept.oneLine, List.forall_mem_singleton.mpr (no_feed_in_issue message)⟩
  · next hroom =>
      exact ⟨hkept.few, fun _ => Nat.le_antisymm hkept.few (Nat.not_lt.mp hroom),
        hkept.short, hkept.oneLine⟩

theorem Reporter.Kept.issues {report : Reporter} (hkept : report.Kept)
    (messages : List PyText) : (messages.foldl Reporter.issue report).Kept := by
  induction messages generalizing report with
  | nil => exact hkept
  | cons message rest ih => exact ih (hkept.issue message)

/-- The rendered report has a line for each issue, and one more. -/
theorem Reporter.Kept.lines {report : Reporter} (hkept : report.Kept) :
    (report.render.splitOn '\n').length ≤ maxIssues + 1 ∧
      ∀ line ∈ (report.render.splitOn '\n').take maxIssues, byteLength line ≤ maxLineBytes := by
  have hfurther : ∀ n, '\n' ∉ furtherIssues n := by
    intro n
    have hdigits : '\n' ∉ Nat.toDigits 10 n := fun hmem =>
      absurd (Nat.isDigit_of_mem_toDigits (by decide) (by decide) hmem) (by decide)
    simp [furtherIssues, hdigits]
  rw [Reporter.render]
  split
  · next hsuppressed =>
      have hlength := hkept.full hsuppressed
      have hlines : ∀ line ∈ report.issues ++ [furtherIssues report.suppressedIssues],
          '\n' ∉ line := by
        rw [List.forall_mem_append]
        exact ⟨hkept.oneLine, List.forall_mem_singleton.mpr (hfurther _)⟩
      rw [List.splitOn_intercalate '\n' hlines (by simp), List.length_append, hlength,
        List.take_left' hlength]
      exact ⟨Nat.le_refl _, hkept.short⟩
  · cases hissues : report.issues with
    | nil => decide
    | cons issue rest =>
        rw [← hissues, List.splitOn_intercalate '\n' hkept.oneLine (by simp [hissues])]
        exact ⟨Nat.le_succ_of_le hkept.few,
          fun line hline => hkept.short line (List.mem_of_mem_take hline)⟩

end Reporting

/-- Reported output shows no canary and no control character but line feeds and
tabs, fits into its bytes and is cut only where it must be; a report has at most 61
lines, and the lines of its issues are short. -/
theorem reported_output_clean (text : PyText) (canaries : List CanaryToken)
    (messages : List PyText) :
    let letters := canaries.map CanaryToken.letters
    let output := sanitizeOutput text letters
    let lines := (messages.foldl Reporter.issue {}).render.splitOn '\n'
    Clean output ∧ (∀ c ∈ output, isControl c = true → c = '\n' ∨ c = '\t') ∧
      byteLength output ≤ maxOutputBytes ∧
      (byteLength (sanitizedText text letters) ≤ maxOutputBytes →
        output = sanitizedText text letters) ∧
      lines.length ≤ maxIssues + 1 ∧
        ∀ line ∈ lines.take maxIssues, byteLength line ≤ maxLineBytes := by
  intro letters output lines
  have hempty : Reporter.Kept {} := ⟨by decide, by simp, by simp, by simp⟩
  refine ⟨?_, ?_, capUtf8_length_le _ _, capUtf8_eq_self, (hempty.issues messages).lines⟩
  · apply clean_capUtf8
    rw [sanitizedText_eq]
    exact clean_redactCanaries _
  · intro c hc hcontrol
    rcases mem_capUtf8 hc with hc | hc
    · rw [sanitizedText_eq] at hc
      rcases mem_sub hc with hc | hc
      · have hplain : (redacted.all fun c => !isControl c) = true := by decide
        have hnone := List.all_eq_true.mp hplain c hc
        rw [hcontrol] at hnone
        cases hnone
      · simpa using kept_of_control hc hcontrol
    · have hmarker : (outputMarker.all fun c => !isControl c || c = '\n') = true := by decide
      have hfeed := List.all_eq_true.mp hmarker c hc
      rw [hcontrol] at hfeed
      exact .inl (by simpa using hfeed)

end ReportedOutput

end HermesPipeline
