/-
JSON pointers into committed documents.  The loop over the tokens asks `isdigit`
whether a token is an index and `int` for which: digits of every script are read,
some that count as digits are not, and neither are too many of them.
-/
import HermesPipeline.Lib.JsonPointer
import HermesPipeline.Lib.PyInt

namespace HermesPipeline

open Lib Lib.JsonPointer

namespace PointerResolution

/-- What `int` raises. -/
inductive ValueError
  | digits
deriving Repr, DecidableEq

/-- `_decode_pointer_token`. -/
def decodePointerToken : List Char → Option (List Char)
  | [] => some []
  | '~' :: '0' :: rest => (decodePointerToken rest).map ('~' :: ·)
  | '~' :: '1' :: rest => (decodePointerToken rest).map ('/' :: ·)
  | '~' :: _ => none
  | c :: rest => (decodePointerToken rest).map (c :: ·)

/-- What the loop takes for an index: digits, and no zero before others. -/
def isIndexForm (token : String) : Bool :=
  isPyDigit token && !(1 < token.toList.length && token.toList.head? = some '0')

def maxIndex : Nat := 2 ^ 31 - 1

/-- The value under a token; `none` stops the loop. -/
def child (current : Json) (token : String) : Except ValueError (Option Json) :=
  match current with
  | .obj members => .ok (Json.member? members token)
  | .arr items =>
      if token = "-" then .ok none
      else if !isIndexForm token then .ok none
      else
        match pyInt token with
        | none => .error .digits
        | some index =>
            if Int.ofNat maxIndex < index then .ok none else .ok items[index.toNat]?
  | _ => .ok none

/-- The loop of `_pointer_resolves`. -/
def walk : Json → List (List Char) → Except ValueError Bool
  | _, [] => .ok true
  | current, raw :: rest =>
      match decodePointerToken raw with
      | none => .ok false
      | some letters =>
          match child current (String.ofList letters) with
          | .error raised => .error raised
          | .ok none => .ok false
          | .ok (some value) => walk value rest

/-- `pointer[1:].split("/")`. -/
def rawTokens (pointer : String) : List (List Char) :=
  (pointer.toList.drop 1).splitOn '/'

/-- `_pointer_resolves`. -/
def pointerResolves (document : Json) (pointer : String) : Except ValueError Bool :=
  if pointer.toList = [] then .ok true
  else if pointer.toList.head? ≠ some '/' then .ok false
  else walk document (rawTokens pointer)

/-- `int` reads the token, if the loop takes it for an index. -/
def Readable (token : String) : Prop :=
  isIndexForm token = true →
    (∀ c ∈ token.toList, (decimal? c).isSome = true) ∧
      token.toList.length ≤ maxStrDigits

/-- The index that the loop reads, in digits of any script. -/
def ReadsIndex (token : String) (index : Nat) : Prop :=
  isIndexForm token = true ∧ pyInt token = some (Int.ofNat index) ∧ index ≤ maxIndex

/-- The tokens before this one lead to an array. -/
def Asks (document : Json) (raws : List (List Char)) (token : String) : Prop :=
  ∃ tokens used items, (tokens ++ [token]).map escape <+: raws ∧
    Leads ReadsIndex document tokens used (.arr items)

/-- No array is asked for digits that `int` does not read; where the pointer leads
to a value, the indices on the way are in ASCII, and none is past the bound. -/
structure Plain (document : Json) (pointer : String) : Prop where
  readable : pointer.toList.head? = some '/' →
    ∀ token, Asks document (rawTokens pointer) token → Readable token
  ascii : ∀ tokens used value, pointer.toList = render tokens →
    Leads ReadsIndex document tokens used value →
      ∀ entry ∈ used, ∀ c ∈ entry.1.toList, c.isDigit = true
  short : ∀ tokens used value, pointer.toList = render tokens →
    Leads IsIndex document tokens used value → ∀ entry ∈ used, entry.2 ≤ maxIndex

section Tokens

theorem decodePointerToken_cons {c : Char} (hc : c ≠ '~') (rest : List Char) :
    decodePointerToken (c :: rest) = (decodePointerToken rest).map (c :: ·) := by
  rw [decodePointerToken]
  · rintro rest' rfl
    exact absurd rfl hc
  · rintro rest' rfl
    exact absurd rfl hc
  · rintro rfl
    exact absurd rfl hc

/-- A token is read back from the pointer. -/
theorem decodePointerToken_escape (letters : List Char) :
    decodePointerToken (letters.flatMap escapeChar) = some letters := by
  induction letters with
  | nil => rfl
  | cons c rest ih =>
      rw [List.flatMap_cons, escapeChar]
      split
      · next htilde =>
          subst htilde
          simp [decodePointerToken, ih]
      · next htilde =>
          split
          · next hslash =>
              subst hslash
              simp [decodePointerToken, ih]
          · rw [List.singleton_append, decodePointerToken_cons htilde, ih]
            rfl

/-- Without a slash, only the escaped form of a token is read as it. -/
theorem escape_of_decode {raw letters : List Char} (hslash : '/' ∉ raw)
    (hdecode : decodePointerToken raw = some letters) :
    raw = letters.flatMap escapeChar := by
  fun_induction decodePointerToken raw generalizing letters with
  | case1 =>
      cases hdecode
      rfl
  | case2 rest ih =>
      obtain ⟨tail, htail, rfl⟩ := Option.map_eq_some_iff.mp hdecode
      rw [ih (by simp_all) htail]
      rfl
  | case3 rest ih =>
      obtain ⟨tail, htail, rfl⟩ := Option.map_eq_some_iff.mp hdecode
      rw [ih (by simp_all) htail]
      rfl
  | case4 => cases hdecode
  | case5 c rest hzero hone htilde ih =>
      obtain ⟨tail, htail, rfl⟩ := Option.map_eq_some_iff.mp hdecode
      have hc : c ≠ '/' := fun hc => hslash (hc ▸ List.mem_cons_self)
      have hrest := ih (fun hmem => hslash (List.mem_cons_of_mem _ hmem)) htail
      have hne : c ≠ '~' := fun hc => htilde hc
      rw [List.flatMap_cons, escapeChar, if_neg hne, if_neg hc, ← hrest,
        List.singleton_append]

theorem escape_inj {token other : String} (h : escape token = escape other) :
    token = other := by
  have hdecode := decodePointerToken_escape token.toList
  rw [show token.toList.flatMap escapeChar = other.toList.flatMap escapeChar from h,
    decodePointerToken_escape, Option.some.injEq] at hdecode
  exact String.toList_injective hdecode.symm

end Tokens

section Indices

variable {token : String}

theorem isIndexForm_minus : isIndexForm "-" = false := by decide

theorem digits_of_indexForm (hform : isIndexForm token = true) :
    token.toList ≠ [] ∧ ∀ c ∈ token.toList, isDigitChar c = true := by
  rw [isIndexForm, isPyDigit, Bool.and_eq_true, Bool.and_eq_true, Bool.not_eq_true',
    List.isEmpty_eq_false_iff, List.all_eq_true] at hform
  exact hform.1

/-- `int` raises for an index exactly where it cannot be read. -/
theorem pyInt_isSome_iff (hform : isIndexForm token = true) :
    (pyInt token).isSome = true ↔ Readable token := by
  obtain ⟨hne, hdigits⟩ := digits_of_indexForm hform
  rw [pyInt_isSome_iff_of_digits hne hdigits, Readable, imp_iff_right hform]

theorem pyInt_nonneg (hform : isIndexForm token = true) {index : Int}
    (hint : pyInt token = some index) : Int.ofNat index.toNat = index := by
  rw [pyInt_of_digits (digits_of_indexForm hform).2] at hint
  obtain ⟨n, -, rfl⟩ := Option.map_eq_some_iff.mp hint
  rfl

theorem child_arr_of_no_form (items : List Json) (hform : isIndexForm token = false) :
    child (.arr items) token = .ok none := by
  simp [child, hform]

theorem child_arr_of_form (items : List Json) (hform : isIndexForm token = true) :
    child (.arr items) token =
      match pyInt token with
      | none => .error .digits
      | some index =>
          if Int.ofNat maxIndex < index then .ok none else .ok items[index.toNat]? := by
  have hminus : token ≠ "-" := by
    rintro rfl
    rw [isIndexForm_minus] at hform
    cases hform
  rw [child, if_neg hminus, hform, Bool.not_true, if_neg Bool.false_ne_true]

/-- What an array has under a token is the item of the index that is read. -/
theorem child_arr_iff (items : List Json) (value : Json) :
    child (.arr items) token = .ok (some value) ↔
      ∃ index, ReadsIndex token index ∧ items[index]? = some value := by
  cases hform : isIndexForm token with
  | false =>
      rw [child_arr_of_no_form items hform]
      simp [ReadsIndex, hform]
  | true =>
      rw [child_arr_of_form items hform]
      cases hint : pyInt token with
      | none => simp [ReadsIndex, hint]
      | some index =>
          have hnat := pyInt_nonneg hform hint
          generalize index.toNat = n at hnat
          subst hnat
          have hreads : ∀ m, ReadsIndex token m ↔ n = m ∧ n ≤ maxIndex := by
            intro m
            simp only [ReadsIndex, hform, hint, Option.some.injEq, true_and]
            constructor
            · rintro ⟨hm, hbound⟩
              obtain rfl := Int.ofNat.inj hm
              exact ⟨rfl, hbound⟩
            · rintro ⟨rfl, hbound⟩
              exact ⟨rfl, hbound⟩
          by_cases hbound : n ≤ maxIndex
          · simp [hreads, hbound, Nat.not_lt.mpr hbound]
          · simp [hreads, hbound, Nat.lt_of_not_le hbound]

/-- The loop raises at an array that is asked for an index `int` does not read. -/
theorem child_arr_error_iff (items : List Json) :
    (∃ raised, child (.arr items) token = .error raised) ↔ ¬ Readable token := by
  cases hform : isIndexForm token with
  | false =>
      rw [child_arr_of_no_form items hform]
      simp [Readable, hform]
  | true =>
      rw [child_arr_of_form items hform, ← pyInt_isSome_iff hform]
      cases pyInt token with
      | none => exact iff_of_true ⟨_, rfl⟩ (by simp)
      | some index =>
          refine iff_of_false ?_ (by simp)
          rintro ⟨raised, hraised⟩
          dsimp only at hraised
          split at hraised <;> cases hraised

theorem head_toDigits {n : Nat} (hn : 0 < n) : (Nat.toDigits 10 n).head? ≠ some '0' := by
  induction n using Nat.strong_induction_on with
  | h n ih =>
      rcases Nat.lt_or_ge n 10 with hlt | hge
      · rw [Nat.toDigits_of_lt_base hlt, List.head?_cons, Ne, Option.some.injEq,
          Nat.digitChar_eq_zero]
        omega
      · rw [Nat.toDigits_of_base_le (by decide) hge,
          List.head?_append_of_ne_nil _ Nat.toDigits_ne_nil]
        exact ih (n / 10) (by omega) (by omega)

theorem isIndexForm_toString (index : Nat) : isIndexForm (toString index) = true := by
  have htext : (toString index).toList = Nat.toDigits 10 index :=
    Nat.toString_eq_repr ▸ Nat.toList_repr
  have hdigits : (Nat.toDigits 10 index).all isDigitChar = true := by
    rw [List.all_eq_true]
    intro c hc
    apply isDigitChar_of_decimal
    rw [decimal?_of_isDigit (Nat.isDigit_of_mem_toDigits (by decide) (by decide) hc)]
    rfl
  have hzero : 1 < (Nat.toDigits 10 index).length →
      (Nat.toDigits 10 index).head? ≠ some '0' := by
    intro hlong hhead
    rcases Nat.eq_zero_or_pos index with rfl | hpos
    · rw [Nat.toDigits_zero] at hlong
      exact absurd hlong (by decide)
    · exact head_toDigits hpos hhead
  rw [isIndexForm, isPyDigit, htext, hdigits, Bool.and_true, Bool.and_eq_true]
  exact ⟨by simp [Nat.toDigits_ne_nil], by simpa [Decidable.imp_iff_not_or] using hzero⟩

/-- A numeral in ASCII is read as its value, up to the bound. -/
theorem readsIndex_ascii_iff (index : Nat) :
    (ReadsIndex token index ∧ ∀ c ∈ token.toList, c.isDigit = true) ↔
      IsIndex token index ∧ index ≤ maxIndex := by
  constructor
  · rintro ⟨⟨hform, hint, hbound⟩, hascii⟩
    refine ⟨?_, hbound⟩
    obtain ⟨hne, -⟩ := digits_of_indexForm hform
    have hlength := ((pyInt_isSome_iff hform).mp (by simp [hint]) hform).2
    rw [pyInt_of_ascii hne hascii hlength, Option.some.injEq] at hint
    have hzero : 1 < token.toList.length → token.toList.head? ≠ some '0' := by
      intro hlong hhead
      simp [isIndexForm, hlong, hhead] at hform
    have hdigits := toDigits_ofDigitChars hne hascii hzero
    rw [Int.ofNat.inj hint] at hdigits
    apply String.toList_injective
    rw [Nat.toString_eq_repr, Nat.toList_repr, hdigits]
  · rintro ⟨rfl, hbound⟩
    have hlength : (Nat.toDigits 10 index).length ≤ maxStrDigits := by
      have hten : (Nat.toDigits 10 index).length ≤ 10 := by
        rw [Nat.length_toDigits_le_iff (by decide) (by decide)]
        exact hbound.trans_lt (by decide)
      exact hten.trans (by decide)
    refine ⟨⟨isIndexForm_toString index, pyInt_toString hlength, hbound⟩, ?_⟩
    intro c hc
    rw [Nat.toString_eq_repr, Nat.toList_repr] at hc
    exact Nat.isDigit_of_mem_toDigits (by decide) (by decide) hc

end Indices

section Walk

variable {document : Json}

theorem child_error_iff (token : String) :
    (∃ raised, child document token = .error raised) ↔
      ∃ items, document = .arr items ∧ ¬ Readable token := by
  constructor
  · rintro ⟨raised, hraised⟩
    cases document with
    | arr items => exact ⟨items, rfl, (child_arr_error_iff items).mp ⟨raised, hraised⟩⟩
    | _ => cases hraised
  · rintro ⟨items, rfl, hread⟩
    exact (child_arr_error_iff items).mpr hread

/-- A token leads to what the loop finds under it. -/
theorem leads_cons_iff {token : String} {rest : List String} {result : Json} :
    (∃ used, Leads ReadsIndex document (token :: rest) used result) ↔
      ∃ value used, child document token = .ok (some value) ∧
        Leads ReadsIndex value rest used result := by
  constructor
  · rintro ⟨used, hleads⟩
    cases hleads with
    | member hmember hrest => exact ⟨_, _, congrArg Except.ok hmember, hrest⟩
    | item hreads hitem hrest =>
        exact ⟨_, _, (child_arr_iff _ _).mpr ⟨_, hreads, hitem⟩, hrest⟩
  · rintro ⟨value, used, hchild, hrest⟩
    cases document with
    | obj members => exact ⟨used, .member (Except.ok.inj hchild) hrest⟩
    | arr items =>
        obtain ⟨index, hreads, hitem⟩ := (child_arr_iff items value).mp hchild
        exact ⟨_, .item hreads hitem hrest⟩
    | _ => cases hchild

theorem decode_escape (token : String) :
    decodePointerToken (escape token) = some token.toList :=
  decodePointerToken_escape token.toList

theorem cons_eq_map_escape_iff {token : String} {raws : List (List Char)}
    {tokens : List String} :
    escape token :: raws = tokens.map escape ↔
      ∃ rest, tokens = token :: rest ∧ raws = rest.map escape := by
  constructor
  · intro hraws
    cases tokens with
    | nil => cases hraws
    | cons first rest =>
        obtain ⟨hfirst, hrest⟩ := List.cons.inj hraws
        exact ⟨rest, by rw [escape_inj hfirst], hrest⟩
  · rintro ⟨rest, rfl, rfl⟩
    rfl

/-- An array is asked for the first token, or one is further on. -/
theorem asks_cons_iff {token asked : String} {raws : List (List Char)} :
    Asks document (escape token :: raws) asked ↔
      (∃ items, document = .arr items ∧ asked = token) ∨
        ∃ value, child document token = .ok (some value) ∧ Asks value raws asked := by
  constructor
  · rintro ⟨tokens, used, items, hprefix, hleads⟩
    cases tokens with
    | nil =>
        rw [List.nil_append, List.map_singleton, List.cons_prefix_cons] at hprefix
        cases hleads
        exact .inl ⟨items, rfl, escape_inj hprefix.1⟩
    | cons first rest =>
        rw [List.cons_append, List.map_cons, List.cons_prefix_cons] at hprefix
        obtain rfl := escape_inj hprefix.1
        obtain ⟨value, used', hchild, hrest⟩ := leads_cons_iff.mp ⟨used, hleads⟩
        exact .inr ⟨value, hchild, rest, used', items, hprefix.2, hrest⟩
  · rintro (⟨items, rfl, rfl⟩ | ⟨value, hchild, tokens, used, items, hprefix, hleads⟩)
    · exact ⟨[], [], items, by simp [List.cons_prefix_cons], .here _⟩
    · obtain ⟨used', hfull⟩ := leads_cons_iff.mpr ⟨value, used, hchild, hleads⟩
      exact ⟨token :: tokens, used', items,
        by simpa [List.cons_prefix_cons] using hprefix, hfull⟩

/-- A token that is not escaped as it should be begins no pointer. -/
theorem decode_ne_none {raws : List (List Char)} {raw : List Char} {tokens : List String}
    (hdecode : decodePointerToken raw = none) (hne : tokens ≠ []) :
    ¬ tokens.map escape <+: raw :: raws := by
  cases tokens with
  | nil => exact absurd rfl hne
  | cons first rest =>
      rw [List.map_cons, List.cons_prefix_cons]
      rintro ⟨hraw, -⟩
      rw [← hraw, decode_escape] at hdecode
      cases hdecode

/-- A piece of a pointer is a token in its escaped form, or is not escaped as it
should be. -/
theorem raw_cases {raw : List Char} (hslash : '/' ∉ raw) :
    decodePointerToken raw = none ∨ ∃ token, raw = escape token := by
  cases hdecode : decodePointerToken raw with
  | none => exact .inl rfl
  | some letters =>
      refine .inr ⟨String.ofList letters, ?_⟩
      rw [escape, String.toList_ofList]
      exact escape_of_decode hslash hdecode

theorem walk_of_decode_none {raw : List Char} {raws : List (List Char)}
    (hdecode : decodePointerToken raw = none) : walk document (raw :: raws) = .ok false := by
  rw [walk, hdecode]

theorem walk_escape (token : String) (raws : List (List Char)) :
    walk document (escape token :: raws) =
      match child document token with
      | .error raised => .error raised
      | .ok none => .ok false
      | .ok (some value) => walk value raws := by
  rw [walk, decode_escape]
  simp only [String.ofList_toList]

/-- Pieces lead to a value where the first one leads to what they lead on from. -/
theorem reaches_cons_iff {token : String} {raws : List (List Char)} :
    (∃ tokens used value, escape token :: raws = tokens.map escape ∧
        Leads ReadsIndex document tokens used value) ↔
      ∃ next, child document token = .ok (some next) ∧
        ∃ tokens used value, raws = tokens.map escape ∧
          Leads ReadsIndex next tokens used value := by
  constructor
  · rintro ⟨tokens, used, value, hraws, hleads⟩
    obtain ⟨tail, rfl, htail⟩ := cons_eq_map_escape_iff.mp hraws
    obtain ⟨next, used', hchild, hleads⟩ := leads_cons_iff.mp ⟨used, hleads⟩
    exact ⟨next, hchild, tail, used', value, htail, hleads⟩
  · rintro ⟨next, hchild, tokens, used, value, htail, hleads⟩
    obtain ⟨used', hleads⟩ := leads_cons_iff.mpr ⟨next, used, hchild, hleads⟩
    exact ⟨token :: tokens, used', value,
      cons_eq_map_escape_iff.mpr ⟨tokens, rfl, htail⟩, hleads⟩

/-- The loop answers yes where the tokens lead to a value. -/
theorem walk_true_iff {raws : List (List Char)} (hslash : ∀ raw ∈ raws, '/' ∉ raw) :
    walk document raws = .ok true ↔
      ∃ tokens used value, raws = tokens.map escape ∧
        Leads ReadsIndex document tokens used value := by
  induction raws generalizing document with
  | nil => exact iff_of_true rfl ⟨[], [], document, rfl, .here document⟩
  | cons raw rest ih =>
      obtain ⟨hraw, hrest⟩ := List.forall_mem_cons.mp hslash
      rcases raw_cases hraw with hdecode | ⟨token, rfl⟩
      · rw [walk_of_decode_none hdecode]
        refine iff_of_false (by simp) ?_
        rintro ⟨tokens, used, value, hraws, -⟩
        have hne : tokens ≠ [] := by
          rintro rfl
          cases hraws
        exact decode_ne_none hdecode hne ⟨[], by rw [List.append_nil, hraws]⟩
      · rw [walk_escape]
        rw [reaches_cons_iff]
        rcases hchild : child document token with raised | _ | next
        · simp
        · simp
        · rw [ih hrest]
          simp

/-- The loop raises where an array is asked for an index `int` does not read. -/
theorem walk_error_iff {raws : List (List Char)} (hslash : ∀ raw ∈ raws, '/' ∉ raw) :
    (∃ raised, walk document raws = .error raised) ↔
      ∃ token, Asks document raws token ∧ ¬ Readable token := by
  induction raws generalizing document with
  | nil =>
      refine iff_of_false (by simp [walk]) ?_
      rintro ⟨token, ⟨tokens, -, -, hprefix, -⟩, -⟩
      simp at hprefix
  | cons raw rest ih =>
      obtain ⟨hraw, hrest⟩ := List.forall_mem_cons.mp hslash
      rcases raw_cases hraw with hdecode | ⟨token, rfl⟩
      · rw [walk_of_decode_none hdecode]
        refine iff_of_false (by simp) ?_
        rintro ⟨token, ⟨tokens, -, -, hprefix, -⟩, -⟩
        exact decode_ne_none hdecode (by simp) hprefix
      · rw [walk_escape]
        have hraises := @child_error_iff document token
        simp only [asks_cons_iff]
        rcases hchild : child document token with raised | _ | next
        · rw [hchild] at hraises
          obtain ⟨items, rfl, hread⟩ := hraises.mp ⟨raised, rfl⟩
          exact iff_of_true ⟨raised, rfl⟩ ⟨token, .inl ⟨items, rfl, rfl⟩, hread⟩
        · rw [hchild] at hraises
          refine iff_of_false (by simp) ?_
          rintro ⟨asked, ⟨items, hitems, rfl⟩ | ⟨value, hvalue, -⟩, hread⟩
          · obtain ⟨raised, hraised⟩ := hraises.mpr ⟨items, hitems, hread⟩
            cases hraised
          · cases hvalue
        · rw [hchild] at hraises
          rw [ih hrest]
          constructor
          · rintro ⟨asked, hasks, hread⟩
            exact ⟨asked, .inr ⟨next, rfl, hasks⟩, hread⟩
          · rintro ⟨asked, ⟨items, hitems, rfl⟩ | ⟨value, hvalue, hasks⟩, hread⟩
            · obtain ⟨raised, hraised⟩ := hraises.mpr ⟨items, hitems, hread⟩
              cases hraised
            · cases hvalue
              exact ⟨asked, hasks, hread⟩

end Walk

section Agreement

variable {document : Json} {pointer : String}

/-- The pointer leads to a value by the indices that the loop reads. -/
def LeadsLoop (document : Json) (pointer : String) : Prop :=
  ∃ tokens used value, pointer.toList = render tokens ∧
    Leads ReadsIndex document tokens used value

theorem render_injective : Function.Injective render := by
  intro left right hsame
  cases left with
  | nil =>
      cases right with
      | nil => rfl
      | cons token rest => cases hsame
  | cons token rest =>
      have hleft := (render_eq_iff (escape token ++ render rest) (token :: rest)).mp rfl
      have hright : '/' :: (escape token ++ render rest) = render right := hsame
      rw [(render_eq_iff _ right).mp hright] at hleft
      exact (List.map_injective_iff.mpr fun _ _ => escape_inj) hleft.symm

/-- On a way where all indices are in ASCII and within the bound, the loop reads
the standard's indices. -/
theorem leads_ascii_iff {tokens : List String} {used : List (String × Nat)}
    {value : Json} :
    (Leads ReadsIndex document tokens used value ∧
        ∀ entry ∈ used, ∀ c ∈ entry.1.toList, c.isDigit = true) ↔
      Leads IsIndex document tokens used value ∧ ∀ entry ∈ used, entry.2 ≤ maxIndex := by
  have hreads : (fun token index =>
      ReadsIndex token index ∧ ∀ c ∈ token.toList, c.isDigit = true) =
      fun token index => IsIndex token index ∧ index ≤ maxIndex := by
    funext token index
    exact propext (readsIndex_ascii_iff index)
  rw [← leads_and_iff (P := fun token _ => ∀ c ∈ token.toList, c.isDigit = true),
    ← leads_and_iff (P := fun _ index => index ≤ maxIndex), hreads]

theorem ascii_of_isIndex {token : String} {index : Nat} (hindex : IsIndex token index) :
    ∀ c ∈ token.toList, c.isDigit = true := by
  intro c hc
  rw [hindex, Nat.toString_eq_repr, Nat.toList_repr] at hc
  exact Nat.isDigit_of_mem_toDigits (by decide) (by decide) hc

/-- The loop and the standard never read a text as different indices. -/
theorem index_unique (token : String) (index index' : Nat)
    (hreads : ReadsIndex token index) (hindex : IsIndex token index') :
    index = index' := by
  have hsame := ((readsIndex_ascii_iff index).mp ⟨hreads, ascii_of_isIndex hindex⟩).1
  have htexts : Nat.toDigits 10 index = Nat.toDigits 10 index' := by
    rw [← Nat.toList_repr, ← Nat.toList_repr, ← Nat.toString_eq_repr,
      ← Nat.toString_eq_repr, ← hsame, ← hindex]
  rw [← Nat.ofDigitChars_ten_toDigits (n := index), htexts, Nat.ofDigitChars_ten_toDigits]

/-- A way for the loop that is also one for the standard is the same way. -/
theorem leads_both {tokens : List String} {used used' : List (String × Nat)}
    {value value' : Json} (hloop : Leads ReadsIndex document tokens used value)
    (hstandard : Leads IsIndex document tokens used' value') :
    (∀ entry ∈ used, ∀ c ∈ entry.1.toList, c.isDigit = true) ∧
      ∀ entry ∈ used', entry.2 ≤ maxIndex := by
  obtain ⟨rfl, rfl⟩ := leads_unique index_unique hloop hstandard
  constructor
  · intro entry hentry
    exact ascii_of_isIndex (leads_reads hstandard entry hentry)
  · intro entry hentry
    exact (leads_reads hloop entry hentry).2.2

/-- The loop leads where the standard does exactly when the indices on the ways
are in ASCII and within the bound. -/
theorem leadsLoop_iff :
    (LeadsLoop document pointer ↔ Resolves document pointer) ↔
      (∀ tokens used value, pointer.toList = render tokens →
        Leads ReadsIndex document tokens used value →
          ∀ entry ∈ used, ∀ c ∈ entry.1.toList, c.isDigit = true) ∧
      ∀ tokens used value, pointer.toList = render tokens →
        Leads IsIndex document tokens used value → ∀ entry ∈ used, entry.2 ≤ maxIndex := by
  constructor
  · intro hsame
    constructor
    · intro tokens used value hrender hloop
      obtain ⟨tokens', used', value', hrender', hstandard⟩ :=
        hsame.mp ⟨tokens, used, value, hrender, hloop⟩
      obtain rfl := render_injective (hrender.symm.trans hrender')
      exact (leads_both hloop hstandard).1
    · intro tokens used value hrender hstandard
      obtain ⟨tokens', used', value', hrender', hloop⟩ :=
        hsame.mpr ⟨tokens, used, value, hrender, hstandard⟩
      obtain rfl := render_injective (hrender.symm.trans hrender')
      exact (leads_both hloop hstandard).2
  · rintro ⟨hascii, hshort⟩
    constructor
    · rintro ⟨tokens, used, value, hrender, hloop⟩
      have hused := hascii tokens used value hrender hloop
      exact ⟨tokens, used, value, hrender, (leads_ascii_iff.mp ⟨hloop, hused⟩).1⟩
    · rintro ⟨tokens, used, value, hrender, hstandard⟩
      have hused := hshort tokens used value hrender hstandard
      exact ⟨tokens, used, value, hrender, (leads_ascii_iff.mpr ⟨hstandard, hused⟩).1⟩

/-- What the loop answers. -/
theorem pointerResolves_true_iff :
    pointerResolves document pointer = .ok true ↔ LeadsLoop document pointer := by
  rw [pointerResolves, rawTokens, LeadsLoop]
  rcases htext : pointer.toList with _ | ⟨c, text⟩
  · exact iff_of_true rfl ⟨[], [], document, rfl, .here document⟩
  · by_cases hslash : c = '/'
    · subst hslash
      simp only [reduceCtorEq, if_false, List.head?_cons, ne_eq, not_true_eq_false,
        List.drop_one, List.tail_cons, render_eq_iff]
      exact walk_true_iff fun raw hraw => Pieces.not_mem_of_mem_splitOn hraw
    · refine iff_of_false (by simp [hslash]) ?_
      rintro ⟨tokens, used, value, hrender, -⟩
      cases tokens with
      | nil => cases hrender
      | cons token rest => exact hslash (List.cons.inj hrender).1

/-- What the loop raises at. -/
theorem pointerResolves_error_iff :
    (∃ raised, pointerResolves document pointer = .error raised) ↔
      ¬ (pointer.toList.head? = some '/' →
        ∀ token, Asks document (rawTokens pointer) token → Readable token) := by
  rw [pointerResolves, rawTokens]
  rcases pointer.toList with _ | ⟨c, text⟩
  · simp
  · by_cases hslash : c = '/'
    · subst hslash
      have hraises := @walk_error_iff document (text.splitOn '/')
        fun raw hraw => Pieces.not_mem_of_mem_splitOn hraw
      simpa using hraises
    · simp [hslash]

end Agreement

/-- The resolution of a pointer returns the standard's answer exactly where no
array is asked for digits that `int` does not read, and the indices on the way to
a value are in ASCII and below the bound. -/
theorem pointer_resolves_iff (document : Json) (pointer : String) :
    (∃ answer, pointerResolves document pointer = .ok answer ∧
        (answer = true ↔ Resolves document pointer)) ↔
      Plain document pointer := by
  have hplain : Plain document pointer ↔
      (¬ ∃ raised, pointerResolves document pointer = .error raised) ∧
        (LeadsLoop document pointer ↔ Resolves document pointer) := by
    rw [pointerResolves_error_iff, not_not, leadsLoop_iff]
    constructor
    · rintro ⟨hreadable, hascii, hshort⟩
      exact ⟨hreadable, hascii, hshort⟩
    · rintro ⟨hreadable, hascii, hshort⟩
      exact ⟨hreadable, hascii, hshort⟩
  rw [hplain, ← pointerResolves_true_iff]
  cases pointerResolves document pointer with
  | error raised => exact iff_of_false (by simp) fun h => h.1 ⟨raised, rfl⟩
  | ok answer => simp

namespace PointerWitness

def oneItem : Json := .arr [.str "a"]

theorem superscript_raised : pointerResolves oneItem "/²" = .error .digits := by
  rw [pointerResolves, rawTokens, String.toList_ofList]
  rfl

/-- A superscript is a digit for `isdigit` and none for `int`. -/
theorem superscript_raises :
    ¬ ∃ answer, pointerResolves oneItem "/²" = .ok answer ∧
      (answer = true ↔ Resolves oneItem "/²") := by
  rintro ⟨answer, hanswer, -⟩
  rw [superscript_raised] at hanswer
  cases hanswer

/-- An Arabic-Indic zero is read as the index of the first item. -/
example : pointerResolves oneItem "/٠" = .ok true := by
  rw [pointerResolves, rawTokens, String.toList_ofList]
  rfl

end PointerWitness

end PointerResolution

end HermesPipeline
