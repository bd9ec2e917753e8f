/-
Python's `str.isdigit` and `int` of a text.  Every script's decimal digits count
for `int`; `isdigit` also counts superscripts, circled digits and the like, for
which `int` raises, as it does for texts of too many digits.
-/
import HermesPipeline.Lib.Json
import Mathlib.Data.List.Induction
import Mathlib.Tactic.Cases

namespace Lib

/-- The digit zero of each script of Unicode 15; nine more digits follow it. -/
def decimalZeros : List Nat :=
  [0x30, 0x660, 0x6f0, 0x7c0, 0x966, 0x9e6, 0xa66, 0xae6, 0xb66, 0xbe6, 0xc66,
    0xce6, 0xd66, 0xde6, 0xe50, 0xed0, 0xf20, 0x1040, 0x1090, 0x17e0, 0x1810,
    0x1946, 0x19d0, 0x1a80, 0x1a90, 0x1b50, 0x1bb0, 0x1c40, 0x1c50, 0xa620, 0xa8d0,
    0xa900, 0xa9d0, 0xa9f0, 0xaa50, 0xabf0, 0xff10, 0x104a0, 0x10d30, 0x11066,
    0x110f0, 0x11136, 0x111d0, 0x112f0, 0x11450, 0x114d0, 0x11650, 0x116c0,
    0x11730, 0x118e0, 0x11950, 0x11c50, 0x11d50, 0x11da0, 0x11f50, 0x16a60,
    0x16ac0, 0x16b50, 0x1d7ce, 0x1d7d8, 0x1d7e2, 0x1d7ec, 0x1d7f6, 0x1e140,
    0x1e2f0, 0x1e4f0, 0x1e950, 0x1fbf0]

/-- The other characters that `isdigit` counts. -/
def digitRanges : List (Nat × Nat) :=
  [(0xb2, 0xb3), (0xb9, 0xb9), (0x1369, 0x1371), (0x19da, 0x19da),
    (0x2070, 0x2070), (0x2074, 0x2079), (0x2080, 0x2089), (0x2460, 0x2468),
    (0x2474, 0x247c), (0x2488, 0x2490), (0x24ea, 0x24ea), (0x24f5, 0x24fd),
    (0x24ff, 0x24ff), (0x2776, 0x277e), (0x2780, 0x2788), (0x278a, 0x2792),
    (0x10a40, 0x10a43), (0x10e60, 0x10e68), (0x11052, 0x1105a), (0x1f100, 0x1f10a)]

/-- The value of a decimal digit of any script. -/
def decimal? (c : Char) : Option Nat :=
  (decimalZeros.find? fun first => first ≤ c.toNat && c.toNat < first + 10).map
    fun first => c.toNat - first

def isDigitChar (c : Char) : Bool :=
  (decimal? c).isSome ||
    digitRanges.any fun range => range.1 ≤ c.toNat && c.toNat ≤ range.2

/-- `text.isdigit()`. -/
def isPyDigit (text : String) : Bool :=
  !text.toList.isEmpty && text.toList.all isDigitChar

/-- `sys.int_max_str_digits`. -/
def maxStrDigits : Nat := 4300

/-- The digits of a numeral; one underscore may stand between two of them. -/
def digits? : List Char → Option (List Nat)
  | [] => none
  | [c] => (decimal? c).map fun d => [d]
  | c :: '_' :: rest => (decimal? c).bind fun d => (digits? rest).map (d :: ·)
  | c :: rest => (decimal? c).bind fun d => (digits? rest).map (d :: ·)

def unsigned? (letters : List Char) : Option Nat :=
  (digits? letters).bind fun digits =>
    if digits.length ≤ maxStrDigits then
      some (digits.foldl (fun value digit => 10 * value + digit) 0)
    else none

/-- `int(text)`; `none` is a `ValueError`. -/
def pyInt (text : String) : Option Int :=
  match (pyStrip text).toList with
  | '-' :: letters => (unsigned? letters).map fun n => -Int.ofNat n
  | '+' :: letters => (unsigned? letters).map Int.ofNat
  | letters => (unsigned? letters).map Int.ofNat

section Codes

/-- A property that no code of a digit has is not one of digit characters. -/
theorem digit_avoids {P : Nat → Bool}
    (hdecimal : ∀ first ∈ decimalZeros, ∀ k < 10, P (first + k) = false)
    (hother : ∀ range ∈ digitRanges, ∀ k < 11, range.1 + k ≤ range.2 →
      P (range.1 + k) = false) {c : Char} (h : isDigitChar c = true) :
    P c.toNat = false := by
  rw [isDigitChar, Bool.or_eq_true] at h
  rcases h with h | h
  · rw [decimal?, Option.isSome_map, List.find?_isSome] at h
    obtain ⟨first, hfirst, hcode⟩ := h
    simp only [Bool.and_eq_true, decide_eq_true_eq] at hcode
    have hk := hdecimal first hfirst (c.toNat - first) (by omega)
    rwa [Nat.add_sub_cancel' hcode.1] at hk
  · obtain ⟨range, hrange, hcode⟩ := List.any_eq_true.mp h
    simp only [Bool.and_eq_true, decide_eq_true_eq] at hcode
    have hlength : ∀ range ∈ digitRanges, range.2 < range.1 + 11 := by decide
    have hshort := hlength range hrange
    have hk := hother range hrange (c.toNat - range.1) (by omega) (by omega)
    rwa [Nat.add_sub_cancel' hcode.1] at hk

/-- The codes of `isPySpace`. -/
def spaceCode (n : Nat) : Bool :=
  (0x09 ≤ n && n ≤ 0x0d) || (0x1c ≤ n && n ≤ 0x20) || n = 0x85 || n = 0xa0 ||
    n = 0x1680 || (0x2000 ≤ n && n ≤ 0x200a) || n = 0x2028 || n = 0x2029 ||
    n = 0x202f || n = 0x205f || n = 0x3000

theorem isPySpace_of_digit {c : Char} (h : isDigitChar c = true) :
    isPySpace c = false :=
  digit_avoids (P := spaceCode) (by decide) (by decide) h

theorem ne_of_digit {c : Char} (h : isDigitChar c = true) :
    c ≠ '-' ∧ c ≠ '+' ∧ c ≠ '_' := by
  have hcode : ∀ sign : Char, sign.toNat < 0x30 ∨ sign.toNat = 0x5f → c ≠ sign := by
    rintro sign hsign rfl
    have havoid := digit_avoids (P := fun n => decide (n < 0x30 ∨ n = 0x5f))
      (by decide) (by decide) h
    exact of_decide_eq_false havoid hsign
  exact ⟨hcode '-' (by decide), hcode '+' (by decide), hcode '_' (by decide)⟩

end Codes

section Numerals

variable {text : String}

theorem dropWhile_of_digits {letters : List Char}
    (h : ∀ c ∈ letters, isDigitChar c = true) :
    letters.dropWhile isPySpace = letters := by
  cases letters with
  | nil => rfl
  | cons c rest =>
      have hc := isPySpace_of_digit (h c List.mem_cons_self)
      simp [hc]

/-- Digits have no white space to strip. -/
theorem pyStrip_of_digits (h : ∀ c ∈ text.toList, isDigitChar c = true) :
    pyStrip text = text := by
  have hreverse : ∀ c ∈ text.toList.reverse, isDigitChar c = true := by
    intro c hc
    exact h c (List.mem_reverse.mp hc)
  rw [pyStrip, dropWhile_of_digits h, dropWhile_of_digits hreverse,
    List.reverse_reverse, String.ofList_toList]

/-- Digits are read without a sign. -/
theorem pyInt_of_digits (h : ∀ c ∈ text.toList, isDigitChar c = true) :
    pyInt text = (unsigned? text.toList).map Int.ofNat := by
  rw [pyInt, pyStrip_of_digits h]
  cases hletters : text.toList with
  | nil => rfl
  | cons c rest =>
      rw [hletters] at h
      obtain ⟨hminus, hplus, -⟩ := ne_of_digit (h c List.mem_cons_self)
      split
      · rename_i heq
        exact absurd (List.cons.inj heq).1 hminus
      · rename_i heq
        exact absurd (List.cons.inj heq).1 hplus
      · rfl

theorem decimal?_underscore : decimal? '_' = none := by decide

/-- The digits of a numeral without underscores. -/
theorem digits?_of_decimals {letters : List Char} (hne : letters ≠ [])
    (h : ∀ c ∈ letters, (decimal? c).isSome = true) :
    digits? letters = some (letters.filterMap decimal?) := by
  induction letters with
  | nil => exact absurd rfl hne
  | cons c rest ih =>
      obtain ⟨d, hd⟩ := Option.isSome_iff_exists.mp (h c List.mem_cons_self)
      have hrest : ∀ c ∈ rest, (decimal? c).isSome = true :=
        fun c' hc' => h c' (List.mem_cons_of_mem c hc')
      cases rest with
      | nil => simp [digits?, hd]
      | cons c' rest' =>
          have hne' : c' ≠ '_' := by
            rintro rfl
            have hsome := hrest '_' List.mem_cons_self
            rw [decimal?_underscore] at hsome
            cases hsome
          have htail := ih (by simp) hrest
          rw [digits?, htail, hd]
          · simp [List.filterMap_cons, hd]
          · exact fun heq => by cases heq
          · intro rest'' heq
            exact hne' (List.cons.inj heq).1

theorem isDigitChar_of_decimal {c : Char} (h : (decimal? c).isSome = true) :
    isDigitChar c = true := by
  rw [isDigitChar, h, Bool.true_or]

/-- A text of decimal digits is read unless it is too long. -/
theorem pyInt_eq_none_iff_of_decimals (hne : text.toList ≠ [])
    (h : ∀ c ∈ text.toList, (decimal? c).isSome = true) :
    pyInt text = none ↔ maxStrDigits < text.toList.length := by
  have hlength : (text.toList.filterMap decimal?).length = text.toList.length := by
    generalize text.toList = letters at h
    induction letters with
    | nil => rfl
    | cons c rest ih =>
        obtain ⟨d, hd⟩ := Option.isSome_iff_exists.mp (h c List.mem_cons_self)
        have htail := ih fun c' hc' => h c' (List.mem_cons_of_mem c hc')
        simp [hd, htail]
  rw [pyInt_of_digits fun c hc => isDigitChar_of_decimal (h c hc),
    Option.map_eq_none_iff, unsigned?, digits?_of_decimals hne h, Option.bind_some,
    hlength]
  by_cases hle : text.toList.length ≤ maxStrDigits
  · simp [hle]
  · simp [hle, Nat.not_le.mp hle]

theorem decimal?_of_isDigit {c : Char} (h : c.isDigit = true) :
    decimal? c = some (c.toNat - '0'.toNat) := by
  have hcode : 0x30 ≤ c.toNat ∧ c.toNat < 0x30 + 10 := by
    simp only [Char.isDigit, Bool.and_eq_true, decide_eq_true_eq, ge_iff_le,
      UInt32.le_iff_toNat_le] at h
    exact ⟨h.1, Nat.lt_succ_of_le h.2⟩
  rw [decimal?, decimalZeros, List.find?_cons_of_pos (by simp [hcode])]
  rfl

/-- Numbers are read back. -/
theorem pyInt_toString {n : Nat} (hlength : (Nat.toDigits 10 n).length ≤ maxStrDigits) :
    pyInt (toString n) = some (Int.ofNat n) := by
  have htext : (toString n).toList = Nat.toDigits 10 n := by
    rw [Nat.toString_eq_repr, Nat.repr_eq_ofList_toDigits, String.toList_ofList]
  have hdigit : ∀ c ∈ Nat.toDigits 10 n, c.isDigit = true := fun c hc =>
    Nat.isDigit_of_mem_toDigits (by decide) (by decide) hc
  have hdecimal : ∀ c ∈ Nat.toDigits 10 n, (decimal? c).isSome = true := by
    intro c hc
    rw [decimal?_of_isDigit (hdigit c hc)]
    rfl
  have hvalues : (Nat.toDigits 10 n).filterMap decimal? =
      (Nat.toDigits 10 n).map fun c => c.toNat - '0'.toNat := by
    rw [← List.filterMap_eq_map]
    apply List.filterMap_congr
    intro c hc
    exact decimal?_of_isDigit (hdigit c hc)
  rw [pyInt_of_digits (by rw [htext]; exact fun c hc =>
    isDigitChar_of_decimal (hdecimal c hc)), htext, unsigned?,
    digits?_of_decimals Nat.toDigits_ne_nil hdecimal, Option.bind_some, hvalues,
    List.length_map, if_pos hlength, List.foldl_map, Option.map_some,
    ← Nat.ofDigitChars_eq_foldl, Nat.ofDigitChars_ten_toDigits]

/-- A numeral reads as digits only where each of its characters is one. -/
theorem decimal_of_digits? {letters : List Char} {digits : List Nat}
    (hdigits : digits? letters = some digits) :
    ∀ c ∈ letters, c ≠ '_' → (decimal? c).isSome = true := by
  fun_induction digits? letters generalizing digits with
  | case1 => cases hdigits
  | case2 c =>
      obtain ⟨d, hd, -⟩ := Option.map_eq_some_iff.mp hdigits
      simp [hd]
  | case3 c rest ih =>
      obtain ⟨d, hd, hrest⟩ := Option.bind_eq_some_iff.mp hdigits
      obtain ⟨tail, htail, -⟩ := Option.map_eq_some_iff.mp hrest
      intro c' hc' hne
      rcases List.mem_cons.mp hc' with rfl | hc'
      · simp [hd]
      · rcases List.mem_cons.mp hc' with rfl | hc'
        · exact absurd rfl hne
        · exact ih htail c' hc' hne
  | case4 c rest hlong hunder ih =>
      obtain ⟨d, hd, hrest⟩ := Option.bind_eq_some_iff.mp hdigits
      obtain ⟨tail, htail, -⟩ := Option.map_eq_some_iff.mp hrest
      intro c' hc' hne
      rcases List.mem_cons.mp hc' with rfl | hc'
      · simp [hd]
      · exact ih htail c' hc' hne

/-- Digits are read where all of them are decimal and there are not too many. -/
theorem pyInt_isSome_iff_of_digits (hne : text.toList ≠ [])
    (h : ∀ c ∈ text.toList, isDigitChar c = true) :
    (pyInt text).isSome = true ↔
      (∀ c ∈ text.toList, (decimal? c).isSome = true) ∧
        text.toList.length ≤ maxStrDigits := by
  constructor
  · intro hsome
    have hdecimal : ∀ c ∈ text.toList, (decimal? c).isSome = true := by
      rw [pyInt_of_digits h, Option.isSome_map, unsigned?] at hsome
      obtain ⟨value, hvalue⟩ := Option.isSome_iff_exists.mp hsome
      obtain ⟨digits, hdigits, -⟩ := Option.bind_eq_some_iff.mp hvalue
      intro c hc
      exact decimal_of_digits? hdigits c hc (ne_of_digit (h c hc)).2.2
    refine ⟨hdecimal, Nat.le_of_not_lt fun hlong => ?_⟩
    rw [(pyInt_eq_none_iff_of_decimals hne hdecimal).mpr hlong] at hsome
    cases hsome
  · rintro ⟨hdecimal, hlength⟩
    rw [Option.isSome_iff_ne_none, Ne, pyInt_eq_none_iff_of_decimals hne hdecimal]
    omega

/-- What ASCII digits are read as. -/
theorem pyInt_of_ascii (hne : text.toList ≠ [])
    (h : ∀ c ∈ text.toList, c.isDigit = true)
    (hlength : text.toList.length ≤ maxStrDigits) :
    pyInt text = some (Int.ofNat (Nat.ofDigitChars 10 text.toList 0)) := by
  have hdecimal : ∀ c ∈ text.toList, (decimal? c).isSome = true := by
    intro c hc
    rw [decimal?_of_isDigit (h c hc)]
    rfl
  have hvalues : text.toList.filterMap decimal? =
      text.toList.map fun c => c.toNat - '0'.toNat := by
    rw [← List.filterMap_eq_map]
    apply List.filterMap_congr
    intro c hc
    exact decimal?_of_isDigit (h c hc)
  rw [pyInt_of_digits fun c hc => isDigitChar_of_decimal (hdecimal c hc), unsigned?,
    digits?_of_decimals hne hdecimal, Option.bind_some, hvalues, List.length_map,
    if_pos hlength, List.foldl_map, Option.map_some, ← Nat.ofDigitChars_eq_foldl]

/-- A digit is the decimal form of its value. -/
theorem toDigits_of_isDigit {c : Char} (h : c.isDigit = true) :
    c.toNat - '0'.toNat < 10 ∧ Nat.toDigits 10 (c.toNat - '0'.toNat) = [c] := by
  have hcode : 0x30 ≤ c.toNat ∧ c.toNat < 0x30 + 10 := by
    simp only [Char.isDigit, Bool.and_eq_true, decide_eq_true_eq, ge_iff_le,
      UInt32.le_iff_toNat_le] at h
    exact ⟨h.1, Nat.lt_succ_of_le h.2⟩
  have hforms : ∀ k < 10, (0x30 + k - '0'.toNat).digitChar = Char.ofNat (0x30 + k) := by
    decide
  have hform := hforms (c.toNat - 0x30) (by omega)
  rw [Nat.add_sub_cancel' hcode.1, Char.ofNat_toNat] at hform
  have hsmall : c.toNat - '0'.toNat < 10 := by
    have hzero : '0'.toNat = 0x30 := rfl
    omega
  exact ⟨hsmall, by rw [Nat.toDigits_of_lt_base hsmall, hform]⟩

/-- A numeral without a leading zero is the decimal form of its value. -/
theorem toDigits_ofDigitChars {letters : List Char} (hne : letters ≠ [])
    (h : ∀ c ∈ letters, c.isDigit = true)
    (hzero : 1 < letters.length → letters.head? ≠ some '0') :
    Nat.toDigits 10 (Nat.ofDigitChars 10 letters 0) = letters := by
  induction letters using List.reverseRecOn with
  | nil => exact absurd rfl hne
  | append_singleton letters c ih =>
      have hc := h c (by simp)
      obtain ⟨hcode, hlast⟩ := toDigits_of_isDigit hc
      cases letters with
      | nil =>
          rw [List.nil_append, Nat.ofDigitChars_cons, Nat.ofDigitChars_nil, Nat.mul_zero,
            Nat.zero_add]
          exact hlast
      | cons first rest =>
          have hfirst : first ≠ '0' := by
            intro hfirst
            exact hzero (by simp) (by simp [hfirst])
          have hstart := ih (by simp) (fun c' hc' => h c' (List.mem_append_left _ hc'))
            (by simp [hfirst])
          have hpos : 0 < Nat.ofDigitChars 10 (first :: rest) 0 := by
            rcases Nat.eq_zero_or_pos (Nat.ofDigitChars 10 (first :: rest) 0) with hnull | hpos
            · rw [hnull, Nat.toDigits_zero] at hstart
              exact absurd (List.cons.inj hstart).1.symm hfirst
            · exact hpos
          rw [Nat.ofDigitChars_append, Nat.ofDigitChars_cons, Nat.ofDigitChars_nil,
            ← Nat.toDigits_append_toDigits (by decide) hpos hcode, hstart, hlast]

end Numerals

end Lib
