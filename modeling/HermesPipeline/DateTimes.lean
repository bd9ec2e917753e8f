/-
The date-time rule that the authoring type and the format checker share.  Its
expression and `int` read the decimal digits of every script, the grammar knows
those of ASCII only.
-/
import HermesPipeline.Lib.PyInt
import HermesPipeline.ScalarBoundaries

namespace HermesPipeline

open Lib

namespace DateTimes

section Grammar

/-- The value of digits. -/
def valueOf (digit : Char → Option Nat) (letters : List Char) : Nat :=
  (letters.filterMap digit).foldl (fun value d => 10 * value + d) 0

/-- So many digits. -/
def Numeral (digit : Char → Option Nat) (length : Nat) (letters : List Char) : Prop :=
  letters.length = length ∧ ∀ c ∈ letters, (digit c).isSome = true

def isLeap (year : Nat) : Bool :=
  year % 4 = 0 && (year % 100 ≠ 0 || year % 400 = 0)

def daysInMonth (year month : Nat) : Nat :=
  if month = 2 then (if isLeap year then 29 else 28)
  else if month ∈ [4, 6, 9, 11] then 30 else 31

/-- A date of the Gregorian calendar. -/
def RealDate (year month day : Nat) : Prop :=
  1 ≤ year ∧ year ≤ 9999 ∧ 1 ≤ month ∧ month ≤ 12 ∧ 1 ≤ day ∧
    day ≤ daysInMonth year month

instance (year month day : Nat) : Decidable (RealDate year month day) :=
  inferInstanceAs (Decidable (_ ∧ _))

/-- The pieces of a date-time, without the hyphens and colons between them. -/
structure Parts where
  year : List Char
  month : List Char
  day : List Char
  separator : Char
  hour : List Char
  minute : List Char
  second : List Char
  fraction : List Char
  zone : List Char

def Parts.text (parts : Parts) : List Char :=
  parts.year ++ '-' :: (parts.month ++ '-' :: (parts.day ++ parts.separator ::
    (parts.hour ++ ':' :: (parts.minute ++ ':' :: (parts.second ++
      (parts.fraction ++ parts.zone))))))

variable (digit : Char → Option Nat)

/-- No fraction, or a point and digits. -/
def Fraction (letters : List Char) : Prop :=
  letters = [] ∨ ∃ digits, letters = '.' :: digits ∧ digits ≠ [] ∧
    ∀ c ∈ digits, (digit c).isSome = true

/-- `Z`, or a numeric offset with the property. -/
def Zone (P : List Char → List Char → Prop) (letters : List Char) : Prop :=
  letters = ['Z'] ∨ letters = ['z'] ∨
    ∃ sign hour minute, letters = sign :: (hour ++ ':' :: minute) ∧
      (sign = '+' ∨ sign = '-') ∧ Numeral digit 2 hour ∧ Numeral digit 2 minute ∧
      P hour minute

/-- The pieces have the form of a date-time. -/
structure Parts.Formed (P : List Char → List Char → Prop) (parts : Parts) : Prop where
  year : Numeral digit 4 parts.year
  month : Numeral digit 2 parts.month
  day : Numeral digit 2 parts.day
  separator : parts.separator = 'T' ∨ parts.separator = 't'
  hour : Numeral digit 2 parts.hour
  minute : Numeral digit 2 parts.minute
  second : Numeral digit 2 parts.second
  fraction : Fraction digit parts.fraction
  zone : Zone digit P parts.zone

/-- The offset is at most 23:59. -/
def OffsetBound (hour minute : List Char) : Prop :=
  valueOf digit hour ≤ 23 ∧ valueOf digit minute ≤ 59

/-- The pieces stand for a time of a real date. -/
structure Parts.InRange (parts : Parts) : Prop where
  date : RealDate (valueOf digit parts.year) (valueOf digit parts.month)
    (valueOf digit parts.day)
  hour : valueOf digit parts.hour ≤ 23
  minute : valueOf digit parts.minute ≤ 59
  second : valueOf digit parts.second ≤ 60

/-- A date-time whose digits are those of a script, or of several. -/
def IsDateTimeBy (text : List Char) : Prop :=
  ∃ parts : Parts, parts.text = text ∧
    parts.Formed digit (OffsetBound digit) ∧ parts.InRange digit

/-- The value of an ASCII digit. -/
def asciiDigit? (c : Char) : Option Nat :=
  if c.isDigit then some (c.toNat - '0'.toNat) else none

/-- The grammar of RFC 3339, with the offset required. -/
def IsDateTime (text : String) : Prop := IsDateTimeBy asciiDigit? text.toList

end Grammar

section Source

open CharClass Regex
open ScalarBoundaries (letter)

/-- `\d`: the decimal digits of every script. -/
def decimals : CharClass :=
  .ranges (decimalZeros.map fun first => (Char.ofNat first, Char.ofNat (first + 9)))

def digits (n : Nat) : Regex := .many decimals n (some n)

def oneOf (letters : List Char) : Regex :=
  .many (.ranges (letters.map fun c => (c, c))) 1 (some 1)

/-- What stands between the anchors of `_RFC3339_RE`. -/
def inner : Regex :=
  .seq (digits 4) (.seq (letter '-') (.seq (digits 2) (.seq (letter '-')
    (.seq (digits 2) (.seq (oneOf ['T', 't']) (.seq (digits 2) (.seq (letter ':')
      (.seq (digits 2) (.seq (letter ':') (.seq (digits 2)
        (.seq (.opt (.seq (letter '.') (.many decimals 1 none)))
          (.alt (oneOf ['Z', 'z']) (.seq (oneOf ['+', '-']) (.seq (digits 2)
            (.seq (letter ':') (digits 2))))))))))))))))

/-- `_RFC3339_RE`. -/
def rfc3339Re : Regex := .anchored inner

/-- `int` of a group, which its digits never make raise. -/
def int (group : List Char) : Nat := ((pyInt (String.ofList group)).getD 0).toNat

/-- Whether `datetime(year, month, day, hour, minute, second)` is no `ValueError`. -/
def datetimeOk (year month day hour minute second : Nat) : Bool :=
  1 ≤ year && year ≤ 9999 && (1 ≤ month && month ≤ 12) &&
    (1 ≤ day && day ≤ daysInMonth year month) && hour ≤ 23 && minute ≤ 59 && second ≤ 59

/-- `match.group(8)`: what the seconds and their fraction leave. -/
def offsetGroup (text : List Char) : List Char :=
  match text.drop 19 with
  | '.' :: rest => rest.dropWhile decimals.has
  | rest => rest

/-- `is_rfc3339_datetime`. -/
def isRfc3339Datetime (value : Json) : Bool :=
  match value with
  | .str value =>
      let text := value.toList
      if !Regex.fullmatch Regex.atLastLine rfc3339Re text then false
      else
        let year := int (text.take 4)
        let month := int ((text.drop 5).take 2)
        let day := int ((text.drop 8).take 2)
        let hour := int ((text.drop 11).take 2)
        let minute := int ((text.drop 14).take 2)
        let second := int ((text.drop 17).take 2)
        -- a leap second is checked as the second before it
        let second := if second = 60 then 59 else second
        if !datetimeOk year month day hour minute second then false
        else
          let offset := offsetGroup text
          if offset = ['Z'] || offset = ['z'] then true
          else int ((offset.drop 1).take 2) ≤ 23 && int ((offset.drop 4).take 2) ≤ 59
  | _ => false

/-- `validate_rfc3339_datetime`; `none` is its `ValueError`. -/
def validateRfc3339Datetime (value : String) : Option String :=
  if !isRfc3339Datetime (.str value) then none else some value

/-- The validator of the authoring type. -/
def validateUtcTimestamp (value : String) : Option String := validateRfc3339Datetime value

/-- `_check_date_time`, the format checker of the schemas. -/
def checkDateTime (value : Json) : Bool := isRfc3339Datetime value

end Source

/-- The digits of every script become those of ASCII. -/
def toAscii (c : Char) : Char :=
  match decimal? c with
  | some d => d.digitChar
  | none => c

section Digits

theorem decimal_lt {c : Char} {d : Nat} (h : decimal? c = some d) : d < 10 := by
  obtain ⟨first, hfirst, rfl⟩ := Option.map_eq_some_iff.mp h
  have hrange := List.find?_some hfirst
  simp only [Bool.and_eq_true, decide_eq_true_eq] at hrange
  omega

/-- `\d` has the characters of which `int` reads a digit. -/
theorem decimals_has (c : Char) : decimals.has c = (decimal? c).isSome := by
  have hends : ∀ first ∈ decimalZeros, (Char.ofNat first).toNat = first ∧
      (Char.ofNat (first + 9)).toNat = first + 9 := by decide
  have hle : ∀ first ∈ decimalZeros,
      (Char.ofNat first ≤ c ↔ first ≤ c.toNat) ∧
        (c ≤ Char.ofNat (first + 9) ↔ c.toNat < first + 10) := by
    intro first hfirst
    have hboth := hends first hfirst
    rw [Char.le_def, Char.le_def, UInt32.le_iff_toNat_le, UInt32.le_iff_toNat_le]
    change ((Char.ofNat first).toNat ≤ c.toNat ↔ _) ∧
      (c.toNat ≤ (Char.ofNat (first + 9)).toNat ↔ _)
    rw [hboth.1, hboth.2]
    exact ⟨Iff.rfl, Nat.lt_succ_iff.symm⟩
  rw [Bool.eq_iff_iff, decimals, CharClass.has, decimal?, Option.isSome_map,
    List.find?_isSome, List.any_map, List.any_eq_true]
  refine exists_congr fun first => and_congr_right fun hfirst => ?_
  simp [hle first hfirst]

/-- `int` of some decimal digits is their value. -/
theorem int_of_numeral {length : Nat} {letters : List Char}
    (hnumeral : Numeral decimal? length letters) (hpos : 0 < length)
    (hshort : length ≤ maxStrDigits) : int letters = valueOf decimal? letters := by
  obtain ⟨rfl, hdecimal⟩ := hnumeral
  have hne : letters ≠ [] := List.length_pos_iff.mp hpos
  have hfew : (letters.filterMap decimal?).length ≤ maxStrDigits :=
    (List.length_filterMap_le decimal? letters).trans hshort
  have hdigits : ∀ c ∈ (String.ofList letters).toList, isDigitChar c = true := by
    rw [String.toList_ofList]
    exact fun c hc => isDigitChar_of_decimal (hdecimal c hc)
  rw [int, pyInt_of_digits hdigits, String.toList_ofList, unsigned?,
    digits?_of_decimals hne hdecimal, Option.bind_some, if_pos hfew]
  rfl

end Digits

section Matching

open Regex
open ScalarBoundaries (letter reaches_letter)

variable {dollar : Dollar} {place : Cursor} {P : Cursor → Prop}

theorem reaches_digits (n : Nat) :
    (digits n).Reaches dollar place P ↔
      ∃ used rest, place.rest = used ++ rest ∧ Numeral decimal? n used ∧
        P ⟨place.atStart && used.isEmpty, rest⟩ := by
  rw [digits, reaches_many]
  refine exists_congr fun used => exists_congr fun rest => and_congr_right fun _ => ?_
  simp only [decimals_has, Option.mem_some_iff, forall_eq', Numeral]
  constructor
  · rintro ⟨hdigits, hleast, hmost, hP⟩
    exact ⟨⟨Nat.le_antisymm hmost hleast, hdigits⟩, hP⟩
  · rintro ⟨⟨hlength, hdigits⟩, hP⟩
    exact ⟨hdigits, hlength.ge, hlength.le, hP⟩

theorem oneOf_has (letters : List Char) (c : Char) :
    (CharClass.ranges (letters.map fun c => (c, c))).has c = true ↔ c ∈ letters := by
  rw [CharClass.has, List.any_map, List.any_eq_true]
  constructor
  · rintro ⟨c', hc', hspan⟩
    simp only [Function.comp_apply, Bool.and_eq_true, decide_eq_true_eq] at hspan
    rwa [Char.le_antisymm hspan.2 hspan.1]
  · intro hc
    exact ⟨c, hc, by simp⟩

theorem reaches_oneOf (letters : List Char) :
    (oneOf letters).Reaches dollar place P ↔
      ∃ c rest, place.rest = c :: rest ∧ c ∈ letters ∧ P ⟨false, rest⟩ := by
  rw [oneOf, reaches_one]
  simp only [oneOf_has]

/-- The offset in the expression. -/
theorem reaches_zone (dollar : Dollar) (place : Cursor) :
    (alt (oneOf ['Z', 'z']) (.seq (oneOf ['+', '-']) (.seq (digits 2)
        (.seq (letter ':') (digits 2))))).Reaches dollar place (fun last => last.rest = []) ↔
      Zone decimal? (fun _ _ => True) place.rest := by
  simp only [reaches_alt, reaches_seq, reaches_oneOf, reaches_letter, reaches_digits,
    List.mem_cons, List.not_mem_nil, or_false, Zone, and_true]
  constructor
  · rintro (⟨c, rest, hrest, hc, rfl⟩ |
      ⟨sign, _, hrest, hsign, hour, _, rfl, hhour, _, rfl, minute, _, rfl, hminute, rfl⟩)
    · rcases hc with rfl | rfl
      · exact .inl hrest
      · exact .inr (.inl hrest)
    · exact .inr (.inr ⟨sign, hour, minute, by simpa using hrest, hsign, hhour, hminute⟩)
  · rintro (hrest | hrest | ⟨sign, hour, minute, hrest, hsign, hhour, hminute⟩)
    · exact .inl ⟨'Z', [], hrest, .inl rfl, rfl⟩
    · exact .inl ⟨'z', [], hrest, .inr rfl, rfl⟩
    · exact .inr ⟨sign, _, hrest, hsign, hour, _, rfl, hhour, _, rfl, minute, [],
        by simp, hminute, rfl⟩

/-- The fraction in the expression. -/
theorem reaches_fraction :
    (opt (.seq (letter '.') (.many decimals 1 none))).Reaches dollar place P ↔
      ∃ fraction rest, place.rest = fraction ++ rest ∧ Fraction decimal? fraction ∧
        P ⟨place.atStart && fraction.isEmpty, rest⟩ := by
  rw [reaches_opt, reaches_seq, reaches_letter]
  simp only [reaches_many, decimals_has]
  constructor
  · rintro (⟨_, hrest, digits, rest, rfl, hdigits, hleast, -, hP⟩ | hP)
    · have hne : digits ≠ [] := List.length_pos_iff.mp hleast
      exact ⟨'.' :: digits, rest, hrest, .inr ⟨digits, rfl, hne, hdigits⟩,
        by simpa using hP⟩
    · exact ⟨[], place.rest, rfl, .inl rfl, by simpa using hP⟩
  · rintro ⟨fraction, rest, hrest, rfl | ⟨digits, rfl, hne, hdigits⟩, hP⟩
    · obtain ⟨atStart, text⟩ := place
      obtain rfl : text = rest := hrest
      exact .inr (by simpa using hP)
    · exact .inl ⟨_, hrest, digits, rest, rfl, hdigits, List.length_pos_iff.mpr hne,
        by simp, by simpa using hP⟩

/-- What the expression matches. -/
theorem fullmatch_iff (text : List Char) :
    fullmatch atLastLine rfc3339Re text = true ↔
      ∃ parts : Parts, parts.text = text ∧ parts.Formed decimal? fun _ _ => True := by
  rw [rfc3339Re, fullmatch_anchored atLastLine rfl]
  change inner.Reaches atLastLine ⟨true, text⟩ (fun place => place.rest = []) ↔ _
  simp only [inner, reaches_seq, reaches_digits, reaches_letter, reaches_oneOf,
    reaches_fraction, reaches_zone, List.mem_cons, List.not_mem_nil, or_false]
  constructor
  · rintro ⟨year, _, rfl, hyear, _, rfl, month, _, rfl, hmonth, _, rfl, day, _, rfl,
      hday, separator, _, rfl, hseparator, hour, _, rfl, hhour, _, rfl, minute, _, rfl,
      hminute, _, rfl, second, _, rfl, hsecond, fraction, zone, rfl, hfraction, hzone⟩
    exact ⟨⟨year, month, day, separator, hour, minute, second, fraction, zone⟩, rfl,
      hyear, hmonth, hday, hseparator, hhour, hminute, hsecond, hfraction, hzone⟩
  · rintro ⟨parts, rfl, hformed⟩
    exact ⟨parts.year, _, rfl, hformed.year, _, rfl, parts.month, _, rfl, hformed.month,
      _, rfl, parts.day, _, rfl, hformed.day, parts.separator, _, rfl,
      hformed.separator, parts.hour, _, rfl, hformed.hour, _, rfl, parts.minute, _, rfl,
      hformed.minute, _, rfl, parts.second, _, rfl, hformed.second, parts.fraction,
      parts.zone, rfl, hformed.fraction, hformed.zone⟩

end Matching

section Groups

variable {parts : Parts} {text : List Char}
  {P : List Char → List Char → Prop}

theorem slice_eq {start length : Nat} (front piece rest : List Char)
    (htext : text = front ++ (piece ++ rest)) (hfront : front.length = start)
    (hpiece : piece.length = length) : (text.drop start).take length = piece := by
  subst htext hfront hpiece
  rw [List.drop_left, List.take_left]

/-- The first six groups stand at fixed places. -/
theorem groups_eq (hformed : parts.Formed decimal? P) :
    parts.text.take 4 = parts.year ∧ (parts.text.drop 5).take 2 = parts.month ∧
      (parts.text.drop 8).take 2 = parts.day ∧
      (parts.text.drop 11).take 2 = parts.hour ∧
      (parts.text.drop 14).take 2 = parts.minute ∧
      (parts.text.drop 17).take 2 = parts.second := by
  obtain ⟨hyear, hmonth, hday, -, hhour, hminute, hsecond, -, -⟩ := hformed
  obtain ⟨year, month, day, separator, hour, minute, second, fraction, zone⟩ := parts
  obtain ⟨y₁, y₂, y₃, y₄, rfl⟩ := List.length_eq_four.mp hyear.1
  obtain ⟨m₁, m₂, rfl⟩ := List.length_eq_two.mp hmonth.1
  obtain ⟨d₁, d₂, rfl⟩ := List.length_eq_two.mp hday.1
  obtain ⟨h₁, h₂, rfl⟩ := List.length_eq_two.mp hhour.1
  obtain ⟨i₁, i₂, rfl⟩ := List.length_eq_two.mp hminute.1
  obtain ⟨s₁, s₂, rfl⟩ := List.length_eq_two.mp hsecond.1
  exact ⟨rfl, rfl, rfl, rfl, rfl, rfl⟩

/-- An offset begins with no point and no digit. -/
theorem zone_head (hzone : Zone decimal? P text) :
    ∃ c tail, text = c :: tail ∧ c ≠ '.' ∧ decimal? c = none := by
  rcases hzone with rfl | rfl | ⟨sign, hour, minute, rfl, rfl | rfl, -⟩
  · exact ⟨_, _, rfl, by decide, by decide⟩
  · exact ⟨_, _, rfl, by decide, by decide⟩
  · exact ⟨_, _, rfl, by decide, by decide⟩
  · exact ⟨_, _, rfl, by decide, by decide⟩

/-- The last group is the offset. -/
theorem offsetGroup_eq (hformed : parts.Formed decimal? P) :
    offsetGroup parts.text = parts.zone := by
  have htext : parts.text = (parts.year ++ '-' :: (parts.month ++ '-' :: (parts.day ++
      parts.separator :: (parts.hour ++ ':' :: (parts.minute ++ ':' :: parts.second))))) ++
      (parts.fraction ++ parts.zone) := by
    simp [Parts.text]
  have hlength : (parts.year ++ '-' :: (parts.month ++ '-' :: (parts.day ++
      parts.separator :: (parts.hour ++ ':' :: (parts.minute ++
        ':' :: parts.second))))).length = 19 := by
    simp [hformed.year.1, hformed.month.1, hformed.day.1, hformed.hour.1,
      hformed.minute.1, hformed.second.1]
  obtain ⟨c, tail, hzone, hpoint, hdecimal⟩ := zone_head hformed.zone
  rw [offsetGroup, htext, ← hlength, List.drop_left, hzone]
  rcases hformed.fraction with hnone | ⟨digits, hdigits, -, hall⟩
  · rw [hnone, List.nil_append]
    split
    · next heq => exact absurd (List.cons.inj heq).1 hpoint
    · rfl
  · rw [hdigits, List.cons_append]
    have hhas : ∀ c ∈ digits, decimals.has c = true := by
      intro c hc
      rw [decimals_has]
      exact hall c hc
    change (digits ++ c :: tail).dropWhile decimals.has = c :: tail
    rw [List.dropWhile_append_of_pos hhas, List.dropWhile_cons_of_neg]
    simp [decimals_has, hdecimal]

theorem datetimeOk_iff (year month day hour minute second : Nat) :
    datetimeOk year month day hour minute second = true ↔
      RealDate year month day ∧ hour ≤ 23 ∧ minute ≤ 59 ∧ second ≤ 59 := by
  simp only [datetimeOk, RealDate, Bool.and_eq_true, decide_eq_true_eq]
  tauto

/-- The offset test of the function, on an offset of the right form. -/
theorem zone_bound_iff (hzone : Zone decimal? (fun _ _ => True) text) :
    (text = ['Z'] ∨ text = ['z'] ∨
        int ((text.drop 1).take 2) ≤ 23 ∧ int ((text.drop 4).take 2) ≤ 59) ↔
      Zone decimal? (OffsetBound decimal?) text := by
  have hoffset : ∀ sign hour minute, text = sign :: (hour ++ ':' :: minute) →
      Numeral decimal? 2 hour → Numeral decimal? 2 minute →
      int ((text.drop 1).take 2) = valueOf decimal? hour ∧
        int ((text.drop 4).take 2) = valueOf decimal? minute := by
    intro sign hour minute htext hhour hminute
    have hfirst : (text.drop 1).take 2 = hour :=
      slice_eq [sign] hour (':' :: minute) (by simpa using htext) rfl hhour.1
    have hsecond : (text.drop 4).take 2 = minute :=
      slice_eq (sign :: (hour ++ [':'])) minute [] (by simpa using htext)
        (by simp [hhour.1]) hminute.1
    rw [hfirst, hsecond]
    exact ⟨int_of_numeral hhour (by decide) (by decide),
      int_of_numeral hminute (by decide) (by decide)⟩
  constructor
  · rintro (htext | htext | ⟨hhours, hminutes⟩)
    · exact .inl htext
    · exact .inr (.inl htext)
    · rcases hzone with htext | htext | ⟨sign, hour, minute, htext, hsign, hhour, hminute, -⟩
      · exact .inl htext
      · exact .inr (.inl htext)
      · obtain ⟨hfirst, hsecond⟩ := hoffset sign hour minute htext hhour hminute
        rw [hfirst] at hhours
        rw [hsecond] at hminutes
        exact .inr (.inr ⟨sign, hour, minute, htext, hsign, hhour, hminute, hhours,
          hminutes⟩)
  · rintro (htext | htext | ⟨sign, hour, minute, htext, hsign, hhour, hminute, hbound⟩)
    · exact .inl htext
    · exact .inr (.inl htext)
    · obtain ⟨hfirst, hsecond⟩ := hoffset sign hour minute htext hhour hminute
      rw [hfirst, hsecond]
      exact .inr (.inr hbound)

theorem Zone.forget (hzone : Zone decimal? P text) :
    Zone decimal? (fun _ _ => True) text := by
  rcases hzone with htext | htext | ⟨sign, hour, minute, htext, hsign, hhour, hminute, -⟩
  · exact .inl htext
  · exact .inr (.inl htext)
  · exact .inr (.inr ⟨sign, hour, minute, htext, hsign, hhour, hminute, trivial⟩)

/-- What the function answers on a text that the expression matches. -/
theorem isRfc3339Datetime_of_formed {value : String}
    (hformed : parts.Formed decimal? fun _ _ => True)
    (htext : parts.text = value.toList) :
    isRfc3339Datetime (.str value) = true ↔
      parts.InRange decimal? ∧ Zone decimal? (OffsetBound decimal?) parts.zone := by
  have hmatch : Regex.fullmatch Regex.atLastLine rfc3339Re value.toList = true :=
    (fullmatch_iff value.toList).mpr ⟨parts, htext, hformed⟩
  obtain ⟨hyear, hmonth, hday, hhour, hminute, hsecond⟩ := groups_eq hformed
  rw [htext] at hyear hmonth hday hhour hminute hsecond
  have hoffset : offsetGroup value.toList = parts.zone := by
    rw [← htext, offsetGroup_eq hformed]
  have hleap : ∀ second : Nat, (if second = 60 then 59 else second) ≤ 59 ↔ second ≤ 60 := by
    intro second
    split <;> omega
  rw [isRfc3339Datetime]
  simp only [hmatch, hyear, hmonth, hday, hhour, hminute, hsecond, hoffset,
    int_of_numeral hformed.year (by decide) (by decide),
    int_of_numeral hformed.month (by decide) (by decide),
    int_of_numeral hformed.day (by decide) (by decide),
    int_of_numeral hformed.hour (by decide) (by decide),
    int_of_numeral hformed.minute (by decide) (by decide),
    int_of_numeral hformed.second (by decide) (by decide)]
  rw [← zone_bound_iff hformed.zone]
  have hrange : datetimeOk (valueOf decimal? parts.year) (valueOf decimal? parts.month)
      (valueOf decimal? parts.day) (valueOf decimal? parts.hour)
      (valueOf decimal? parts.minute)
      (if valueOf decimal? parts.second = 60 then 59 else valueOf decimal? parts.second) =
        true ↔ parts.InRange decimal? := by
    rw [datetimeOk_iff, hleap]
    constructor
    · rintro ⟨hdate, hhour, hminute, hsecond⟩
      exact ⟨hdate, hhour, hminute, hsecond⟩
    · rintro ⟨hdate, hhour, hminute, hsecond⟩
      exact ⟨hdate, hhour, hminute, hsecond⟩
  rw [← hrange]
  generalize datetimeOk _ _ _ _ _ _ = inRange
  cases inRange with
  | false => simp
  | true =>
      simp only [Bool.not_true, Bool.false_eq_true, if_false, Bool.or_eq_true,
        decide_eq_true_eq, true_and]
      split
      · next hutc => exact iff_of_true rfl (hutc.imp_right Or.inl)
      · next hnumeric =>
          obtain ⟨hupper, hlower⟩ := not_or.mp hnumeric
          simp [hupper, hlower]

/-- The function accepts the date-times in the decimal digits of every script. -/
theorem isRfc3339Datetime_iff (value : String) :
    isRfc3339Datetime (.str value) = true ↔ IsDateTimeBy decimal? value.toList := by
  constructor
  · intro haccepts
    have hmatch : Regex.fullmatch Regex.atLastLine rfc3339Re value.toList = true := by
      by_contra hfails
      simp [isRfc3339Datetime, Bool.not_eq_true _ ▸ hfails] at haccepts
    obtain ⟨parts, htext, hformed⟩ := (fullmatch_iff value.toList).mp hmatch
    obtain ⟨hrange, hzone⟩ := (isRfc3339Datetime_of_formed hformed htext).mp haccepts
    exact ⟨parts, htext, ⟨hformed.year, hformed.month, hformed.day, hformed.separator,
      hformed.hour, hformed.minute, hformed.second, hformed.fraction, hzone⟩, hrange⟩
  · rintro ⟨parts, htext, hformed, hrange⟩
    have hforgotten : parts.Formed decimal? fun _ _ => True :=
      ⟨hformed.year, hformed.month, hformed.day, hformed.separator, hformed.hour,
        hformed.minute, hformed.second, hformed.fraction, hformed.zone.forget⟩
    exact (isRfc3339Datetime_of_formed hforgotten htext).mpr ⟨hrange, hformed.zone⟩

end Groups

section Ascii

theorem digitChar_digit {d : Nat} (hd : d < 10) :
    d.digitChar.isDigit = true ∧ d.digitChar.toNat - '0'.toNat = d := by
  have hall : ∀ d < 10, d.digitChar.isDigit = true ∧ d.digitChar.toNat - '0'.toNat = d := by
    decide
  exact hall d hd

/-- The ASCII digit of a digit has its value. -/
theorem asciiDigit?_toAscii (c : Char) : asciiDigit? (toAscii c) = decimal? c := by
  rw [toAscii]
  cases hc : decimal? c with
  | none =>
      have hdigit : c.isDigit = false := by
        by_contra hdigit
        rw [Bool.not_eq_false] at hdigit
        rw [decimal?_of_isDigit hdigit] at hc
        cases hc
      simp [asciiDigit?, hdigit]
  | some d =>
      obtain ⟨hdigit, hvalue⟩ := digitChar_digit (decimal_lt hc)
      rw [asciiDigit?, if_pos hdigit, hvalue]

/-- Only a digit becomes another character. -/
theorem toAscii_eq_iff {c letter : Char} (hletter : decimal? letter = none) :
    toAscii c = letter ↔ c = letter := by
  constructor
  · intro hsame
    have hdigit := asciiDigit?_toAscii c
    cases hc : decimal? c with
    | none => simpa [toAscii, hc] using hsame
    | some d =>
        rw [toAscii, hc] at hsame
        have hascii := (digitChar_digit (decimal_lt hc)).1
        dsimp only at hsame
        rw [hsame] at hascii
        rw [decimal?_of_isDigit hascii] at hletter
        cases hletter
  · rintro rfl
    simp [toAscii, hletter]

theorem asciiDigit?_comp : asciiDigit? ∘ toAscii = decimal? := funext asciiDigit?_toAscii

theorem valueOf_map (letters : List Char) :
    valueOf asciiDigit? (letters.map toAscii) = valueOf decimal? letters := by
  rw [valueOf, List.filterMap_map, asciiDigit?_comp, valueOf]

theorem numeral_map_iff (length : Nat) (letters : List Char) :
    Numeral asciiDigit? length (letters.map toAscii) ↔ Numeral decimal? length letters := by
  simp [Numeral, asciiDigit?_toAscii]

/-- The pieces with ASCII digits. -/
def Parts.ascii (parts : Parts) : Parts where
  year := parts.year.map toAscii
  month := parts.month.map toAscii
  day := parts.day.map toAscii
  separator := toAscii parts.separator
  hour := parts.hour.map toAscii
  minute := parts.minute.map toAscii
  second := parts.second.map toAscii
  fraction := parts.fraction.map toAscii
  zone := parts.zone.map toAscii

theorem fraction_map_iff (letters : List Char) :
    Fraction asciiDigit? (letters.map toAscii) ↔ Fraction decimal? letters := by
  simp only [Fraction, List.map_eq_nil_iff, List.map_eq_cons_iff]
  have hpoint : ∀ c, toAscii c = '.' ↔ c = '.' := fun c => toAscii_eq_iff (by decide)
  constructor
  · rintro (hnone | ⟨_, ⟨c, digits, hletters, hc, rfl⟩, hne, hall⟩)
    · exact .inl hnone
    · obtain rfl := (hpoint c).mp hc
      refine .inr ⟨digits, hletters, fun hnil => hne (by rw [hnil]; rfl), ?_⟩
      simpa [asciiDigit?_toAscii] using hall
  · rintro (hnone | ⟨digits, hletters, hne, hall⟩)
    · exact .inl hnone
    · refine .inr ⟨digits.map toAscii, ⟨'.', digits, hletters, (hpoint '.').mpr rfl, rfl⟩,
        by simpa using hne, ?_⟩
      simpa [asciiDigit?_toAscii] using hall

theorem offsetBound_map_iff (hour minute : List Char) :
    OffsetBound asciiDigit? (hour.map toAscii) (minute.map toAscii) ↔
      OffsetBound decimal? hour minute := by
  rw [OffsetBound, OffsetBound, valueOf_map, valueOf_map]

theorem map_eq_singleton_iff (letters : List Char) {c : Char} (hc : decimal? c = none) :
    letters.map toAscii = [c] ↔ letters = [c] := by
  rw [List.map_eq_singleton_iff]
  constructor
  · rintro ⟨c', rfl, hsame⟩
    rw [(toAscii_eq_iff hc).mp hsame]
  · rintro rfl
    exact ⟨c, rfl, (toAscii_eq_iff hc).mpr rfl⟩

theorem zone_map_iff (letters : List Char) :
    Zone asciiDigit? (OffsetBound asciiDigit?) (letters.map toAscii) ↔
      Zone decimal? (OffsetBound decimal?) letters := by
  have hplus : ∀ c, toAscii c = '+' ↔ c = '+' := fun c => toAscii_eq_iff (by decide)
  have hminus : ∀ c, toAscii c = '-' ↔ c = '-' := fun c => toAscii_eq_iff (by decide)
  have hcolon : ∀ c, toAscii c = ':' ↔ c = ':' := fun c => toAscii_eq_iff (by decide)
  simp only [Zone, map_eq_singleton_iff _ (show decimal? 'Z' = none by decide),
    map_eq_singleton_iff _ (show decimal? 'z' = none by decide)]
  refine or_congr_right (or_congr_right ?_)
  constructor
  · rintro ⟨_, _, _, htext, hsign, hhour, hminute, hbound⟩
    obtain ⟨sign, rest, rfl, rfl, hrest⟩ := List.map_eq_cons_iff.mp htext
    obtain ⟨hour, tail, rfl, rfl, htail⟩ := List.map_eq_append_iff.mp hrest
    obtain ⟨colon, minute, rfl, hc, rfl⟩ := List.map_eq_cons_iff.mp htail
    obtain rfl := (hcolon colon).mp hc
    exact ⟨sign, hour, minute, rfl, hsign.imp (hplus sign).mp (hminus sign).mp,
      (numeral_map_iff 2 hour).mp hhour, (numeral_map_iff 2 minute).mp hminute,
      (offsetBound_map_iff hour minute).mp hbound⟩
  · rintro ⟨sign, hour, minute, rfl, hsign, hhour, hminute, hbound⟩
    refine ⟨toAscii sign, hour.map toAscii, minute.map toAscii, ?_,
      hsign.imp (hplus sign).mpr (hminus sign).mpr, (numeral_map_iff 2 hour).mpr hhour,
      (numeral_map_iff 2 minute).mpr hminute, (offsetBound_map_iff hour minute).mpr hbound⟩
    simp [(hcolon ':').mpr rfl]

theorem separator_map_iff (c : Char) :
    toAscii c = 'T' ∨ toAscii c = 't' ↔ c = 'T' ∨ c = 't' :=
  or_congr (toAscii_eq_iff (by decide)) (toAscii_eq_iff (by decide))

theorem formed_ascii_iff (parts : Parts) :
    parts.ascii.Formed asciiDigit? (OffsetBound asciiDigit?) ↔
      parts.Formed decimal? (OffsetBound decimal?) := by
  constructor
  · intro h
    exact ⟨(numeral_map_iff 4 _).mp h.year, (numeral_map_iff 2 _).mp h.month,
      (numeral_map_iff 2 _).mp h.day, (separator_map_iff _).mp h.separator,
      (numeral_map_iff 2 _).mp h.hour, (numeral_map_iff 2 _).mp h.minute,
      (numeral_map_iff 2 _).mp h.second, (fraction_map_iff _).mp h.fraction,
      (zone_map_iff _).mp h.zone⟩
  · intro h
    exact ⟨(numeral_map_iff 4 _).mpr h.year, (numeral_map_iff 2 _).mpr h.month,
      (numeral_map_iff 2 _).mpr h.day, (separator_map_iff _).mpr h.separator,
      (numeral_map_iff 2 _).mpr h.hour, (numeral_map_iff 2 _).mpr h.minute,
      (numeral_map_iff 2 _).mpr h.second, (fraction_map_iff _).mpr h.fraction,
      (zone_map_iff _).mpr h.zone⟩

theorem inRange_ascii_iff (parts : Parts) :
    parts.ascii.InRange asciiDigit? ↔ parts.InRange decimal? := by
  constructor
  · rintro ⟨hdate, hhour, hminute, hsecond⟩
    simp only [Parts.ascii, valueOf_map] at hdate hhour hminute hsecond
    exact ⟨hdate, hhour, hminute, hsecond⟩
  · rintro ⟨hdate, hhour, hminute, hsecond⟩
    simp only [← valueOf_map] at hdate hhour hminute hsecond
    exact ⟨hdate, hhour, hminute, hsecond⟩

theorem ascii_text (parts : Parts) : parts.ascii.text = parts.text.map toAscii := by
  have hhyphen : toAscii '-' = '-' := (toAscii_eq_iff (by decide)).mpr rfl
  have hcolon : toAscii ':' = ':' := (toAscii_eq_iff (by decide)).mpr rfl
  simp [Parts.ascii, Parts.text, hhyphen, hcolon]

/-- The pieces of a text with its digits in ASCII are those of the text. -/
theorem exists_ascii_of_text {letters : List Char} {parts : Parts}
    (htext : parts.text = letters.map toAscii) :
    ∃ source : Parts, source.text = letters ∧ source.ascii = parts := by
  have hhyphen : ∀ c, toAscii c = '-' → c = '-' :=
    fun c => (toAscii_eq_iff (by decide)).mp
  have hcolon : ∀ c, toAscii c = ':' → c = ':' :=
    fun c => (toAscii_eq_iff (by decide)).mp
  obtain ⟨year', month', day', separator', hour', minute', second', fraction', zone'⟩ := parts
  simp only [Parts.text, eq_comm (b := letters.map toAscii), List.map_eq_append_iff,
    List.map_eq_cons_iff] at htext
  obtain ⟨year, _, rfl, rfl, _, _, rfl, h₁, month, _, rfl, rfl, _, _, rfl, h₂, day, _, rfl,
    rfl, separator, _, rfl, rfl, hour, _, rfl, rfl, _, _, rfl, h₃, minute, _, rfl, rfl,
    _, _, rfl, h₄, second, _, rfl, rfl, fraction, zone, rfl, rfl, rfl⟩ := htext
  obtain rfl := hhyphen _ h₁
  obtain rfl := hhyphen _ h₂
  obtain rfl := hcolon _ h₃
  obtain rfl := hcolon _ h₄
  exact ⟨⟨year, month, day, separator, hour, minute, second, fraction, zone⟩, rfl, rfl⟩

/-- A text is a date-time in some digits exactly where it is one with its digits
in ASCII. -/
theorem isDateTimeBy_ascii_iff (letters : List Char) :
    IsDateTimeBy asciiDigit? (letters.map toAscii) ↔ IsDateTimeBy decimal? letters := by
  constructor
  · rintro ⟨parts, htext, hformed, hrange⟩
    obtain ⟨source, hsource, rfl⟩ := exists_ascii_of_text htext
    exact ⟨source, hsource, (formed_ascii_iff source).mp hformed,
      (inRange_ascii_iff source).mp hrange⟩
  · rintro ⟨parts, rfl, hformed, hrange⟩
    exact ⟨parts.ascii, ascii_text parts, (formed_ascii_iff parts).mpr hformed,
      (inRange_ascii_iff parts).mpr hrange⟩

/-- Every decimal digit is one of ASCII. -/
def Plain (letters : List Char) : Prop :=
  ∀ c ∈ letters, (decimal? c).isSome = true → c.isDigit = true

theorem plain_nil : Plain [] := fun _ hc => absurd hc List.not_mem_nil

theorem plain_append (left right : List Char) :
    Plain (left ++ right) ↔ Plain left ∧ Plain right := by
  simp [Plain, or_imp, forall_and]

theorem plain_cons (c : Char) (rest : List Char) :
    Plain (c :: rest) ↔ ((decimal? c).isSome = true → c.isDigit = true) ∧ Plain rest := by
  simp [Plain]

theorem plain_of_digits {letters : List Char}
    (hdigits : ∀ c ∈ letters, (asciiDigit? c).isSome = true) : Plain letters := by
  intro c hc _
  have hdigit := hdigits c hc
  rw [asciiDigit?] at hdigit
  by_contra hnone
  simp [hnone] at hdigit

/-- The digits of a date-time are in ASCII. -/
theorem plain_of_isDateTime {letters : List Char}
    (hdate : IsDateTimeBy asciiDigit? letters) : Plain letters := by
  obtain ⟨parts, rfl, hformed, -⟩ := hdate
  have hone : ∀ c : Char, decimal? c = none →
      ((decimal? c).isSome = true → c.isDigit = true) := by
    intro c hc hsome
    rw [hc] at hsome
    cases hsome
  have hseparator : (decimal? parts.separator).isSome = true →
      parts.separator.isDigit = true := by
    rcases hformed.separator with hsep | hsep <;> rw [hsep] <;> exact hone _ (by decide)
  have hfraction : Plain parts.fraction := by
    rcases hformed.fraction with hnone | ⟨digits, hdigits, -, hall⟩
    · rw [hnone]
      exact plain_nil
    · rw [hdigits, plain_cons]
      exact ⟨hone '.' (by decide), plain_of_digits hall⟩
  have hzone : Plain parts.zone := by
    rcases hformed.zone with hutc | hutc |
      ⟨sign, hour, minute, htext, hsign, hhour, hminute, -⟩
    · rw [hutc]
      exact (plain_cons 'Z' []).mpr ⟨hone 'Z' (by decide), plain_nil⟩
    · rw [hutc]
      exact (plain_cons 'z' []).mpr ⟨hone 'z' (by decide), plain_nil⟩
    · rw [htext, plain_cons, plain_append, plain_cons]
      refine ⟨?_, plain_of_digits hhour.2, hone ':' (by decide), plain_of_digits hminute.2⟩
      rcases hsign with rfl | rfl <;> exact hone _ (by decide)
  simp only [Parts.text, plain_append, plain_cons]
  exact ⟨plain_of_digits hformed.year.2, hone '-' (by decide),
    plain_of_digits hformed.month.2, hone '-' (by decide), plain_of_digits hformed.day.2,
    hseparator, plain_of_digits hformed.hour.2, hone ':' (by decide),
    plain_of_digits hformed.minute.2, hone ':' (by decide),
    plain_of_digits hformed.second.2, hfraction, hzone⟩

/-- ASCII digits stay as they are. -/
theorem map_toAscii_of_plain {letters : List Char} (hplain : Plain letters) :
    letters.map toAscii = letters := by
  refine (List.map_congr_left ?_).trans (List.map_id letters)
  intro c hc
  rw [toAscii, id]
  cases hdigit : decimal? c with
  | none => rfl
  | some d =>
      have hascii := hplain c hc (by simp [hdigit])
      rw [decimal?_of_isDigit hascii, Option.some.injEq] at hdigit
      obtain ⟨hsmall, hform⟩ := toDigits_of_isDigit hascii
      rw [Nat.toDigits_of_lt_base hsmall] at hform
      rw [← hdigit]
      exact List.singleton_inj.mp hform

end Ascii

/-- Both authorities accept the date-times in the digits of every script. -/
theorem authorities_accept_iff (value : String) :
    ((validateUtcTimestamp value).isSome = true ↔ IsDateTimeBy decimal? value.toList) ∧
      (checkDateTime (.str value) = true ↔ IsDateTimeBy decimal? value.toList) := by
  refine ⟨?_, isRfc3339Datetime_iff value⟩
  rw [← isRfc3339Datetime_iff, validateUtcTimestamp, validateRfc3339Datetime]
  cases isRfc3339Datetime (.str value) <;> simp

/-- The rule accepts the grammar exactly where every decimal digit is in ASCII, or
where ASCII digits in the place of the others make no date-time. -/
theorem is_rfc3339_datetime_iff (text : String) :
    (isRfc3339Datetime (.str text) = true ↔ IsDateTime text) ↔
      Plain text.toList ∨ ¬ IsDateTime (String.ofList (text.toList.map toAscii)) := by
  rw [isRfc3339Datetime_iff, IsDateTime, IsDateTime, String.toList_ofList,
    isDateTimeBy_ascii_iff]
  constructor
  · intro hsame
    by_cases haccepts : IsDateTimeBy decimal? text.toList
    · exact .inl (plain_of_isDateTime (hsame.mp haccepts))
    · exact .inr haccepts
  · rintro (hplain | hrejects)
    · have hascii := isDateTimeBy_ascii_iff text.toList
      rw [map_toAscii_of_plain hplain] at hascii
      exact hascii.symm
    · refine iff_of_false hrejects fun hdate => hrejects ?_
      have hascii := isDateTimeBy_ascii_iff text.toList
      rw [map_toAscii_of_plain (plain_of_isDateTime hdate)] at hascii
      exact hascii.mp hdate

namespace DateTimesWitness

/-- The first digit is an Arabic-Indic two. -/
def arabic : String := "٢026-08-06T00:00:00Z"

theorem arabic_accepted : isRfc3339Datetime (.str arabic) = true := by
  rw [isRfc3339Datetime_iff, ← isDateTimeBy_ascii_iff, arabic, String.toList_ofList]
  refine ⟨⟨['2', '0', '2', '6'], ['0', '8'], ['0', '6'], 'T', ['0', '0'], ['0', '0'],
    ['0', '0'], [], ['Z']⟩, by decide, ?_, ?_⟩
  · have hnumeral : ∀ letters : List Char, letters.all (fun c => (asciiDigit? c).isSome) →
        Numeral asciiDigit? letters.length letters := fun _ hall =>
      ⟨rfl, List.all_eq_true.mp hall⟩
    exact ⟨hnumeral _ (by decide), hnumeral _ (by decide), hnumeral _ (by decide), .inl rfl,
      hnumeral _ (by decide), hnumeral _ (by decide), hnumeral _ (by decide), .inl rfl,
      .inl rfl⟩
  · exact ⟨by decide, by decide, by decide, by decide⟩

theorem arabic_digit_accepted :
    ¬ (isRfc3339Datetime (.str arabic) = true ↔ IsDateTime arabic) := by
  intro hsame
  have hplain := plain_of_isDateTime (hsame.mp arabic_accepted)
  rw [arabic, String.toList_ofList] at hplain
  have hdigit := hplain '٢' List.mem_cons_self (by decide)
  revert hdigit
  decide

end DateTimesWitness

end DateTimes

end HermesPipeline
