/-
JSON texts: the compact serializer, a parser for its output, and the round
trip between them.  A fractional number is written as a reduced quotient, so
that every value has a text of its own.
-/
import HermesPipeline.Lib.Json
import Mathlib.Data.List.TakeDrop
import Mathlib.Data.Rat.Lemmas

namespace Lib

namespace Json

/-- The short escapes, and `\u00xx` for the other control characters. -/
def escapeChar (c : Char) : List Char :=
  if c = '"' then ['\\', '"']
  else if c = '\\' then ['\\', '\\']
  else if c = '\x08' then ['\\', 'b']
  else if c = '\t' then ['\\', 't']
  else if c = '\n' then ['\\', 'n']
  else if c = '\x0c' then ['\\', 'f']
  else if c = '\r' then ['\\', 'r']
  else if c.toNat < 32 then
    ['\\', 'u', '0', '0', Nat.digitChar (c.toNat / 16),
      Nat.digitChar (c.toNat % 16)]
  else [c]

def renderText (text : String) : List Char :=
  '"' :: (text.toList.flatMap escapeChar ++ ['"'])

def renderInt : Int → List Char
  | .ofNat n => Nat.toDigits 10 n
  | .negSucc n => '-' :: Nat.toDigits 10 (n + 1)

mutual

def render : Json → List Char
  | .null => ['n', 'u', 'l', 'l']
  | .bool true => ['t', 'r', 'u', 'e']
  | .bool false => ['f', 'a', 'l', 's', 'e']
  | .int n => renderInt n
  | .float q => renderInt q.num ++ '/' :: Nat.toDigits 10 q.den
  | .str text => renderText text
  | .arr [] => ['[', ']']
  | .arr (item :: rest) => '[' :: (item.render ++ renderItems rest)
  | .obj [] => ['\x7b', '\x7d']
  | .obj ((name, value) :: rest) =>
      '\x7b' :: (renderText name ++ ':' :: (value.render ++ renderMembers rest))

def renderItems : List Json → List Char
  | [] => [']']
  | item :: rest => ',' :: (item.render ++ renderItems rest)

def renderMembers : List (String × Json) → List Char
  | [] => ['\x7d']
  | (name, value) :: rest =>
      ',' :: (renderText name ++ ':' :: (value.render ++ renderMembers rest))

end

def hexValue (c : Char) : Nat :=
  if c.isDigit then c.toNat - '0'.toNat else c.toNat - 'a'.toNat + 10

def unescape (c : Char) : Char :=
  if c = 'b' then '\x08'
  else if c = 't' then '\t'
  else if c = 'n' then '\n'
  else if c = 'f' then '\x0c'
  else if c = 'r' then '\r'
  else c

/-- The characters up to the closing quote, and what follows it. -/
def parseText : List Char → Option (List Char × List Char)
  | [] => none
  | '"' :: rest => some ([], rest)
  | '\\' :: 'u' :: '0' :: '0' :: high :: low :: rest =>
      (parseText rest).map fun parsed =>
        (Char.ofNat (16 * hexValue high + hexValue low) :: parsed.1, parsed.2)
  | '\\' :: c :: rest =>
      (parseText rest).map fun parsed => (unescape c :: parsed.1, parsed.2)
  | c :: rest => (parseText rest).map fun parsed => (c :: parsed.1, parsed.2)

def parseNat (text : List Char) : Option (Nat × List Char) :=
  match text.span Char.isDigit with
  | ([], _) => none
  | (digits, rest) => some (Nat.ofDigitChars 10 digits 0, rest)

def parseInt : List Char → Option (Int × List Char)
  | '-' :: rest => (parseNat rest).map fun parsed => (-(parsed.1 : Int), parsed.2)
  | text => (parseNat text).map fun parsed => ((parsed.1 : Int), parsed.2)

/-- A whole number, or a quotient. -/
def parseNumber (text : List Char) : Option (Json × List Char) :=
  match parseInt text with
  | some (num, '/' :: rest) =>
      (parseNat rest).map fun parsed => (.float (mkRat num parsed.1), parsed.2)
  | some (num, rest) => some (.int num, rest)
  | none => none

mutual

def parseValue : Nat → List Char → Option (Json × List Char)
  | 0, _ => none
  | _ + 1, 'n' :: 'u' :: 'l' :: 'l' :: rest => some (.null, rest)
  | _ + 1, 't' :: 'r' :: 'u' :: 'e' :: rest => some (.bool true, rest)
  | _ + 1, 'f' :: 'a' :: 'l' :: 's' :: 'e' :: rest => some (.bool false, rest)
  | _ + 1, '"' :: rest =>
      (parseText rest).map fun parsed => (.str (String.ofList parsed.1), parsed.2)
  | _ + 1, '[' :: ']' :: rest => some (.arr [], rest)
  | fuel + 1, '[' :: rest =>
      (parseItems fuel rest).map fun parsed => (.arr parsed.1, parsed.2)
  | _ + 1, '\x7b' :: '\x7d' :: rest => some (.obj [], rest)
  | fuel + 1, '\x7b' :: rest =>
      (parseMembers fuel rest).map fun parsed => (.obj parsed.1, parsed.2)
  | _ + 1, rest => parseNumber rest

/-- Items up to the closing bracket; at least one. -/
def parseItems : Nat → List Char → Option (List Json × List Char)
  | 0, _ => none
  | fuel + 1, text =>
      match parseValue fuel text with
      | some (item, ']' :: rest) => some ([item], rest)
      | some (item, ',' :: rest) =>
          (parseItems fuel rest).map fun parsed => (item :: parsed.1, parsed.2)
      | _ => none

/-- Members up to the closing brace; at least one. -/
def parseMembers : Nat → List Char → Option (List (String × Json) × List Char)
  | 0, _ => none
  | fuel + 1, '"' :: text =>
      match parseText text with
      | some (name, ':' :: text') =>
          match parseValue fuel text' with
          | some (value, '\x7d' :: rest) =>
              some ([(String.ofList name, value)], rest)
          | some (value, ',' :: rest) =>
              (parseMembers fuel rest).map fun parsed =>
                ((String.ofList name, value) :: parsed.1, parsed.2)
          | _ => none
      | _ => none
  | _ + 1, _ => none

end

/-- Parse a whole text. -/
def parse (text : String) : Option Json :=
  match parseValue (text.length + 1) text.toList with
  | some (value, []) => some value
  | _ => none

def toText (value : Json) : String := String.ofList value.render

section RoundTrip

theorem parseText_escapeChar (c : Char) (rest : List Char) :
    parseText (escapeChar c ++ rest) =
      (parseText rest).map fun parsed => (c :: parsed.1, parsed.2) := by
  unfold escapeChar
  split
  next h => subst h; simp [parseText, unescape]
  split
  next h => subst h; simp [parseText, unescape]
  split
  next h => subst h; simp [parseText, unescape]
  split
  next h => subst h; simp [parseText, unescape]
  split
  next h => subst h; simp [parseText, unescape]
  split
  next h => subst h; simp [parseText, unescape]
  split
  next h => subst h; simp [parseText, unescape]
  split
  next hcontrol =>
    have hhex : ∀ n < 16, hexValue (Nat.digitChar n) = n := by decide
    have hback : 16 * (c.toNat / 16) + c.toNat % 16 = c.toNat := by omega
    simp only [List.cons_append, List.nil_append, parseText,
      hhex _ (by omega : c.toNat / 16 < 16), hhex _ (by omega : c.toNat % 16 < 16),
      hback, Char.ofNat_toNat]
  next hquote hslash _ _ _ _ _ _ =>
    simp only [List.cons_append, List.nil_append]
    rw [parseText.eq_def]
    split <;> simp_all

theorem parseText_flatMap (text rest : List Char) :
    parseText (text.flatMap escapeChar ++ '"' :: rest) = some (text, rest) := by
  induction text with
  | nil => simp [parseText]
  | cons c text ih =>
      rw [List.flatMap_cons, List.append_assoc, parseText_escapeChar, ih]
      rfl

/-- What follows a value does not continue a number. -/
def Stops (rest : List Char) : Prop :=
  ∀ c tail, rest = c :: tail → c.isDigit = false ∧ c ≠ '/'

theorem stops_cons {c : Char} {tail : List Char} (hdigit : c.isDigit = false)
    (hslash : c ≠ '/') : Stops (c :: tail) := by
  intro c' tail' heq
  cases heq
  exact ⟨hdigit, hslash⟩

theorem parseNat_toDigits (n : Nat) {rest : List Char}
    (hrest : ∀ c tail, rest = c :: tail → c.isDigit = false) :
    parseNat (Nat.toDigits 10 n ++ rest) = some (n, rest) := by
  have hdigits : ∀ c ∈ Nat.toDigits 10 n, c.isDigit = true := fun c hc =>
    Nat.isDigit_of_mem_toDigits (by decide) (by decide) hc
  have hspan : (Nat.toDigits 10 n ++ rest).span Char.isDigit =
      (Nat.toDigits 10 n, rest) := by
    rw [List.span_eq_takeWhile_dropWhile,
      List.takeWhile_append_of_pos hdigits, List.dropWhile_append_of_pos hdigits]
    cases rest with
    | nil => simp
    | cons c tail => simp [hrest c tail rfl]
  unfold parseNat
  rw [hspan]
  cases hcons : Nat.toDigits 10 n with
  | nil => exact absurd hcons Nat.toDigits_ne_nil
  | cons c tail => simp only [← hcons, Nat.ofDigitChars_ten_toDigits]

theorem parseInt_renderInt (n : Int) {rest : List Char}
    (hrest : ∀ c tail, rest = c :: tail → c.isDigit = false) :
    parseInt (renderInt n ++ rest) = some (n, rest) := by
  cases n with
  | ofNat n =>
      simp only [renderInt]
      have hnat := parseNat_toDigits n hrest
      cases hcons : Nat.toDigits 10 n with
      | nil => exact absurd hcons Nat.toDigits_ne_nil
      | cons c tail =>
          have hdigit : c.isDigit = true :=
            Nat.isDigit_of_mem_toDigits (b := 10) (n := n) (by decide) (by decide)
              (by simp [hcons])
          rw [hcons] at hnat
          have hminus : c ≠ '-' := by
            rintro rfl
            simp at hdigit
          rw [List.cons_append, parseInt.eq_def]
          split
          · simp_all
          · rw [← List.cons_append, hnat]
            rfl
  | negSucc n =>
      simp only [renderInt, List.cons_append, parseInt,
        parseNat_toDigits (n + 1) hrest]
      rfl

/-- A rendered number opens with a digit or a sign. -/
theorem renderInt_head (n : Int) :
    ∃ c tail, renderInt n = c :: tail ∧ (c.isDigit = true ∨ c = '-') := by
  cases n with
  | ofNat n =>
      cases hcons : Nat.toDigits 10 n with
      | nil => exact absurd hcons Nat.toDigits_ne_nil
      | cons c tail =>
          refine ⟨c, tail, hcons, Or.inl ?_⟩
          exact Nat.isDigit_of_mem_toDigits (b := 10) (n := n) (by decide)
            (by decide) (by simp [hcons])
  | negSucc n => exact ⟨'-', _, rfl, Or.inr rfl⟩

theorem parseNumber_int (n : Int) {rest : List Char} (hrest : Stops rest) :
    parseNumber (renderInt n ++ rest) = some (.int n, rest) := by
  unfold parseNumber
  rw [parseInt_renderInt n fun c tail heq => (hrest c tail heq).1]
  split
  · rename_i heq
    simp only [Option.some.injEq, Prod.mk.injEq] at heq
    exact absurd rfl (hrest _ _ heq.2).2
  · rename_i heq
    simp only [Option.some.injEq, Prod.mk.injEq] at heq
    rw [heq.1, heq.2]
  · rename_i heq
    simp at heq

theorem parseNumber_float (q : ℚ) {rest : List Char} (hrest : Stops rest) :
    parseNumber (renderInt q.num ++ ('/' :: Nat.toDigits 10 q.den ++ rest)) =
      some (.float q, rest) := by
  have hslash : ∀ c tail,
      ('/' :: Nat.toDigits 10 q.den ++ rest) = c :: tail → c.isDigit = false := by
    intro c tail heq
    cases heq
    rfl
  unfold parseNumber
  rw [parseInt_renderInt q.num hslash]
  simp only [List.cons_append,
    parseNat_toDigits q.den fun c tail heq => (hrest c tail heq).1,
    Option.map_some, Rat.mkRat_self]

/-- A text that opens like a number is parsed as one. -/
theorem parseValue_number (fuel : Nat) {c : Char} {tail : List Char}
    (hc : c.isDigit = true ∨ c = '-') :
    parseValue (fuel + 1) (c :: tail) = parseNumber (c :: tail) := by
  have hne : c ≠ 'n' ∧ c ≠ 't' ∧ c ≠ 'f' ∧ c ≠ '"' ∧ c ≠ '[' ∧ c ≠ '\x7b' := by
    rcases hc with hdigit | rfl
    · refine ⟨?_, ?_, ?_, ?_, ?_, ?_⟩ <;>
        (rintro rfl
         simp at hdigit)
    · decide
  obtain ⟨hn, ht, hf, hq, hb, ho⟩ := hne
  rw [parseValue.eq_def]
  split <;> simp_all

/-- A rendered value is not empty and does not open with a bracket that
closes. -/
theorem render_head (value : Json) :
    ∃ c tail, value.render = c :: tail ∧ c ≠ ']' := by
  have hnumber : ∀ (n : Int) (rest : List Char),
      ∃ c tail, renderInt n ++ rest = c :: tail ∧ c ≠ ']' := by
    intro n rest
    obtain ⟨c, tail, hhead, hc⟩ := renderInt_head n
    refine ⟨c, tail ++ rest, by simp [hhead], ?_⟩
    rcases hc with hdigit | rfl
    · rintro rfl
      simp at hdigit
    · decide
  cases value with
  | null => exact ⟨'n', _, rfl, by decide⟩
  | bool b =>
      cases b
      · exact ⟨'f', _, rfl, by decide⟩
      · exact ⟨'t', _, rfl, by decide⟩
  | int n => simpa [render] using hnumber n []
  | float q => exact hnumber q.num _
  | str text => exact ⟨'"', _, rfl, by decide⟩
  | arr items => cases items <;> exact ⟨'[', _, rfl, by decide⟩
  | obj members => cases members <;> exact ⟨'\x7b', _, rfl, by decide⟩

theorem parseValue_items (fuel : Nat) (item : Json) (text : List Char) :
    parseValue (fuel + 1) ('[' :: (item.render ++ text)) =
      (parseItems fuel (item.render ++ text)).map fun parsed =>
        (.arr parsed.1, parsed.2) := by
  obtain ⟨c, tail, hhead, hc⟩ := item.render_head
  rw [hhead, List.cons_append, parseValue.eq_def]
  split <;> simp_all

theorem parseValue_members (fuel : Nat) (text : List Char) :
    parseValue (fuel + 1) ('\x7b' :: '"' :: text) =
      (parseMembers fuel ('"' :: text)).map fun parsed =>
        (.obj parsed.1, parsed.2) := by
  rw [parseValue.eq_def]
  rfl

mutual

/-- The parser gives a rendered value back, with what follows it. -/
theorem parseValue_render : ∀ (value : Json) (fuel : Nat) (rest : List Char),
    value.render.length ≤ fuel → Stops rest →
      parseValue fuel (value.render ++ rest) = some (value, rest)
  | value, 0, rest, hfuel, _ => by
      obtain ⟨c, tail, hhead, -⟩ := value.render_head
      simp [hhead] at hfuel
  | .null, fuel + 1, rest, _, _ => by simp [render, parseValue]
  | .bool true, fuel + 1, rest, _, _ => by simp [render, parseValue]
  | .bool false, fuel + 1, rest, _, _ => by simp [render, parseValue]
  | .int n, fuel + 1, rest, _, hrest => by
      obtain ⟨c, tail, hhead, hc⟩ := renderInt_head n
      have hnumber := parseNumber_int n hrest
      simp only [render, hhead, List.cons_append] at hnumber ⊢
      rw [parseValue_number fuel hc, hnumber]
  | .float q, fuel + 1, rest, _, hrest => by
      obtain ⟨c, tail, hhead, hc⟩ := renderInt_head q.num
      have hnumber := parseNumber_float q hrest
      simp only [render, hhead, List.cons_append, List.append_assoc] at hnumber ⊢
      rw [parseValue_number fuel hc, hnumber]
  | .str text, fuel + 1, rest, _, _ => by
      simp only [render, renderText, List.cons_append, List.append_assoc,
        List.nil_append, parseValue, parseText_flatMap, Option.map_some,
        String.ofList_toList]
  | .arr [], fuel + 1, rest, _, _ => by simp [render, parseValue]
  | .arr (item :: items), fuel + 1, rest, hfuel, _ => by
      simp only [render, List.length_cons, List.cons_append,
        List.append_assoc] at hfuel ⊢
      rw [parseValue_items,
        parseItems_render item items fuel rest (by omega)]
      rfl
  | .obj [], fuel + 1, rest, _, _ => by simp [render, parseValue]
  | .obj ((name, value) :: members), fuel + 1, rest, hfuel, _ => by
      have hmembers := parseMembers_render name value members fuel rest (by
        simp only [render, List.length_cons, List.length_append] at hfuel ⊢
        omega)
      simp only [render, renderText, List.cons_append, List.append_assoc,
        List.nil_append] at hmembers ⊢
      rw [parseValue_members, hmembers]
      rfl

theorem parseItems_render : ∀ (item : Json) (items : List Json) (fuel : Nat)
    (rest : List Char), (item.render ++ renderItems items).length ≤ fuel →
      parseItems fuel (item.render ++ (renderItems items ++ rest)) =
        some (item :: items, rest)
  | item, items, 0, rest, hfuel => by
      obtain ⟨c, tail, hhead, -⟩ := item.render_head
      simp [hhead] at hfuel
  | item, [], fuel + 1, rest, hfuel => by
      simp only [renderItems, List.length_append, List.length_singleton] at hfuel
      simp only [renderItems, parseItems, List.cons_append, List.nil_append]
      rw [parseValue_render item fuel (']' :: rest) (by omega)
        (stops_cons rfl (by decide))]
      rfl
  | item, next :: items, fuel + 1, rest, hfuel => by
      obtain ⟨c, tail, hhead, -⟩ := item.render_head
      have hlength : item.render.length = tail.length + 1 := by simp [hhead]
      simp only [renderItems, List.length_append, List.length_cons] at hfuel
      simp only [renderItems, parseItems, List.cons_append, List.append_assoc]
      rw [parseValue_render item fuel _ (by omega) (stops_cons rfl (by decide))]
      simp only
      rw [parseItems_render next items fuel rest (by
        simp only [List.length_append]
        omega)]
      rfl

theorem parseMembers_render : ∀ (name : String) (value : Json)
    (members : List (String × Json)) (fuel : Nat) (rest : List Char),
    (renderText name ++ ':' :: (value.render ++ renderMembers members)).length ≤
      fuel →
    parseMembers fuel (renderText name ++ ':' ::
        (value.render ++ (renderMembers members ++ rest))) =
      some ((name, value) :: members, rest)
  | name, value, members, 0, rest, hfuel => by simp [renderText] at hfuel
  | name, value, [], fuel + 1, rest, hfuel => by
      simp only [renderText, renderMembers, List.length_append, List.length_cons,
        List.length_nil] at hfuel
      simp only [renderText, renderMembers, parseMembers, List.cons_append,
        List.append_assoc, List.nil_append, parseText_flatMap]
      rw [parseValue_render value fuel ('\x7d' :: rest) (by omega)
        (stops_cons rfl (by decide))]
      simp
  | name, value, (name', value') :: members, fuel + 1, rest, hfuel => by
      have hmembers := parseMembers_render name' value' members fuel rest (by
        simp only [renderText, renderMembers, List.length_append,
          List.length_cons] at hfuel ⊢
        omega)
      simp only [renderText, renderMembers, List.length_append, List.length_cons,
        List.length_nil] at hfuel
      simp only [renderText, renderMembers, parseMembers, List.cons_append,
        List.append_assoc, List.nil_append, parseText_flatMap] at hmembers ⊢
      rw [parseValue_render value fuel _ (by omega) (stops_cons rfl (by decide))]
      simp only [hmembers, Option.map_some, String.ofList_toList]

end

theorem parse_toText (value : Json) : parse value.toText = some value := by
  have hparsed := parseValue_render value (value.render.length + 1) []
    (Nat.le_succ _) (by simp [Stops])
  rw [List.append_nil] at hparsed
  simp only [parse, toText, String.length_ofList, String.toList_ofList, hparsed]

theorem toText_injective : Function.Injective toText := by
  intro left right htext
  have hparse := congrArg parse htext
  simpa [parse_toText] using hparse

end RoundTrip

end Json

end Lib
