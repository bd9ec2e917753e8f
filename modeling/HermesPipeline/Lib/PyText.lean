/-
Python's texts, which may hold lone surrogates, and the bytes of UTF-8 that their
other characters take.
-/
import Mathlib.Algebra.GroupWithZero.Nat
import Mathlib.Data.List.Basic

namespace Lib

/-- A character of a text: a scalar value, or a surrogate that stands alone. -/
inductive PyChar
  | scalar (c : Char)
  | surrogate (s : Fin 0x800)
deriving Repr, DecidableEq

abbrev PyText := List PyChar

instance : LawfulBEq PyText := inferInstance

/-- `ord`. -/
def PyChar.ord : PyChar → Nat
  | .scalar c => c.toNat
  | .surrogate s => 0xd800 + s.val

/-- No scalar value has the number of a surrogate. -/
theorem PyChar.ord_injective : Function.Injective PyChar.ord := by
  intro left right heq
  cases left with
  | scalar c =>
      cases right with
      | scalar d => rw [Char.toNat_inj.mp heq]
      | surrogate s =>
          have hvalid : c.toNat < 0xd800 ∨ 0xdfff < c.toNat ∧ c.toNat < 0x110000 := c.valid
          have hsmall := s.isLt
          simp only [ord] at heq
          omega
  | surrogate s =>
      cases right with
      | scalar d =>
          have hvalid : d.toNat < 0xd800 ∨ 0xdfff < d.toNat ∧ d.toNat < 0x110000 := d.valid
          have hsmall := s.isLt
          simp only [ord] at heq
          omega
      | surrogate t => rw [Fin.ext (Nat.add_left_cancel heq)]

namespace PyText

def ofLetters (letters : List Char) : PyText := letters.map .scalar

/-- The text without surrogates, which can be encoded. -/
def letters? : PyText → Option (List Char)
  | [] => some []
  | .scalar c :: rest => (letters? rest).map (c :: ·)
  | .surrogate _ :: _ => none

@[simp] theorem letters?_ofLetters (letters : List Char) :
    letters? (ofLetters letters) = some letters := by
  induction letters with
  | nil => rfl
  | cons c rest ih => simpa [ofLetters, letters?] using ih

theorem eq_ofLetters {text : PyText} {letters : List Char} (hletters : letters? text = some letters) :
    text = ofLetters letters := by
  induction text generalizing letters with
  | nil =>
      cases hletters
      rfl
  | cons c rest ih =>
      cases c with
      | surrogate s => cases hletters
      | scalar c =>
          obtain ⟨more, hmore, rfl⟩ := Option.map_eq_some_iff.mp hletters
          rw [ih hmore]
          rfl

/-- No surrogate stands alone. -/
def Encodable (text : PyText) : Prop := ∀ s, .surrogate s ∉ text

/-- The scalar values of a text. -/
def scalars (text : PyText) : List Char :=
  text.filterMap fun
    | .scalar c => some c
    | .surrogate _ => none

/-- A text can be encoded unless it has a surrogate. -/
theorem letters?_eq_some_iff (text : PyText) (letters : List Char) :
    letters? text = some letters ↔ text.Encodable ∧ letters = text.scalars := by
  induction text generalizing letters with
  | nil =>
      rw [letters?, Option.some.injEq]
      exact ⟨fun h => ⟨fun s => List.not_mem_nil, h.symm⟩, fun h => h.2.symm⟩
  | cons c rest ih =>
      cases c with
      | surrogate s =>
          refine iff_of_false (by simp [letters?]) fun h => ?_
          exact h.1 s List.mem_cons_self
      | scalar c =>
          have hencodable : Encodable (.scalar c :: rest) ↔ Encodable rest := by
            simp [Encodable]
          rw [letters?, Option.map_eq_some_iff, hencodable]
          constructor
          · rintro ⟨front, hfront, rfl⟩
            obtain ⟨hrest, rfl⟩ := (ih front).mp hfront
            exact ⟨hrest, rfl⟩
          · rintro ⟨hrest, rfl⟩
            exact ⟨scalars rest, (ih _).mpr ⟨hrest, rfl⟩, rfl⟩

end PyText

/-- `f"{n:0wx}"`: hexadecimal digits, with zeros in front up to a width. -/
def hexPad (width n : Nat) : List Char :=
  let digits := Nat.toDigits 16 n
  List.replicate (width - digits.length) '0' ++ digits

def lowerHex : List Char :=
  ['0', '1', '2', '3', '4', '5', '6', '7', '8', '9', 'a', 'b', 'c', 'd', 'e', 'f']

theorem digitChar_mem {d : Nat} (hd : d < 16) : d.digitChar ∈ lowerHex := by
  have hall : ∀ d < 16, d.digitChar ∈ lowerHex := by decide
  exact hall d hd

theorem mem_hexPad {width n : Nat} {c : Char} (hc : c ∈ hexPad width n) : c ∈ lowerHex := by
  have hdigits : ∀ n, ∀ c ∈ Nat.toDigits 16 n, c ∈ lowerHex := by
    intro n
    induction n using Nat.strongRecOn with
    | ind n ih =>
        intro c hc
        rw [Nat.toDigits_eq_if (by decide)] at hc
        split at hc
        · next hsmall =>
            rw [List.mem_singleton.mp hc]
            exact digitChar_mem hsmall
        · next hlarge =>
            rcases List.mem_append.mp hc with hc | hc
            · exact ih (n / 16) (Nat.div_lt_self (by omega) (by decide)) c hc
            · rw [List.mem_singleton.mp hc]
              exact digitChar_mem (Nat.mod_lt n (by decide))
  rcases List.mem_append.mp hc with hc | hc
  · rw [List.eq_of_mem_replicate hc]
    decide
  · exact hdigits n c hc

namespace Utf8

/-- The length in bytes. -/
def byteLength (text : List Char) : Nat := (text.map Char.utf8Size).sum

/-- The whole characters of a text that fit into so many bytes: what
`decode(errors="ignore")` makes of a cut. -/
def takeBytes : Nat → List Char → List Char
  | _, [] => []
  | limit, c :: rest =>
      if c.utf8Size ≤ limit then c :: takeBytes (limit - c.utf8Size) rest else []

@[simp] theorem byteLength_nil : byteLength [] = 0 := rfl

@[simp] theorem byteLength_cons (c : Char) (rest : List Char) :
    byteLength (c :: rest) = c.utf8Size + byteLength rest := by
  rw [byteLength, List.map_cons, List.sum_cons]
  rfl

@[simp] theorem byteLength_append (left right : List Char) :
    byteLength (left ++ right) = byteLength left + byteLength right := by
  rw [byteLength, List.map_append, List.sum_append]
  rfl

theorem byteLength_takeBytes_le (limit : Nat) (text : List Char) :
    byteLength (takeBytes limit text) ≤ limit := by
  induction text generalizing limit with
  | nil => exact Nat.zero_le limit
  | cons c rest ih =>
      rw [takeBytes]
      split
      · next hfits =>
          have hrest := ih (limit - c.utf8Size)
          rw [byteLength_cons]
          omega
      · exact Nat.zero_le limit

theorem takeBytes_front (limit : Nat) (text : List Char) : takeBytes limit text <+: text := by
  induction text generalizing limit with
  | nil => exact List.prefix_refl []
  | cons c rest ih =>
      rw [takeBytes]
      split
      · exact List.cons_prefix_cons.mpr ⟨rfl, ih (limit - c.utf8Size)⟩
      · exact List.nil_prefix

/-- A front that fits is taken. -/
theorem takeBytes_starts {front text : List Char} {limit : Nat} (hfront : front <+: text)
    (hfits : byteLength front ≤ limit) : front <+: takeBytes limit text := by
  induction text generalizing front limit with
  | nil => exact hfront
  | cons c rest ih =>
      cases front with
      | nil => exact List.nil_prefix
      | cons first front =>
          obtain ⟨rfl, hrest⟩ := List.cons_prefix_cons.mp hfront
          rw [byteLength_cons] at hfits
          rw [takeBytes, if_pos (Nat.le_of_add_right_le hfits)]
          exact List.cons_prefix_cons.mpr ⟨rfl, ih hrest (Nat.le_sub_of_add_le' hfits)⟩

theorem byteLength_le (text : List Char) : byteLength text ≤ 4 * text.length := by
  induction text with
  | nil => exact Nat.le_refl 0
  | cons c rest ih =>
      have hsize := c.utf8Size_le_four
      rw [byteLength_cons, List.length_cons]
      omega

end Utf8

end Lib
