/-
Texts as the bytes they are stored as.  An ASCII text is read byte by byte, and a
text is built from its bytes, so that a run over texts can be evaluated without
decoding them.
-/
import HermesPipeline.Lib.JsonText

namespace Lib

namespace AsciiText

/-- The character of a byte below 128. -/
def charOf (b : UInt8) (hascii : b.toNat < 128) : Char :=
  ⟨b.toUInt32, Or.inl (by rw [UInt8.toNat_toUInt32]; omega)⟩

theorem utf8EncodeChar_charOf (b : UInt8) (hascii : b.toNat < 128) :
    String.utf8EncodeChar (charOf b hascii) = [b] := by
  have hval : (charOf b hascii).val.toNat = b.toNat := UInt8.toNat_toUInt32 b
  rw [String.utf8EncodeChar, hval]
  simp only [if_pos (show b.toNat ≤ 0x7f by omega), UInt8.ofNat_toNat]

/-- The characters of ASCII bytes. -/
def decode : List UInt8 → Option (List Char)
  | [] => some []
  | b :: rest =>
      if hascii : b.toNat < 128 then (decode rest).map (charOf b hascii :: ·) else none

theorem flatMap_of_decode {bytes : List UInt8} {letters : List Char}
    (hdecode : decode bytes = some letters) :
    letters.flatMap String.utf8EncodeChar = bytes := by
  induction bytes generalizing letters with
  | nil =>
      cases hdecode
      rfl
  | cons b rest ih =>
      rw [decode] at hdecode
      split at hdecode
      · next hascii =>
          obtain ⟨tail, htail, rfl⟩ := Option.map_eq_some_iff.mp hdecode
          rw [List.flatMap_cons, utf8EncodeChar_charOf, ih htail, List.singleton_append]
      · cases hdecode

/-- The characters of a text, read from its bytes where it is ASCII. -/
def letters (text : String) : List Char :=
  (decode text.toByteArray.data.toList).getD text.toList

theorem letters_eq (text : String) : letters text = text.toList := by
  rw [letters]
  cases hdecode : decode text.toByteArray.data.toList with
  | none => rfl
  | some letters =>
      have hbytes : (String.ofList letters).toByteArray = text.toByteArray := by
        rw [String.toByteArray_ofList, List.utf8Encode, flatMap_of_decode hdecode]
        exact ByteArray.ext List.data_toByteArray
      rw [Option.getD_some, ← String.toByteArray_inj.mp hbytes, String.toList_ofList]

theorem bytes_utf8Encode (letters : List Char) :
    (⟨⟨letters.flatMap String.utf8EncodeChar⟩⟩ : ByteArray) = letters.utf8Encode :=
  (ByteArray.ext List.data_toByteArray).symm

/-- The text of the characters, as the list of its bytes. -/
def ofLetters (letters : List Char) : String :=
  ⟨⟨⟨letters.flatMap String.utf8EncodeChar⟩⟩, ⟨letters, bytes_utf8Encode letters⟩⟩

theorem ofLetters_eq (letters : List Char) : ofLetters letters = String.ofList letters :=
  String.toByteArray_inj.mp ((bytes_utf8Encode letters).trans
    String.toByteArray_ofList.symm)

/-- `Json.parse`, by the bytes. -/
def parse (text : String) : Option Json :=
  (Json.parseValue ((letters text).length + 1) (letters text)).bind fun parsed =>
    if parsed.2.isEmpty then some parsed.1 else none

theorem parse_eq : parse = Json.parse := by
  funext text
  rw [parse, letters_eq, String.length_toList, Json.parse]
  rcases Json.parseValue (text.length + 1) text.toList with _ | ⟨value, rest⟩
  · simp
  · cases rest <;> simp

/-- `Json.toText`, by the bytes. -/
def toText (value : Json) : String := ofLetters value.render

theorem toText_eq : toText = Json.toText := by
  funext value
  rw [toText, ofLetters_eq, Json.toText]

end AsciiText

end Lib
