/-!
# Texts as bytes

Text files hold their text in UTF-8; `Text.decode?_encode` says that what is written reads back.
-/

namespace Orthomosaic.Text

/-- The bytes of a text. -/
def encode (text : String) : List UInt8 :=
  text.toUTF8.data.toList

/-- The text that bytes hold, if they hold one. -/
def decode? (bytes : List UInt8) : Option String :=
  String.fromUTF8? ⟨bytes.toArray⟩

/-- The bytes of a text hold that text. -/
theorem decode?_encode (text : String) : decode? (encode text) = some text := by
  have h : (⟨(encode text).toArray⟩ : ByteArray) = text.toUTF8 := by
    simp only [encode, Array.toArray_toList]
  rw [decode?, h, String.fromUTF8?, String.toUTF8_eq_toByteArray, dif_pos text.isValidUTF8]
  rfl

end Orthomosaic.Text
