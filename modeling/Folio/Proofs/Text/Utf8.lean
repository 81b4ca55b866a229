import Folio.Text.Utf8

/-!
# Bytes of a text are read back as the text

The bytes of a character stand at the front of what follows, and decoding there finds the character
again. Reading the bytes of a text therefore gives its characters and no gap.
-/

namespace Folio.Text

/-- The bytes of a character at the front are read as that character. -/
theorem charAtStart?_append (c : Char) (rest : List UInt8) :
    charAtStart? (String.utf8EncodeChar c ++ rest) = some c := by
  have hsize : (String.utf8EncodeChar c).length ≤ 4 := by
    rw [String.length_utf8EncodeChar]
    exact c.utf8Size_le_four
  rw [charAtStart?, List.take_append, List.take_of_length_le hsize, List.toByteArray_append]
  exact ByteArray.utf8DecodeChar?_utf8EncodeChar_append

/-- Reading takes the bytes of a character off the front. -/
theorem charsOfBytes_append (c : Char) (rest : List UInt8) :
    charsOfBytes (String.utf8EncodeChar c ++ rest) = some c :: charsOfBytes rest := by
  have hstart := charAtStart?_append c rest
  have hlength := String.length_utf8EncodeChar c
  cases hbytes : String.utf8EncodeChar c with
  | nil => exact absurd hbytes String.utf8EncodeChar_ne_nil
  | cons b others =>
    rw [hbytes, List.cons_append] at hstart
    rw [hbytes, List.length_cons] at hlength
    rw [List.cons_append, charsOfBytes, hstart]
    simp only [← hlength, Nat.add_sub_cancel, List.drop_left]

/-- Reading the bytes of a text gives the characters of the text. -/
theorem charsOfBytes_bytes (cs : List Char) : charsOfBytes (bytes cs) = cs.map some := by
  induction cs with
  | nil => simp [bytes, charsOfBytes]
  | cons c cs ih =>
    rw [bytes, List.flatMap_cons, charsOfBytes_append, ← bytes, ih, List.map_cons]

end Folio.Text
