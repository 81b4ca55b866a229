/-!
# Bytes of a text

A text is stored as bytes in UTF-8. Reading bytes back gives a character where a well-formed
sequence starts and a gap for every byte that belongs to none, so reading the bytes of a text has no
gaps.
-/

namespace Folio.Text

/-- The bytes of a text. -/
def bytes (text : List Char) : List UInt8 := text.flatMap String.utf8EncodeChar

/-- The character whose bytes come first. A character has at most four. -/
def charAtStart? (bytes : List UInt8) : Option Char :=
  (bytes.take 4).toByteArray.utf8DecodeChar? 0

/-- The characters that the bytes hold, with a gap for each byte that is part of none. -/
def charsOfBytes (bytes : List UInt8) : List (Option Char) :=
  match bytes with
  | [] => []
  | b :: rest =>
    match charAtStart? (b :: rest) with
    | some c => some c :: charsOfBytes (rest.drop (c.utf8Size - 1))
    | none => none :: charsOfBytes rest
termination_by bytes.length
decreasing_by
  · simp only [List.length_drop, List.length_cons]; omega
  · simp

end Folio.Text
