/-!
# Positions in a text

A place in a text is a byte offset. The reader is told the line and the column, both counted from
one: lines by line feeds, columns by characters.
-/

namespace Folio.Text

/-- The number of bytes that the characters take in UTF-8. -/
def byteLength : List Char → Nat
  | [] => 0
  | c :: cs => c.utf8Size + byteLength cs

/-- The characters that lie before a byte offset. -/
def charsBefore : Nat → List Char → List Char
  | _, [] => []
  | offset, c :: cs =>
    if c.utf8Size ≤ offset then c :: charsBefore (offset - c.utf8Size) cs else []

/-- A place in a text. -/
structure Position where
  offset : Nat
  line : Nat
  column : Nat
  deriving DecidableEq

namespace Position

/-- The position at a byte offset, at the end of the text for an offset beyond it. -/
def locate (text : String) (offset : Nat) : Position :=
  let cs := text.toList
  let place := min offset (byteLength cs)
  let before := charsBefore place cs
  { offset := place
    line := before.count '\n' + 1
    column := (before.reverse.takeWhile (· != '\n')).length + 1 }

/-- The position as the reader is told it. -/
def text (p : Position) : String := s!"line {p.line}, column {p.column}"

end Position

end Folio.Text
