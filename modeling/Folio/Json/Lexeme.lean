import Folio.Number.Decimal
import Folio.Text.Utf8

/-!
# Lexemes of JSON texts

A JSON text is a row of brackets, marks, words, numbers and quoted texts between blanks. Numbers and
quoted texts are kept as they are written, since what they stand for is decided where they are used.
A gap in the text, a byte that belongs to no character, may stand only inside a quoted text.
-/

namespace Folio.Json

/-- A number as it is written. -/
structure NumberText where
  negative : Bool
  /-- The digits before the point. -/
  whole : List Char
  /-- The digits after the point; without a point there are none. -/
  fraction : List Char
  exponent : Option Int
  deriving DecidableEq

/-- One part of a quoted text: a character, the code of an escape, or a gap. -/
inductive QuotedPart where
  | char (c : Char)
  | code (value : Nat)
  | gap
  deriving DecidableEq

/-- A lexeme of a JSON text. -/
inductive Lexeme where
  | openArray
  | closeArray
  | openObject
  | closeObject
  | comma
  | colon
  | null
  | bool (b : Bool)
  | number (n : NumberText)
  | string (parts : List QuotedPart)
  deriving DecidableEq

/-! ## Numbers -/

namespace NumberText

/-- The number that digits stand for. -/
def digitsValue (digits : List Char) : Nat :=
  digits.foldl (fun n c => 10 * n + (c.toNat - '0'.toNat)) 0

/-- Whether digits can stand before the point: at least one, and no leading zero among several. -/
def isWhole : List Char → Bool
  | [] => false
  | ['0'] => true
  | first :: _ => first != '0'

/-- The digits after a point at the front, and the rest; a point is followed by a digit. -/
def fractionOf? : List Char → Option (List Char × List Char)
  | '.' :: rest =>
    let digits := rest.takeWhile Char.isDigit
    if digits = [] then none else some (digits, rest.dropWhile Char.isDigit)
  | rest => some ([], rest)

/-- The exponent that digits after a sign stand for, and nothing else. -/
def unsignedExponent? (negative : Bool) (digits : List Char) : Option (Option Int) :=
  if digits ≠ [] && digits.all Char.isDigit then
    some (some (if negative then -(digitsValue digits : Int) else digitsValue digits))
  else none

/-- The exponent that the end of a number states, if it states one. -/
def exponentOf? : List Char → Option (Option Int)
  | [] => some none
  | mark :: rest =>
    if mark = 'e' || mark = 'E' then
      match rest with
      | '-' :: digits => unsignedExponent? true digits
      | '+' :: digits => unsignedExponent? false digits
      | digits => unsignedExponent? false digits
    else none

/-- The number without its sign. -/
def unsigned? (negative : Bool) (cs : List Char) : Option NumberText := do
  let whole := cs.takeWhile Char.isDigit
  if isWhole whole then
    let (fraction, rest) ← fractionOf? (cs.dropWhile Char.isDigit)
    let exponent ← exponentOf? rest
    return ⟨negative, whole, fraction, exponent⟩
  else none

/-- The number that the characters are. -/
def ofChars? : List Char → Option NumberText
  | '-' :: cs => unsigned? true cs
  | cs => unsigned? false cs

/-- Whether a character can occur in a number. -/
def isPart (c : Char) : Bool := c.isDigit || ['-', '+', '.', 'e', 'E'].contains c

end NumberText

/-! ## Quoted texts -/

/-- The value of a hexadecimal digit. -/
def hexValue? (c : Char) : Option Nat :=
  if c.isDigit then some (c.toNat - '0'.toNat)
  else if 'a' ≤ c ∧ c ≤ 'f' then some (c.toNat - 'a'.toNat + 10)
  else if 'A' ≤ c ∧ c ≤ 'F' then some (c.toNat - 'A'.toNat + 10)
  else none

/-- The code that four hexadecimal digits stand for. -/
def codeOf? (a b c d : Char) : Option Nat := do
  let high := (← hexValue? a) * 16 + (← hexValue? b)
  let low := (← hexValue? c) * 16 + (← hexValue? d)
  return high * 256 + low

/-- The character of a short escape. -/
def shortEscape? (mark : Char) : Option Char :=
  match mark with
  | '"' => some '"'
  | '\\' => some '\\'
  | '/' => some '/'
  | 'b' => some '\x08'
  | 'f' => some '\x0c'
  | 'n' => some '\n'
  | 'r' => some '\r'
  | 't' => some '\t'
  | _ => none

/-- The parts of a quoted text after its opening quote, and what follows its closing quote. Controls
are written by escapes. -/
def quotedParts? : List (Option Char) → Option (List QuotedPart × List (Option Char))
  | [] => none
  | none :: rest => (quotedParts? rest).map fun (parts, last) => (.gap :: parts, last)
  | some '"' :: rest => some ([], rest)
  | some '\\' :: some 'u' :: some a :: some b :: some c :: some d :: rest => do
    let code ← codeOf? a b c d
    let (parts, last) ← quotedParts? rest
    return (.code code :: parts, last)
  | some '\\' :: some mark :: rest => do
    let c ← shortEscape? mark
    let (parts, last) ← quotedParts? rest
    return (.char c :: parts, last)
  | some c :: rest =>
    if c = '\\' || c < ' ' then none
    else (quotedParts? rest).map fun (parts, last) => (.char c :: parts, last)

/-- The least code of the first half of a pair. -/
def firstHalf : Nat := 0xD800

/-- The least code of the second half of a pair. -/
def secondHalf : Nat := 0xDC00

/-- The number of codes of either half of a pair. -/
def halfCount : Nat := 0x400

/-- The text that the parts of a quoted text stand for. Characters beyond 16 bits are written by the
codes of two halves, and no half stands alone. -/
def textOfParts? : List QuotedPart → Option (List Char)
  | [] => some []
  | .gap :: _ => none
  | .char c :: rest => (textOfParts? rest).map (c :: ·)
  | .code first :: .code second :: rest =>
    if firstHalf ≤ first ∧ first < secondHalf then
      if secondHalf ≤ second ∧ second < secondHalf + halfCount then
        let code := 0x10000 + (first - firstHalf) * halfCount + (second - secondHalf)
        (textOfParts? rest).map (Char.ofNat code :: ·)
      else none
    else if secondHalf ≤ first ∧ first < secondHalf + halfCount then none
    else (textOfParts? (.code second :: rest)).map (Char.ofNat first :: ·)
  | .code code :: rest =>
    if firstHalf ≤ code ∧ code < secondHalf + halfCount then none
    else (textOfParts? rest).map (Char.ofNat code :: ·)

/-! ## The row of lexemes -/

/-- What follows a word at the front of a text. -/
def afterWord? : List Char → List (Option Char) → Option (List (Option Char))
  | [], rest => some rest
  | w :: ws, some c :: rest => if w = c then afterWord? ws rest else none
  | _ :: _, _ => none

/-- Whether a place in a text holds a blank. -/
def isBlank : Option Char → Bool
  | some c => [' ', '\t', '\n', '\r'].contains c
  | none => false

/-- Whether a place in a text holds a character that can occur in a number. -/
def isNumberPart : Option Char → Bool
  | some c => NumberText.isPart c
  | none => false

/-- The lexeme at the front of a text, given its first character, and what follows it. -/
def lexeme? (c : Char) (rest : List (Option Char)) : Option (Lexeme × List (Option Char)) :=
  match c with
  | '[' => some (.openArray, rest)
  | ']' => some (.closeArray, rest)
  | '\x7b' => some (.openObject, rest)
  | '\x7d' => some (.closeObject, rest)
  | ',' => some (.comma, rest)
  | ':' => some (.colon, rest)
  | 'n' => (afterWord? "ull".toList rest).map (.null, ·)
  | 't' => (afterWord? "rue".toList rest).map (.bool true, ·)
  | 'f' => (afterWord? "alse".toList rest).map (.bool false, ·)
  | '"' => (quotedParts? rest).map fun (parts, last) => (.string parts, last)
  | _ =>
    (NumberText.ofChars? (c :: (rest.takeWhile isNumberPart).reduceOption)).map fun n =>
      (.number n, rest.dropWhile isNumberPart)

/-- What follows a word is no longer than the text. -/
theorem length_le_of_afterWord? {word : List Char} {cs left : List (Option Char)}
    (h : afterWord? word cs = some left) : left.length ≤ cs.length := by
  fun_induction afterWord? word cs with
  | case1 => simp_all
  | case2 => simp_all; omega
  | case3 => simp at h
  | case4 => simp at h

/-- A quoted text leaves less text than follows its opening quote. -/
theorem length_lt_of_quotedParts? {cs left : List (Option Char)} {parts : List QuotedPart}
    (h : quotedParts? cs = some (parts, left)) : left.length < cs.length := by
  fun_induction quotedParts? cs generalizing parts left with
  | case1 => simp at h
  | case2 rest ih =>
    obtain ⟨found, hfound, heq⟩ := Option.map_eq_some_iff.mp h
    have := ih hfound
    grind
  | case3 rest => grind
  | case4 a b c d rest ih =>
    cases hcode : codeOf? a b c d with
    | none => simp [hcode] at h
    | some code =>
      cases hbody : quotedParts? rest with
      | none => simp [hcode, hbody] at h
      | some found =>
        have := ih hbody
        simp [hcode, hbody] at h
        grind
  | case5 mark rest hmark ih =>
    cases hshort : shortEscape? mark with
    | none => simp [hshort] at h
    | some c =>
      cases hbody : quotedParts? rest with
      | none => simp [hshort, hbody] at h
      | some found =>
        have := ih hbody
        simp [hshort, hbody] at h
        grind
  | case6 => simp at h
  | case7 c rest _ _ _ _ ih =>
    obtain ⟨found, hfound, heq⟩ := Option.map_eq_some_iff.mp h
    have := ih hfound
    grind

/-- A lexeme takes at least its first character. -/
theorem length_le_of_lexeme? {c : Char} {rest left : List (Option Char)} {found : Lexeme}
    (h : lexeme? c rest = some (found, left)) : left.length ≤ rest.length := by
  unfold lexeme? at h
  have hword : ∀ {word : List Char} {l : Lexeme},
      (afterWord? word rest).map (l, ·) = some (found, left) → left.length ≤ rest.length := by
    intro word l hmap
    obtain ⟨last, hlast, heq⟩ := Option.map_eq_some_iff.mp hmap
    have := length_le_of_afterWord? hlast
    grind
  split at h
  case h_7 | h_8 | h_9 => exact hword h
  case h_10 =>
    obtain ⟨body, hbody, heq⟩ := Option.map_eq_some_iff.mp h
    have := length_lt_of_quotedParts? hbody
    grind
  case h_11 =>
    obtain ⟨n, hn, heq⟩ := Option.map_eq_some_iff.mp h
    have := (List.dropWhile_sublist isNumberPart (l := rest)).length_le
    grind
  all_goals
    simp only [Option.some.injEq, Prod.mk.injEq] at h
    simp [h.2]

/-- The lexemes of a text. -/
def lexemes? (cs : List (Option Char)) : Option (List Lexeme) :=
  match _ : cs.dropWhile isBlank with
  | [] => some []
  | none :: _ => none
  | some c :: rest =>
    match _ : lexeme? c rest with
    | none => none
    | some (found, left) => (lexemes? left).map (found :: ·)
termination_by cs.length
decreasing_by
  have hblank := (List.dropWhile_sublist isBlank (l := cs)).length_le
  have hlexeme := length_le_of_lexeme? ‹_›
  grind

end Folio.Json
