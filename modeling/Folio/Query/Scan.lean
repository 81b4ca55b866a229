import Folio.Query.Token
import Folio.Text.Blank
import Folio.Text.Letter
import Folio.Text.Position

/-!
# From text to tokens

A text is a row of lexemes between trivia, which are blanks and comments from `--` to the end of a
line. `lexeme` reads one lexeme from the front of a text and returns the rest, and
`length_le_of_lexeme` says that the rest is shorter, so reading token after token ends.
-/

namespace Folio.Query

/-- A fault and the rest of the text from where it lies. -/
structure ScanFault where
  rest : List Char
  fault : TextFault

/-- Dropping characters leaves no more of them. -/
theorem length_dropWhile_le {α : Type} (p : α → Bool) (cs : List α) :
    (cs.dropWhile p).length ≤ cs.length :=
  (List.dropWhile_sublist p).length_le

/-! ## Numbers -/

/-- Whether a character is an ASCII hexadecimal digit. -/
def isHexDigit (c : Char) : Bool :=
  c.isDigit || ('a' ≤ c && c ≤ 'f') || ('A' ≤ c && c ≤ 'F')

/-- The value of a hexadecimal digit. -/
def hexDigitValue (c : Char) : Nat :=
  if c.isDigit then c.toNat - '0'.toNat
  else if 'a' ≤ c then c.toNat - 'a'.toNat + 10
  else c.toNat - 'A'.toNat + 10

/-- The number that digits in a base stand for. -/
def digitsValue (base : Nat) (digits : List Char) : Nat :=
  digits.foldl (fun n c => base * n + hexDigitValue c) 0

/-- The hexadecimal literal whose digits follow; it has at least one digit and fits 64 bits. -/
def hexadecimal? (cs : List Char) : Option (Number × List Char) :=
  let digits := cs.takeWhile isHexDigit
  let value := digitsValue 16 digits
  if digits != [] && value < UInt64.size then some (Number.ofNat value, cs.dropWhile isHexDigit)
  else none

/-- The fraction digits at the front of a text: those after a point, none without one. -/
def fractionDigits : List Char → List Char × List Char
  | '.' :: rest => (rest.takeWhile Char.isDigit, rest.dropWhile Char.isDigit)
  | cs => ([], cs)

/-- The digits of an exponent and what follows them, if there is at least one. -/
def exponentDigits? (cs : List Char) : Option (Nat × List Char) :=
  let digits := cs.takeWhile Char.isDigit
  if digits = [] then none else some (digitsValue 10 digits, cs.dropWhile Char.isDigit)

/-- The exponent after its letter, with an optional sign. -/
def signedExponent? : List Char → Option (Int × List Char)
  | '+' :: rest => (exponentDigits? rest).map fun (n, left) => ((n : Int), left)
  | '-' :: rest => (exponentDigits? rest).map fun (n, left) => (-(n : Int), left)
  | cs => (exponentDigits? cs).map fun (n, left) => ((n : Int), left)

/-- The exponent at the front of a text. A letter without digits after it is no exponent. -/
def exponent (cs : List Char) : Int × List Char :=
  match cs with
  | 'e' :: rest => (signedExponent? rest).getD (0, cs)
  | 'E' :: rest => (signedExponent? rest).getD (0, cs)
  | _ => (0, cs)

/-- The decimal literal at the front of a text. -/
def decimal (cs : List Char) : Number × List Char :=
  let whole := cs.takeWhile Char.isDigit
  let (fraction, afterFraction) := fractionDigits (cs.dropWhile Char.isDigit)
  let (power, rest) := exponent afterFraction
  (Number.ofDecimal false ⟨digitsValue 10 (whole ++ fraction), power - fraction.length⟩, rest)

/-! ## Strings -/

/-- The four hexadecimal digits at the front of a text. -/
def hexQuad? : List Char → Option (Nat × List Char)
  | a :: b :: c :: d :: rest =>
    if [a, b, c, d].all isHexDigit then some (digitsValue 16 [a, b, c, d], rest) else none
  | _ => none

/-- The character of a code point, the replacement character if there is none. -/
def charOfCode (code : Nat) : Char :=
  if h : code.isValidChar then Char.ofNatAux code h else '\uFFFD'

/-- What follows `\u`: four digits, and four more after another `\u` if the first name a high
surrogate. The two together name one character by the low ten bits of the second. -/
def unicodeEscape? (cs : List Char) : Option (Char × List Char) :=
  match hexQuad? cs with
  | none => none
  | some (first, rest) =>
    match rest with
    | '\\' :: 'u' :: more =>
      if 0xD800 ≤ first ∧ first < 0xDC00 then
        (hexQuad? more).map fun (second, left) =>
          (charOfCode (0x10000 + (first - 0xD800) * 0x400 + second % 0x400), left)
      else some (charOfCode first, rest)
    | _ => some (charOfCode first, rest)

/-- The character that a letter after a backslash names; any other character names itself. -/
def letterEscape (c : Char) : Char :=
  if c = 'b' then '\x08'
  else if c = 'f' then '\x0c'
  else if c = 'n' then '\n'
  else if c = 'r' then '\r'
  else if c = 't' then '\t'
  else c

/-- The character of an escape, given what follows the backslash, and the rest of the text. -/
def escape? (c : Char) (cs : List Char) : Option (Char × List Char) :=
  if c = 'u' then unicodeEscape? cs else some (letterEscape c, cs)

/-- Four hexadecimal digits leave less text. -/
theorem length_le_of_hexQuad {cs rest : List Char} {n : Nat} (h : hexQuad? cs = some (n, rest)) :
    rest.length ≤ cs.length := by
  unfold hexQuad? at h
  split at h
  · split at h
    · simp only [Option.some.injEq, Prod.mk.injEq] at h
      simp only [← h.2, List.length_cons]
      omega
    · simp at h
  · simp at h

/-- An escape leaves no more text than follows its letter. -/
theorem length_le_of_escape {c x : Char} {cs rest : List Char} (h : escape? c cs = some (x, rest)) :
    rest.length ≤ cs.length := by
  unfold escape? at h
  split at h
  · unfold unicodeEscape? at h
    split at h
    · simp at h
    · rename_i first left hfirst
      have hleft := length_le_of_hexQuad hfirst
      split at h
      · split at h
        · rename_i more _
          obtain ⟨⟨second, last⟩, hsecond, hpair⟩ := Option.map_eq_some_iff.1 h
          have := length_le_of_hexQuad hsecond
          simp only [Prod.mk.injEq] at hpair
          simp only [List.length_cons, ← hpair.2] at hleft ⊢
          omega
        · simp only [Option.some.injEq, Prod.mk.injEq] at h
          rw [← h.2]
          exact hleft
      · simp only [Option.some.injEq, Prod.mk.injEq] at h
        rw [← h.2]
        exact hleft
  · simp only [Option.some.injEq, Prod.mk.injEq] at h
    simp [h.2]

/-- The characters of a string literal up to its closing quote, and the text after the quote. An
unterminated string is a fault at its start, a wrong escape one at its backslash. -/
def stringBody (quote : Char) (start : List Char) (cs : List Char) :
    Except ScanFault (List Char × List Char) :=
  match cs with
  | [] => .error ⟨start, .unterminatedString⟩
  | c :: rest =>
    if c = quote then .ok ([], rest)
    else if c = '\\' then
      match rest with
      | [] => .error ⟨start, .unterminatedString⟩
      | letter :: after =>
        match _ : escape? letter after with
        | none => .error ⟨cs, .invalidUnicodeEscape⟩
        | some (x, left) =>
          (stringBody quote start left).map fun (body, last) => (x :: body, last)
    else (stringBody quote start rest).map fun (body, last) => (c :: body, last)
termination_by cs.length
decreasing_by
  · have := length_le_of_escape ‹_›
    grind
  · simp

/-! ## Lexemes -/

/-- Whether a digit stands at the front of a text. -/
def startsWithDigit : List Char → Bool
  | c :: _ => c.isDigit
  | [] => false

/-- The number literal at the front of a text. -/
def numberLexeme (cs : List Char) : Except ScanFault (Lexeme × List Char) :=
  match cs with
  | '0' :: x :: rest =>
    if x = 'x' ∨ x = 'X' then
      match hexadecimal? rest with
      | some (n, left) => .ok (.number n, left)
      | none => .error ⟨cs, .invalidHexadecimal⟩
    else .ok (.number (decimal cs).1, (decimal cs).2)
  | _ => .ok (.number (decimal cs).1, (decimal cs).2)

/-- The lexeme that starts with a character, read from the front of a text without trivia. -/
def lexeme (c : Char) (rest : List Char) : Except ScanFault (Lexeme × List Char) :=
  if c.isDigit || (c == '.' && startsWithDigit rest) then numberLexeme (c :: rest)
  else if c = '\'' ∨ c = '"' then
    (stringBody c (c :: rest) rest).map fun (body, left) => (.string (String.ofList body), left)
  else if c = '@' then
    let name := rest.takeWhile Text.continuesWord
    if name = [] then .error ⟨c :: rest, .missingParameterName⟩
    else .ok (.parameter (String.ofList ('@' :: name)), rest.dropWhile Text.continuesWord)
  else if Text.startsWord c then
    .ok (.word (String.ofList (c :: rest.takeWhile Text.continuesWord)),
      rest.dropWhile Text.continuesWord)
  else
    match Symbol.ofStart? (c :: rest) with
    | some s => .ok (.symbol s, rest.drop (s.text.length - 1))
    | none => .error ⟨c :: rest, .unexpectedCharacter c⟩

/-! ## Progress -/

/-- An exponent leaves no more text than its letter and what follows. -/
theorem length_exponent_le (cs : List Char) : (exponent cs).2.length ≤ cs.length := by
  have hdigits : ∀ (ds rest : List Char) (n : Nat),
      exponentDigits? ds = some (n, rest) → rest.length ≤ ds.length := by
    intro ds rest n h
    unfold exponentDigits? at h
    have := length_dropWhile_le Char.isDigit ds
    grind
  have hsigned : ∀ (ds rest : List Char) (i : Int),
      signedExponent? ds = some (i, rest) → rest.length ≤ ds.length := by
    intro ds rest i h
    unfold signedExponent? at h
    split at h <;>
      obtain ⟨⟨n, left⟩, hleft, hpair⟩ := Option.map_eq_some_iff.1 h <;>
      have := hdigits _ _ _ hleft <;>
      simp only [Prod.mk.injEq] at hpair <;>
      simp only [← hpair.2, List.length_cons] at * <;>
      omega
  unfold exponent
  split
  · rename_i rest
    cases h : signedExponent? rest with
    | none => simp
    | some found =>
      have := hsigned _ _ _ h
      simp only [Option.getD_some, List.length_cons]
      omega
  · rename_i rest
    cases h : signedExponent? rest with
    | none => simp
    | some found =>
      have := hsigned _ _ _ h
      simp only [Option.getD_some, List.length_cons]
      omega
  · simp

/-- A decimal literal leaves no more text than follows its whole digits and its fraction. -/
theorem length_decimal_le (cs : List Char) :
    (decimal cs).2.length ≤ (fractionDigits (cs.dropWhile Char.isDigit)).2.length :=
  length_exponent_le _

/-- Fraction digits leave no more text. -/
theorem length_fractionDigits_le (cs : List Char) : (fractionDigits cs).2.length ≤ cs.length := by
  unfold fractionDigits
  split
  · rename_i rest
    have := length_dropWhile_le Char.isDigit rest
    simp only [List.length_cons]
    omega
  · simp

/-- A decimal literal takes at least its first character. -/
theorem length_decimal_lt {c : Char} {rest : List Char}
    (h : (c.isDigit || (c == '.' && startsWithDigit rest)) = true) :
    (decimal (c :: rest)).2.length ≤ rest.length := by
  refine Nat.le_trans (length_decimal_le _) ?_
  by_cases hdigit : c.isDigit
  · rw [List.dropWhile_cons_of_pos hdigit]
    exact Nat.le_trans (length_fractionDigits_le _) (length_dropWhile_le _ _)
  · rw [List.dropWhile_cons_of_neg hdigit]
    have hdot : c = '.' := by simp_all
    subst hdot
    exact length_dropWhile_le _ _

/-- A number literal takes at least its first character. -/
theorem length_le_of_numberLexeme {c : Char} {rest left : List Char} {found : Lexeme}
    (h : (c.isDigit || (c == '.' && startsWithDigit rest)) = true)
    (hread : numberLexeme (c :: rest) = .ok (found, left)) : left.length ≤ rest.length := by
  have hdecimal := length_decimal_lt h
  unfold numberLexeme at hread
  split at hread
  · rename_i x digits hcons
    simp only [List.cons.injEq] at hcons
    obtain ⟨rfl, rfl⟩ := hcons
    split at hread
    · split at hread
      · rename_i n after hhex
        unfold hexadecimal? at hhex
        have := length_dropWhile_le isHexDigit digits
        grind
      · simp at hread
    · simp only [Except.ok.injEq, Prod.mk.injEq] at hread
      rw [← hread.2]
      exact hdecimal
  · simp only [Except.ok.injEq, Prod.mk.injEq] at hread
    rw [← hread.2]
    exact hdecimal

/-- A string literal leaves no more text than follows its opening quote. -/
theorem length_le_of_stringBody {quote : Char} {start cs body left : List Char}
    (h : stringBody quote start cs = .ok (body, left)) : left.length ≤ cs.length := by
  fun_induction stringBody quote start cs generalizing body left with
  | case1 => simp at h
  | case2 rest => grind
  | case3 => simp at h
  | case4 => simp at h
  | case5 letter after x last hescape hquote ih =>
    have := length_le_of_escape hescape
    cases hbody : stringBody quote start last with
    | error e => simp [hbody, Except.map] at h
    | ok found =>
      have := ih hbody
      simp only [hbody, Except.map, Except.ok.injEq, Prod.mk.injEq] at h
      simp only [← h.2, List.length_cons]
      omega
  | case6 c rest hquote hslash ih =>
    cases hbody : stringBody quote start rest with
    | error e => simp [hbody, Except.map] at h
    | ok found =>
      have := ih hbody
      simp only [hbody, Except.map, Except.ok.injEq, Prod.mk.injEq] at h
      simp only [← h.2, List.length_cons]
      omega

/-- A lexeme takes at least its first character. -/
theorem length_le_of_lexeme {c : Char} {rest left : List Char} {found : Lexeme}
    (h : lexeme c rest = .ok (found, left)) : left.length ≤ rest.length := by
  have hword := length_dropWhile_le Text.continuesWord rest
  unfold lexeme at h
  split at h
  · exact length_le_of_numberLexeme ‹_› h
  split at h
  · cases hbody : stringBody c (c :: rest) rest with
    | error e => simp [hbody, Except.map] at h
    | ok body =>
      have := length_le_of_stringBody hbody
      simp only [hbody, Except.map, Except.ok.injEq, Prod.mk.injEq] at h
      rw [← h.2]
      exact this
  split at h
  · simp only at h
    split at h
    · simp at h
    · simp only [Except.ok.injEq, Prod.mk.injEq] at h
      rw [← h.2]
      exact hword
  split at h
  · simp only [Except.ok.injEq, Prod.mk.injEq] at h
    rw [← h.2]
    exact hword
  split at h
  · simp only [Except.ok.injEq, Prod.mk.injEq] at h
    rw [← h.2, List.length_drop]
    omega
  · simp at h

/-! ## Tokens -/

mutual

/-- A text without the trivia at its front. -/
def skipTrivia : List Char → List Char
  | [] => []
  | c :: rest =>
    if Text.isBlank c then skipTrivia rest
    else if c = '-' ∧ rest.head? = some '-' then skipComment rest
    else c :: rest

/-- A text inside a comment, without the comment and the trivia after it. -/
def skipComment : List Char → List Char
  | [] => []
  | c :: rest => if c = '\n' then skipTrivia rest else skipComment rest

end

mutual

/-- Skipping trivia leaves no more text. -/
theorem length_skipTrivia_le (cs : List Char) : (skipTrivia cs).length ≤ cs.length := by
  match cs with
  | [] => simp [skipTrivia]
  | c :: rest =>
    have htrivia := length_skipTrivia_le rest
    have hcomment := length_skipComment_le rest
    rw [skipTrivia]
    simp only [List.length_cons]
    split
    · omega
    · split
      · omega
      · simp

/-- Skipping a comment leaves no more text. -/
theorem length_skipComment_le (cs : List Char) : (skipComment cs).length ≤ cs.length := by
  match cs with
  | [] => simp [skipComment]
  | c :: rest =>
    have htrivia := length_skipTrivia_le rest
    have hcomment := length_skipComment_le rest
    rw [skipComment]
    simp only [List.length_cons]
    split <;> omega

end

/-- The tokens of the rest of a text whose whole length in bytes is given. -/
def tokensFrom (total : Nat) (cs : List Char) : Except ScanFault (List Token) :=
  match _ : skipTrivia cs with
  | [] => .ok [⟨.finish, total⟩]
  | c :: rest =>
    match _ : lexeme c rest with
    | .error fault => .error fault
    | .ok (found, left) =>
      (tokensFrom total left).map fun tokens =>
        ⟨found, total - Text.byteLength (c :: rest)⟩ :: tokens
termination_by cs.length
decreasing_by
  have htrivia := length_skipTrivia_le cs
  have hlexeme := length_le_of_lexeme ‹_›
  grind

/-- The tokens of a text, the end of the text last. -/
def tokens (text : String) : Except LocatedFault (List Token) :=
  let total := Text.byteLength text.toList
  match tokensFrom total text.toList with
  | .ok found => .ok found
  | .error fault => .error ⟨total - Text.byteLength fault.rest, fault.fault⟩

end Folio.Query
