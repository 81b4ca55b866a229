/-!
# Escapes

Inside a quoted text some characters are written by an escape: a backslash with a letter or a sign,
or a backslash with `u` and the code of the character in four hexadecimal digits. Which characters
are escaped, and how, is an `Escaping`.
-/

namespace Folio.Json

/-- Which characters are escaped. -/
structure Escaping where
  /-- What follows the backslash of a short escape. -/
  short : Char → Option Char
  /-- Whether a character without a short escape is written by its code. -/
  coded : Char → Bool

/-- The lower-case hexadecimal digit of a value below 16. -/
def hexDigit (value : Nat) : Char := "0123456789abcdef".toList.getD value '0'

/-- The four hexadecimal digits of a code below `16 ^ 4`. -/
def fourDigits (code : Nat) : List Char :=
  [hexDigit (code / 4096 % 16), hexDigit (code / 256 % 16), hexDigit (code / 16 % 16),
    hexDigit (code % 16)]

namespace Escaping

/-- A character as it is written inside a quoted text. -/
def char (escaping : Escaping) (c : Char) : List Char :=
  match escaping.short c with
  | some mark => ['\\', mark]
  | none => if escaping.coded c then '\\' :: 'u' :: fourDigits c.toNat else [c]

/-- A text in quotes. -/
def quote (escaping : Escaping) (text : String) : List Char :=
  '"' :: text.toList.flatMap escaping.char ++ ['"']

end Escaping

/-- The escapes of JSON texts: short ones, and codes for the other characters below the space. -/
def escaping : Escaping where
  short c :=
    if c = '"' then some '"'
    else if c = '\\' then some '\\'
    else if c = '\x08' then some 'b'
    else if c = '\t' then some 't'
    else if c = '\n' then some 'n'
    else if c = '\x0c' then some 'f'
    else if c = '\r' then some 'r'
    else none
  coded c := c < ' '

end Folio.Json
