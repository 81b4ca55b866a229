import Folio.Number.Numeral
import Folio.Query.Symbol

/-!
# Tokens

A token is what one stretch of query text says, with the byte offset where it starts. The last token
of a text says that the text ends.
-/

namespace Folio.Query

/-- What a token says. -/
inductive Lexeme where
  /-- A number literal. -/
  | number (n : Number)
  /-- A string literal, its escapes resolved. -/
  | string (s : String)
  /-- An identifier or keyword, as written. -/
  | word (w : String)
  /-- A parameter, with its leading `@`. -/
  | parameter (name : String)
  /-- An operator or punctuation. -/
  | symbol (s : Symbol)
  /-- The end of the text. -/
  | finish
  deriving DecidableEq

/-- The lexeme as error messages name it. -/
def Lexeme.description : Lexeme → String
  | .number n => "number " ++ n.plain
  | .string s => "string '" ++ s ++ "'"
  | .word w => "'" ++ w ++ "'"
  | .parameter name => "parameter " ++ name
  | .symbol s => "'" ++ s.text ++ "'"
  | .finish => "end of input"

/-- A lexeme and the byte offset where it starts. -/
structure Token where
  lexeme : Lexeme
  offset : Nat
  deriving DecidableEq

/-- What the parser asks for when it meets something else. -/
inductive Expected where
  | keyword (k : Keyword)
  | symbol (s : Symbol)
  | identifier
  | name
  | expression
  | endOfQuery

/-- The wanted item as error messages name it. -/
def Expected.description : Expected → String
  | .keyword k => k.text
  | .symbol s => "'" ++ s.text ++ "'"
  | .identifier => "identifier"
  | .name => "name"
  | .expression => "expression"
  | .endOfQuery => "end of query"

/-- Why a text is not a query. -/
inductive TextFault where
  | unexpectedCharacter (c : Char)
  | missingParameterName
  | invalidHexadecimal
  | unterminatedString
  | invalidUnicodeEscape
  | unexpectedToken (expected : Expected) (found : Lexeme)
  | tooDeep
  | invalidTop
  | orderNotPath

/-- The message for the author of the query. -/
def TextFault.message : TextFault → String
  | .unexpectedCharacter c => "Unexpected character '" ++ String.singleton c ++ "'"
  | .missingParameterName => "Expected parameter name after '@'"
  | .invalidHexadecimal => "Invalid hexadecimal literal"
  | .unterminatedString => "Unterminated string literal"
  | .invalidUnicodeEscape => "Invalid unicode escape"
  | .unexpectedToken expected found =>
    "Expected " ++ expected.description ++ " but " ++ found.description ++ " found"
  | .tooDeep => "Expression nested too deeply"
  | .invalidTop => "TOP expects a non-negative integer"
  | .orderNotPath => "ORDER BY expects a property path"

/-- A fault in a text and the byte offset where it lies. -/
structure LocatedFault where
  offset : Nat
  fault : TextFault

end Folio.Query
