/-!
# Symbols and keywords

The fixed vocabulary of query text. A symbol is read by taking the first of `Symbol.all` that the
text starts with, so a symbol stands before every symbol that it starts with. A keyword is a word
read without regard to ASCII case.
-/

namespace Folio.Query

/-- Operators and punctuation. -/
inductive Symbol where
  | shiftRightZeroFill
  | shiftLeft
  | shiftRight
  | atMost
  | atLeast
  | notEqual
  | angles
  | doubleBar
  | doubleQuestion
  | openParen
  | closeParen
  | openBracket
  | closeBracket
  | openBrace
  | closeBrace
  | comma
  | dot
  | colon
  | question
  | star
  | slash
  | percent
  | plus
  | minus
  | equal
  | less
  | greater
  | ampersand
  | caret
  | bar
  | tilde
  deriving DecidableEq

namespace Symbol

/-- The symbol as it is written. -/
def text : Symbol → String
  | .shiftRightZeroFill => ">>>"
  | .shiftLeft => "<<"
  | .shiftRight => ">>"
  | .atMost => "<="
  | .atLeast => ">="
  | .notEqual => "!="
  | .angles => "<>"
  | .doubleBar => "||"
  | .doubleQuestion => "??"
  | .openParen => "("
  | .closeParen => ")"
  | .openBracket => "["
  | .closeBracket => "]"
  | .openBrace => "\x7b"
  | .closeBrace => "\x7d"
  | .comma => ","
  | .dot => "."
  | .colon => ":"
  | .question => "?"
  | .star => "*"
  | .slash => "/"
  | .percent => "%"
  | .plus => "+"
  | .minus => "-"
  | .equal => "="
  | .less => "<"
  | .greater => ">"
  | .ampersand => "&"
  | .caret => "^"
  | .bar => "|"
  | .tilde => "~"

/-- All symbols, longer ones first. -/
def all : List Symbol :=
  [.shiftRightZeroFill, .shiftLeft, .shiftRight, .atMost, .atLeast, .notEqual, .angles, .doubleBar,
    .doubleQuestion, .openParen, .closeParen, .openBracket, .closeBracket, .openBrace, .closeBrace,
    .comma, .dot, .colon, .question, .star, .slash, .percent, .plus, .minus, .equal, .less,
    .greater, .ampersand, .caret, .bar, .tilde]

/-- The longest symbol that the text starts with. -/
def ofStart? (cs : List Char) : Option Symbol := all.find? fun s => s.text.toList.isPrefixOf cs

end Symbol

/-- The reserved words. -/
inductive Keyword where
  | select
  | top
  | value
  | fromCollection
  | asAlias
  | whereFilter
  | order
  | byKeys
  | ascending
  | descending
  | and
  | or
  | not
  | inList
  | between
  | trueValue
  | falseValue
  | nullValue
  | undefinedValue
  deriving DecidableEq

/-- A text with its ASCII letters in upper case. -/
def asciiUpper (text : String) : String := String.ofList (text.toList.map Char.toUpper)

namespace Keyword

/-- The keyword in upper case. -/
def text : Keyword → String
  | .select => "SELECT"
  | .top => "TOP"
  | .value => "VALUE"
  | .fromCollection => "FROM"
  | .asAlias => "AS"
  | .whereFilter => "WHERE"
  | .order => "ORDER"
  | .byKeys => "BY"
  | .ascending => "ASC"
  | .descending => "DESC"
  | .and => "AND"
  | .or => "OR"
  | .not => "NOT"
  | .inList => "IN"
  | .between => "BETWEEN"
  | .trueValue => "TRUE"
  | .falseValue => "FALSE"
  | .nullValue => "NULL"
  | .undefinedValue => "UNDEFINED"

/-- All keywords. -/
def all : List Keyword :=
  [.select, .top, .value, .fromCollection, .asAlias, .whereFilter, .order, .byKeys, .ascending,
    .descending, .and, .or, .not, .inList, .between, .trueValue, .falseValue, .nullValue,
    .undefinedValue]

/-- The keyword that a word is. -/
def ofWord? (word : String) : Option Keyword := all.find? fun k => k.text == asciiUpper word

end Keyword

end Folio.Query
