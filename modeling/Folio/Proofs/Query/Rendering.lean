import Folio.Proofs.Expr.Nodes
import Folio.Query.Grammar
import Folio.Query.Scan

/-!
# Written expressions

An expression is written as a row of lexemes with one space between them. A part is enclosed in
parentheses if it is looser than its place asks for: the left operand of an operator may be of the
operator's own level, the right one has to be tighter.
-/

namespace Folio

namespace Query

/-! ## Levels -/

/-- The levels of the grammar, from the loosest to the tightest. -/
inductive Precedence where
  | conditional
  | alternatives
  | disjunction
  | conjunction
  | negation
  | relational
  | bitOr
  | bitXor
  | bitAnd
  | shift
  | sum
  | product
  | signed
  | access
  | primary
  deriving DecidableEq

namespace Precedence

/-- The place of a level, the loosest first. -/
def rank : Precedence → Nat
  | .conditional => 0
  | .alternatives => 1
  | .disjunction => 2
  | .conjunction => 3
  | .negation => 4
  | .relational => 5
  | .bitOr => 6
  | .bitXor => 7
  | .bitAnd => 8
  | .shift => 9
  | .sum => 10
  | .product => 11
  | .signed => 12
  | .access => 13
  | .primary => 14

/-- The next tighter level; the tightest is its own. -/
def tighter : Precedence → Precedence
  | .conditional => .alternatives
  | .alternatives => .disjunction
  | .disjunction => .conjunction
  | .conjunction => .negation
  | .negation => .relational
  | .relational => .bitOr
  | .bitOr => .bitXor
  | .bitXor => .bitAnd
  | .bitAnd => .shift
  | .shift => .sum
  | .sum => .product
  | .product => .signed
  | .signed => .access
  | .access => .primary
  | .primary => .primary

end Precedence

end Query

open Query

/-- The level of an operator before one operand. -/
def UnaryOp.level : UnaryOp → Precedence
  | .not => .negation
  | .sign _ => .signed

/-- The level of an operator of arithmetic. -/
def Arithmetic.level : Arithmetic → Precedence
  | .add => .sum
  | .subtract => .sum
  | .multiply => .product
  | .divide => .product
  | .remainder => .product
  | .bitOr => .bitOr
  | .bitAnd => .bitAnd
  | .bitXor => .bitXor
  | .shiftLeft => .shift
  | .shiftRight => .shift
  | .shiftRightZeroFill => .shift

/-- The level of an operator between two operands. -/
def BinaryOp.level : BinaryOp → Precedence
  | .and => .conjunction
  | .or => .disjunction
  | .equal => .relational
  | .notEqual => .relational
  | .relation _ => .relational
  | .arithmetic a => a.level
  | .concat => .sum
  | .coalesce => .alternatives

/-- The level of the grammar that an expression belongs to. -/
def Expr.level : Expr → Precedence
  | .literal _ => .primary
  | .parameter _ => .primary
  | .identifier _ => .primary
  | .property _ _ => .access
  | .array _ => .primary
  | .object _ => .primary
  | .unary op _ => op.level
  | .binary op _ _ => op.level
  | .conditional _ _ _ => .conditional
  | .among _ _ => .relational
  | .between _ _ _ => .relational
  | .call _ _ => .primary
  | .userCall _ _ => .primary

/-- Whether an expression is looser than a place asks for. -/
def Expr.isLoose (place : Precedence) (e : Expr) : Bool := e.level.rank < place.rank

/-! ## Lexemes -/

/-- The lexeme of an operator before one operand. -/
def UnaryOp.lexeme : UnaryOp → Lexeme
  | .not => .word "NOT"
  | .sign .plus => .symbol .plus
  | .sign .minus => .symbol .minus
  | .sign .complement => .symbol .tilde

/-- The symbol of a relation. -/
def Relation.symbol : Relation → Symbol
  | .less => .less
  | .atMost => .atMost
  | .greater => .greater
  | .atLeast => .atLeast

/-- The symbol of an operator of arithmetic. -/
def Arithmetic.symbol : Arithmetic → Symbol
  | .add => .plus
  | .subtract => .minus
  | .multiply => .star
  | .divide => .slash
  | .remainder => .percent
  | .bitOr => .bar
  | .bitAnd => .ampersand
  | .bitXor => .caret
  | .shiftLeft => .shiftLeft
  | .shiftRight => .shiftRight
  | .shiftRightZeroFill => .shiftRightZeroFill

/-- The lexeme of an operator between two operands. -/
def BinaryOp.lexeme : BinaryOp → Lexeme
  | .and => .word "AND"
  | .or => .word "OR"
  | .equal => .symbol .equal
  | .notEqual => .symbol .notEqual
  | .relation r => .symbol r.symbol
  | .arithmetic a => .symbol a.symbol
  | .concat => .symbol .doubleBar
  | .coalesce => .symbol .doubleQuestion

/-- The lexeme of a constant; arrays and objects have none of their own. -/
def Value.lexeme : Value → Lexeme
  | .absent => .word "undefined"
  | .null => .word "null"
  | .bool true => .word "true"
  | .bool false => .word "false"
  | .number n => .number n
  | .string s => .string s
  | .array _ => .finish
  | .object _ => .finish

/-- Lexemes in parentheses if they need them. -/
def enclosedIf (loose : Bool) (ls : List Lexeme) : List Lexeme :=
  if loose then .symbol .openParen :: (ls ++ [.symbol .closeParen]) else ls

/-- Rows of lexemes with a comma between two of them. -/
def separated (rows : List (List Lexeme)) : List Lexeme := [Lexeme.symbol .comma].intercalate rows

/-- One row has no comma. -/
theorem separated_singleton (row : List Lexeme) : separated [row] = row := by
  simp [separated]

/-- A comma stands between the first row and the others. -/
theorem separated_cons_cons (row next : List Lexeme) (rows : List (List Lexeme)) :
    separated (row :: next :: rows) = row ++ .symbol .comma :: separated (next :: rows) := by
  simp [separated, List.intercalate_cons_cons]

namespace Expr

mutual

/-- The lexemes of an expression. -/
def lexemes : Expr → List Lexeme
  | .literal v => [v.lexeme]
  | .parameter name => [.parameter name]
  | .identifier name => [.word name]
  | .property base key =>
    enclosedIf (base.isLoose .access) (lexemes base) ++
      .symbol .openBracket :: (lexemes key ++ [.symbol .closeBracket])
  | .array items =>
    .symbol .openBracket :: (separated (lexemesItems items) ++ [.symbol .closeBracket])
  | .object entries =>
    .symbol .openBrace :: (separated (lexemesEntries entries) ++ [.symbol .closeBrace])
  | .unary op operand => op.lexeme :: enclosedIf (operand.isLoose op.level) (lexemes operand)
  | .binary op left right =>
    enclosedIf (left.isLoose op.level) (lexemes left) ++
      op.lexeme :: enclosedIf (right.isLoose op.level.tighter) (lexemes right)
  | .conditional test consequent alternate =>
    enclosedIf (test.isLoose .alternatives) (lexemes test) ++
      .symbol .question :: (lexemes consequent ++ .symbol .colon :: lexemes alternate)
  | .among needle choices =>
    enclosedIf (needle.isLoose .relational) (lexemes needle) ++
      .word "IN" :: .symbol .openParen ::
        (separated (lexemesItems choices) ++ [.symbol .closeParen])
  | .between value low high =>
    enclosedIf (value.isLoose .relational) (lexemes value) ++
      .word "BETWEEN" :: (enclosedIf (low.isLoose .bitOr) (lexemes low) ++
        .word "AND" :: enclosedIf (high.isLoose .bitOr) (lexemes high))
  | .call name args =>
    .word name :: .symbol .openParen :: (separated (lexemesItems args) ++ [.symbol .closeParen])
  | .userCall name args =>
    .word "udf" :: .symbol .dot :: .word name :: .symbol .openParen ::
      (separated (lexemesItems args) ++ [.symbol .closeParen])

/-- The lexemes of each expression of a list. -/
def lexemesItems : List Expr → List (List Lexeme)
  | [] => []
  | item :: rest => lexemes item :: lexemesItems rest

/-- The lexemes of each entry: its key as a string, a colon and its value. -/
def lexemesEntries : List (String × Expr) → List (List Lexeme)
  | [] => []
  | (key, item) :: rest =>
    (.string key :: .symbol .colon :: lexemes item) :: lexemesEntries rest

end

/-- The lexemes of an expression at a place, in parentheses if it is looser. -/
def lexemesAt (place : Precedence) (e : Expr) : List Lexeme :=
  enclosedIf (e.isLoose place) e.lexemes

/-- The lexemes of a list are those of each of its expressions. -/
theorem lexemesItems_eq_map (items : List Expr) : lexemesItems items = items.map lexemes := by
  induction items with
  | nil => rfl
  | cons item rest ih => rw [lexemesItems, ih, List.map_cons]

/-- The lexemes of an entry. -/
def lexemesEntry (entry : String × Expr) : List Lexeme :=
  .string entry.1 :: .symbol .colon :: entry.2.lexemes

/-- The lexemes of entries are those of each of them. -/
theorem lexemesEntries_eq_map (entries : List (String × Expr)) :
    lexemesEntries entries = entries.map lexemesEntry := by
  induction entries with
  | nil => rfl
  | cons entry rest ih => rw [lexemesEntries, ih, List.map_cons, lexemesEntry]

/-! ## Nesting -/

/-- The nesting level that parentheses around an expression at a place take. -/
def enclosure (place : Precedence) (e : Expr) : Nat := if e.isLoose place then 1 else 0

mutual

/-- The number of nesting levels in the text of an expression: of parentheses, brackets around keys,
items of lists, values of entries, branches, `NOT` and signs. -/
def nesting : Expr → Nat
  | .literal _ => 0
  | .parameter _ => 0
  | .identifier _ => 0
  | .property base key => max (enclosure .access base + nesting base) (1 + nesting key)
  | .array items => nestingItems items
  | .object entries => nestingEntries entries
  | .unary op operand => 1 + (enclosure op.level operand + nesting operand)
  | .binary op left right =>
    max (enclosure op.level left + nesting left) (enclosure op.level.tighter right + nesting right)
  | .conditional test consequent alternate =>
    max (enclosure .alternatives test + nesting test)
      (1 + max (nesting consequent) (nesting alternate))
  | .among needle choices =>
    max (enclosure .relational needle + nesting needle) (nestingItems choices)
  | .between value low high =>
    max (enclosure .relational value + nesting value)
      (max (enclosure .bitOr low + nesting low) (enclosure .bitOr high + nesting high))
  | .call _ args => nestingItems args
  | .userCall _ args => nestingItems args

/-- The number of nesting levels in the text of a list: each item takes one. -/
def nestingItems : List Expr → Nat
  | [] => 0
  | item :: rest => max (1 + nesting item) (nestingItems rest)

/-- The number of nesting levels in the text of entries: each value takes one. -/
def nestingEntries : List (String × Expr) → Nat
  | [] => 0
  | (_, item) :: rest => max (1 + nesting item) (nestingEntries rest)

end

/-- The items of a list nest one level less than the list. -/
theorem nestingItems_le_iff {items : List Expr} {n : Nat} :
    nestingItems items ≤ n ↔ ∀ item ∈ items, 1 + item.nesting ≤ n := by
  induction items with
  | nil => simp [nestingItems]
  | cons item rest ih => rw [nestingItems, Nat.max_le, ih, List.forall_mem_cons]

/-- The values of entries nest one level less than the entries. -/
theorem nestingEntries_le_iff {entries : List (String × Expr)} {n : Nat} :
    nestingEntries entries ≤ n ↔ ∀ entry ∈ entries, 1 + entry.2.nesting ≤ n := by
  induction entries with
  | nil => simp [nestingEntries]
  | cons entry rest ih => rw [nestingEntries, Nat.max_le, ih, List.forall_mem_cons]

/-! ## Text -/

/-- Whether a text is a word. -/
def isWord (text : String) : Bool :=
  match text.toList with
  | [] => false
  | c :: rest => Text.startsWord c && rest.all Text.continuesWord

/-- Whether a text is a word that is not reserved. -/
def isName (text : String) : Bool := isWord text && (Keyword.ofWord? text).isNone

/-- Whether a text is the name of a parameter, with its `@`. -/
def isParameterName (text : String) : Bool :=
  match text.toList with
  | '@' :: rest => !rest.isEmpty && rest.all Text.continuesWord
  | _ => false

/-- Whether the root of an expression can be written: numbers are finite and have no sign, names are
words, those of identifiers and built-in functions are not reserved, and the latter are in upper
case. -/
def isWritableNode : Expr → Bool
  | .literal (.number n) => n.isFinite && !n.isNegative
  | .literal v => !v.isComposite
  | .parameter name => isParameterName name
  | .identifier name => isName name
  | .call name _ => isName name && asciiUpper name == name
  | .userCall name _ => isWord name
  | _ => true

/-- Whether an expression can be written. -/
def isWritable (e : Expr) : Bool := e.every isWritableNode

end Expr

namespace Query

/-- A character between double quotes. -/
def quotedChar (c : Char) : List Char := if c = '"' ∨ c = '\\' then ['\\', c] else [c]

/-- The text of a lexeme. -/
def Lexeme.written : Lexeme → List Char
  | .number n => n.plain.toList
  | .string s => '"' :: (s.toList.flatMap quotedChar ++ ['"'])
  | .word w => w.toList
  | .parameter name => name.toList
  | .symbol s => s.text.toList
  | .finish => []

/-- The text of lexemes with one space between them. -/
def spaced (ls : List Lexeme) : List Char := [' '].intercalate (ls.map Lexeme.written)

/-- One lexeme has no space. -/
theorem spaced_singleton (l : Lexeme) : spaced [l] = l.written := by
  simp [spaced]

/-- A space stands between the first lexeme and the others. -/
theorem spaced_cons_cons (l m : Lexeme) (ls : List Lexeme) :
    spaced (l :: m :: ls) = l.written ++ ' ' :: spaced (m :: ls) := by
  simp [spaced, List.intercalate_cons_cons]

/-- Lexemes before others are written before them, with a space between. -/
theorem spaced_append {ls ms : List Lexeme} (hls : ls ≠ []) (hms : ms ≠ []) :
    spaced (ls ++ ms) = spaced ls ++ ' ' :: spaced ms := by
  obtain ⟨m, ms, rfl⟩ := List.exists_cons_of_ne_nil hms
  induction ls with
  | nil => exact absurd rfl hls
  | cons l ls ih =>
    cases ls with
    | nil => rw [List.cons_append, List.nil_append, spaced_cons_cons, spaced_singleton]
    | cons l' ls =>
      have hrest := ih (List.cons_ne_nil l' ls)
      rw [List.cons_append] at hrest
      rw [List.cons_append, List.cons_append, spaced_cons_cons, spaced_cons_cons, hrest,
        List.append_assoc, List.cons_append]

end Query

/-- The text of an expression. -/
def Expr.render (e : Expr) : String := String.ofList (spaced e.lexemes)

end Folio
