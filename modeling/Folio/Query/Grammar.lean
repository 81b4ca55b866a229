import Folio.Query.Step
import Folio.Expr.Basic

/-!
# The grammar of expressions

Operators from the loosest to the tightest: `?:`; `??`; `OR`; `AND`; `NOT`; the relations with `IN`
and `BETWEEN`; the bitwise `|`, `^` and `&`; the shifts; sums; products; signs; property access.
Operators between two operands group to the left. The reader of one level is built from the readers
of the next tighter level and from `Inner`, the readers one nesting level deeper.
-/

namespace Folio.Query

/-- The readers one nesting level deeper: within brackets, after `NOT` and after a sign. -/
structure Inner where
  expression : Parser Expr
  negation : Parser Expr
  signed : Parser Expr

/-! ## Operators -/

/-- Reads operands joined by operators of one level, grouping to the left. -/
def chain (op? : Lexeme → Option BinaryOp) (operand : Parser Expr) : Parser Expr :=
  operand.extended fun left ts =>
    match ts with
    | [] => none
    | t :: rest => (op? t.lexeme).map fun op => past (operand.map (.binary op left) rest)

/-- The operator `??`. -/
def coalesceOp? : Lexeme → Option BinaryOp
  | .symbol .doubleQuestion => some .coalesce
  | _ => none

/-- The operator `OR`. -/
def orOp? : Lexeme → Option BinaryOp
  | .word w => if Keyword.ofWord? w = some .or then some .or else none
  | _ => none

/-- The operator `AND`. -/
def andOp? : Lexeme → Option BinaryOp
  | .word w => if Keyword.ofWord? w = some .and then some .and else none
  | _ => none

/-- The equality operators and the relations. -/
def relationOp? : Lexeme → Option BinaryOp
  | .symbol .equal => some .equal
  | .symbol .notEqual => some .notEqual
  | .symbol .angles => some .notEqual
  | .symbol .less => some (.relation .less)
  | .symbol .atMost => some (.relation .atMost)
  | .symbol .greater => some (.relation .greater)
  | .symbol .atLeast => some (.relation .atLeast)
  | _ => none

/-- The operator `|`. -/
def bitOrOp? : Lexeme → Option BinaryOp
  | .symbol .bar => some (.arithmetic .bitOr)
  | _ => none

/-- The operator `^`. -/
def bitXorOp? : Lexeme → Option BinaryOp
  | .symbol .caret => some (.arithmetic .bitXor)
  | _ => none

/-- The operator `&`. -/
def bitAndOp? : Lexeme → Option BinaryOp
  | .symbol .ampersand => some (.arithmetic .bitAnd)
  | _ => none

/-- The shift operators. -/
def shiftOp? : Lexeme → Option BinaryOp
  | .symbol .shiftLeft => some (.arithmetic .shiftLeft)
  | .symbol .shiftRight => some (.arithmetic .shiftRight)
  | .symbol .shiftRightZeroFill => some (.arithmetic .shiftRightZeroFill)
  | _ => none

/-- The operators of sums. -/
def sumOp? : Lexeme → Option BinaryOp
  | .symbol .plus => some (.arithmetic .add)
  | .symbol .minus => some (.arithmetic .subtract)
  | .symbol .doubleBar => some .concat
  | _ => none

/-- The operators of products. -/
def productOp? : Lexeme → Option BinaryOp
  | .symbol .star => some (.arithmetic .multiply)
  | .symbol .slash => some (.arithmetic .divide)
  | .symbol .percent => some (.arithmetic .remainder)
  | _ => none

/-- The signs. -/
def sign? : Lexeme → Option Sign
  | .symbol .minus => some .minus
  | .symbol .plus => some .plus
  | .symbol .tilde => some .complement
  | _ => none

/-! ## Operands -/

/-- The constant that a word stands for. -/
def constant? (word : String) : Option Value :=
  match Keyword.ofWord? word with
  | some .trueValue => some (.bool true)
  | some .falseValue => some (.bool false)
  | some .nullValue => some .null
  | some .undefinedValue => some .absent
  | _ => none

/-- Whether a word is the qualifier of functions that the caller provides. -/
def isUserQualifier (word : String) : Bool := asciiUpper word == "UDF"

/-- Reads the rest of a list of expressions after its opening parenthesis. -/
def exprList (inner : Inner) : Parser (List Expr) := closedList .closeParen inner.expression

/-- Reads the name and the arguments of a call of a function that the caller provides. -/
def userCall (inner : Inner) : Parser Expr :=
  name.bind fun called => (symbol .openParen).bind fun _ => (exprList inner).map (.userCall called)

/-- Reads the call, constant or identifier that a word begins. -/
def wordExpr (inner : Inner) (word : String) (offset : Nat) (rest : List Token) :
    Reading Expr (rest.length + 1) :=
  match constant? word with
  | some value => .ok (.leaving (.literal value) rest)
  | none =>
    if Keyword.ofWord? word ≠ none then unexpected .expression (⟨.word word, offset⟩ :: rest)
    else
      match rest with
      | ⟨.symbol .openParen, _⟩ :: more =>
        past (past ((exprList inner).map (.call (asciiUpper word)) more))
      | ⟨.symbol .dot, dot⟩ :: function :: ⟨.symbol .openParen, paren⟩ :: more =>
        let called := function :: ⟨.symbol .openParen, paren⟩ :: more
        if isUserQualifier word then past (past (userCall inner called))
        else .ok (.leaving (.identifier word) (⟨.symbol .dot, dot⟩ :: called))
      | others => .ok (.leaving (.identifier word) others)

/-- Reads the key of an entry: a string or any word. -/
def entryKey : Parser String
  | ⟨.string s, _⟩ :: rest => .ok (.leaving s rest)
  | ts => name ts

/-- Reads an entry of an object. -/
def entry (inner : Inner) : Parser (String × Expr) :=
  entryKey.bind fun key => (symbol .colon).bind fun _ => inner.expression.map fun e => (key, e)

/-- Reads an operand without the property accesses after it. -/
def primary (inner : Inner) : Parser Expr
  | ⟨.number n, _⟩ :: rest => .ok (.leaving (.literal (.number n)) rest)
  | ⟨.string s, _⟩ :: rest => .ok (.leaving (.literal (.string s)) rest)
  | ⟨.parameter p, _⟩ :: rest => .ok (.leaving (.parameter p) rest)
  | ⟨.symbol .openParen, _⟩ :: rest => past (inner.expression.before .closeParen rest)
  | ⟨.symbol .openBracket, _⟩ :: rest =>
    past ((closedList .closeBracket inner.expression).map .array rest)
  | ⟨.symbol .openBrace, _⟩ :: rest =>
    past ((closedList .closeBrace (entry inner)).map .object rest)
  | ⟨.word w, offset⟩ :: rest => wordExpr inner w offset rest
  | others => unexpected .expression others

/-- Reads the access to a property of the expression read so far. -/
def nextAccess? (inner : Inner) : Extension Expr := fun base ts =>
  match ts with
  | ⟨.symbol .dot, _⟩ :: rest =>
    some (past (name.map (fun key => .property base (.literal (.string key))) rest))
  | ⟨.symbol .openBracket, _⟩ :: rest =>
    some (past ((inner.expression.before .closeBracket).map (.property base) rest))
  | _ => none

/-- Reads an operand with the property accesses after it. -/
def access (inner : Inner) : Parser Expr := (primary inner).extended (nextAccess? inner)

/-! ## Levels -/

/-- Reads an operand after any number of signs. -/
def signed (inner : Inner) : Parser Expr := fun ts =>
  match ts with
  | [] => access inner []
  | t :: rest =>
    match sign? t.lexeme with
    | none => access inner (t :: rest)
    | some s => past (inner.signed.map (.unary (.sign s)) rest)

/-- Reads a product. -/
def product (inner : Inner) : Parser Expr := chain productOp? (signed inner)

/-- Reads a sum. -/
def sum (inner : Inner) : Parser Expr := chain sumOp? (product inner)

/-- Reads a shift. -/
def shift (inner : Inner) : Parser Expr := chain shiftOp? (sum inner)

/-- Reads a bitwise conjunction. -/
def bitAnd (inner : Inner) : Parser Expr := chain bitAndOp? (shift inner)

/-- Reads a bitwise exclusive disjunction. -/
def bitXor (inner : Inner) : Parser Expr := chain bitXorOp? (bitAnd inner)

/-- Reads a bitwise disjunction. -/
def bitOr (inner : Inner) : Parser Expr := chain bitOrOp? (bitXor inner)

/-- The two tests that a word introduces. -/
inductive WordTest where
  | among
  | between
  deriving DecidableEq

/-- The test that a keyword introduces. -/
def WordTest.ofKeyword? : Option Keyword → Option WordTest
  | some .inList => some .among
  | some .between => some .between
  | _ => none

/-- Reads the words of a test: `IN` or `BETWEEN`, perhaps after `NOT`. The flag tells of the
`NOT`. -/
def wordTest? : (ts : List Token) → Option (Step (Bool × WordTest) ts.length)
  | ⟨.word w, _⟩ :: rest =>
    match WordTest.ofKeyword? (Keyword.ofWord? w) with
    | some test => some (.leaving (false, test) rest)
    | none =>
      if Keyword.ofWord? w = some .not then
        match rest with
        | ⟨.word v, _⟩ :: more =>
          (WordTest.ofKeyword? (Keyword.ofWord? v)).map fun test =>
            (Progress.leaving (true, test) more).past
        | _ => none
      else none
  | _ => none

/-- Reads what a test compares the expression to its left with. -/
def testOf (inner : Inner) (left : Expr) : WordTest → Parser Expr
  | .among =>
    (symbol .openParen).bind fun _ => (exprList inner).map (.among left)
  | .between =>
    (bitOr inner).bind fun low =>
      (keyword .and).bind fun _ => (bitOr inner).map (.between left low)

/-- The negation of an expression if the flag is set. -/
def negatedIf (negated : Bool) (e : Expr) : Expr := if negated then .unary .not e else e

/-- Reads a relation or a test of the expression read so far. -/
def nextRelation? (inner : Inner) : Extension Expr := fun left ts =>
  match ts with
  | [] => none
  | t :: rest =>
    match relationOp? t.lexeme with
    | some op => some (past ((bitOr inner).map (.binary op left) rest))
    | none =>
      (wordTest? (t :: rest)).map fun words =>
        words.bind fun (negated, test) => (testOf inner left test).map (negatedIf negated)

/-- Reads an expression of relations and tests. -/
def relational (inner : Inner) : Parser Expr := (bitOr inner).extended (nextRelation? inner)

/-- Reads a test after any number of `NOT`. -/
def negation (inner : Inner) : Parser Expr := fun ts =>
  match keyword? .not ts with
  | none => relational inner ts
  | some step => step.bind fun _ => inner.negation.map (.unary .not)

/-- Reads a conjunction. -/
def conjunction (inner : Inner) : Parser Expr := chain andOp? (negation inner)

/-- Reads a disjunction. -/
def disjunction (inner : Inner) : Parser Expr := chain orOp? (conjunction inner)

/-- Reads alternatives for absence. -/
def alternatives (inner : Inner) : Parser Expr := chain coalesceOp? (disjunction inner)

/-- Reads the two branches after a question mark, if one follows. -/
def branches (inner : Inner) (test : Expr) : OptionalParser Expr
  | ⟨.symbol .question, _⟩ :: rest =>
    past (past ((inner.expression.before .colon).bind (fun consequent =>
      inner.expression.map (.conditional test consequent)) rest))
  | others => .ok (.leaving test others)

/-- Reads an expression, with its branches if it is the test of a conditional. -/
def conditional (inner : Inner) : Parser Expr := (alternatives inner).bindOptional (branches inner)

/-! ## Nesting -/

/-- The readers when no nesting level is left. -/
def Inner.exhausted : Inner := ⟨fun ts => tooDeep ts, fun ts => tooDeep ts, fun ts => tooDeep ts⟩

/-- The readers with a number of nesting levels left. -/
def Inner.within : Nat → Inner
  | 0 => .exhausted
  | levels + 1 =>
    let deeper := Inner.within levels
    ⟨Query.conditional deeper, Query.negation deeper, Query.signed deeper⟩

/-- The number of nesting levels that an expression may use, its own included. -/
def maxNesting : Nat := 64

/-- The greatest height of an expression. -/
def maxHeight : Nat := 128

/-- Reads a whole expression of bounded nesting and height. -/
def expression : Parser Expr := fun ts => do
  let step ← (Inner.within maxNesting).expression ts
  if maxHeight < step.value.depth then tooDeep ts else return step

end Folio.Query
