import Folio.Proofs.Query.Levels

/-!
# Phrases

The grammar of expressions as rules that tell which lexemes are an expression. A rule also tells how
many nesting levels are enough: what stands in parentheses or in brackets, the elements of a list, the
branches of a conditional and what follows `NOT` or a sign need one level less than the whole.
-/

namespace Folio.Query

/-- The lexemes that a key of an object is written with. -/
inductive IsKey : Lexeme → String → Prop where
  | string (s : String) : IsKey (.string s) s
  | word (w : String) : IsKey (.word w) w

/-- An entry of an object with its lexemes. -/
structure Member where
  key : Lexeme
  name : String
  value : Part Expr

namespace Member

/-- The lexemes of an entry: its key, a colon and its value. -/
def lexemes (member : Member) : List Lexeme :=
  member.key :: .symbol .colon :: member.value.lexemes

/-- The entry. -/
def entry (member : Member) : String × Expr := (member.name, member.value.value)

end Member

/-- The words of a test: `IN` or `BETWEEN`, perhaps after `NOT`. -/
inductive TestWords : Bool → WordTest → List Lexeme → Prop where
  | plain {w : String} {test : WordTest}
    (h : WordTest.ofKeyword? (Keyword.ofWord? w) = some test) : TestWords false test [.word w]
  | negated {w v : String} {test : WordTest} (hnot : Keyword.ofWord? w = some .not)
    (h : WordTest.ofKeyword? (Keyword.ofWord? v) = some test) :
    TestWords true test [.word w, .word v]

/-- Rows of lexemes with a comma between two of them, between an opening and a closing symbol. -/
def listed (first last : Symbol) (rows : List (List Lexeme)) : List Lexeme :=
  .symbol first :: (separated rows ++ [.symbol last])

/-- Lexemes are an expression of a level, and a number of nesting levels is enough for it. -/
inductive Phrase : Nat → Precedence → List Lexeme → Expr → Prop where
  | number {n : Nat} (x : Number) : Phrase n .primary [.number x] (.literal (.number x))
  | string {n : Nat} (s : String) : Phrase n .primary [.string s] (.literal (.string s))
  | parameter {n : Nat} (name : String) : Phrase n .primary [.parameter name] (.parameter name)
  | constant {n : Nat} {w : String} {v : Value} (h : constant? w = some v) :
    Phrase n .primary [.word w] (.literal v)
  | identifier {n : Nat} {w : String} (h : Keyword.ofWord? w = none) :
    Phrase n .primary [.word w] (.identifier w)
  | parentheses {m n : Nat} {ls : List Lexeme} {e : Expr} (hm : m < n)
    (h : Phrase m .conditional ls e) :
    Phrase n .primary (.symbol .openParen :: (ls ++ [.symbol .closeParen])) e
  | array {m n : Nat} {items : List (Part Expr)} (hm : items ≠ [] → m < n)
    (h : ∀ item ∈ items, Phrase m .conditional item.lexemes item.value) :
    Phrase n .primary (listed .openBracket .closeBracket (items.map Part.lexemes))
      (.array (items.map Part.value))
  | object {m n : Nat} {members : List Member} (hm : members ≠ [] → m < n)
    (hkeys : ∀ member ∈ members, IsKey member.key member.name)
    (h : ∀ member ∈ members, Phrase m .conditional member.value.lexemes member.value.value) :
    Phrase n .primary (listed .openBrace .closeBrace (members.map Member.lexemes))
      (.object (members.map Member.entry))
  | call {m n : Nat} {w : String} {args : List (Part Expr)} (hname : Keyword.ofWord? w = none)
    (hm : args ≠ [] → m < n) (h : ∀ arg ∈ args, Phrase m .conditional arg.lexemes arg.value) :
    Phrase n .primary (.word w :: listed .openParen .closeParen (args.map Part.lexemes))
      (.call (asciiUpper w) (args.map Part.value))
  | userCall {m n : Nat} {w : String} (name : String) {args : List (Part Expr)}
    (hw : isUserQualifier w = true) (hm : args ≠ [] → m < n)
    (h : ∀ arg ∈ args, Phrase m .conditional arg.lexemes arg.value) :
    Phrase n .primary (.word w :: .symbol .dot :: .word name ::
      listed .openParen .closeParen (args.map Part.lexemes)) (.userCall name (args.map Part.value))
  | named {n : Nat} {ls : List Lexeme} {base : Expr} (h : Phrase n .access ls base)
    (key : String) :
    Phrase n .access (ls ++ [.symbol .dot, .word key]) (.property base (.literal (.string key)))
  | keyed {m n : Nat} {ls ks : List Lexeme} {base key : Expr} (hm : m < n)
    (hbase : Phrase n .access ls base) (hkey : Phrase m .conditional ks key) :
    Phrase n .access (ls ++ .symbol .openBracket :: (ks ++ [.symbol .closeBracket]))
      (.property base key)
  | sign {m n : Nat} {l : Lexeme} {s : Sign} {ls : List Lexeme} {e : Expr} (hm : m < n)
    (hsign : sign? l = some s) (h : Phrase m .signed ls e) :
    Phrase n .signed (l :: ls) (.unary (.sign s) e)
  | binary {n : Nat} {level : Precedence} {l : Lexeme} {op : BinaryOp} {ls rs : List Lexeme}
    {left right : Expr} (hop : level.op? l = some op) (hleft : Phrase n level ls left)
    (hright : Phrase n level.tighter rs right) :
    Phrase n level (ls ++ l :: rs) (.binary op left right)
  | among {m n : Nat} {negated : Bool} {ws ls : List Lexeme} {needle : Expr}
    {choices : List (Part Expr)} (hwords : TestWords negated .among ws)
    (hneedle : Phrase n .relational ls needle) (hm : choices ≠ [] → m < n)
    (h : ∀ choice ∈ choices, Phrase m .conditional choice.lexemes choice.value) :
    Phrase n .relational
      (ls ++ (ws ++ listed .openParen .closeParen (choices.map Part.lexemes)))
      (negatedIf negated (.among needle (choices.map Part.value)))
  | between {n : Nat} {negated : Bool} {w : String} {ws ls lows highs : List Lexeme}
    {value low high : Expr} (hwords : TestWords negated .between ws)
    (hvalue : Phrase n .relational ls value) (hlow : Phrase n .bitOr lows low)
    (hand : Keyword.ofWord? w = some .and) (hhigh : Phrase n .bitOr highs high) :
    Phrase n .relational (ls ++ (ws ++ (lows ++ .word w :: highs)))
      (negatedIf negated (.between value low high))
  | not {m n : Nat} {w : String} {ls : List Lexeme} {e : Expr} (hm : m < n)
    (hnot : Keyword.ofWord? w = some .not) (h : Phrase m .negation ls e) :
    Phrase n .negation (.word w :: ls) (.unary .not e)
  | conditional {m n : Nat} {ts cs as : List Lexeme} {test consequent alternate : Expr}
    (hm : m < n) (htest : Phrase n .alternatives ts test)
    (hconsequent : Phrase m .conditional cs consequent)
    (halternate : Phrase m .conditional as alternate) :
    Phrase n .conditional (ts ++ .symbol .question :: (cs ++ .symbol .colon :: as))
      (.conditional test consequent alternate)
  | looser {n : Nat} {level : Precedence} {ls : List Lexeme} {e : Expr}
    (h : Phrase n level.tighter ls e) : Phrase n level ls e

/-- A phrase of a level is one of every looser level. -/
theorem Phrase.of_le {n : Nat} {loose tight : Precedence} {ls : List Lexeme} {e : Expr}
    (h : Phrase n tight ls e) (hle : loose.rank ≤ tight.rank) : Phrase n loose ls e :=
  Precedence.induction_looser h (fun _ => Phrase.looser) loose hle

end Folio.Query
