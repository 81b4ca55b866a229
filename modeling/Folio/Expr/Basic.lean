import Folio.Value.Arithmetic
import Folio.Value.Comparison

/-!
# Expressions

An expression is a tree over literals, parameters and identifiers. Its children are its parts from
left to right, its size is the number of its nodes, and its height is the number of nodes on its
longest branch.
-/

namespace Folio

/-- Operators before one operand. -/
inductive UnaryOp where
  | not
  | sign (s : Sign)
  deriving DecidableEq

/-- The operator as it is written. -/
def UnaryOp.text : UnaryOp → String
  | .not => "NOT"
  | .sign s => s.text

/-- Operators between two operands. -/
inductive BinaryOp where
  | and
  | or
  | equal
  | notEqual
  | relation (r : Relation)
  | arithmetic (a : Arithmetic)
  | concat
  /-- The left operand unless it is absent. -/
  | coalesce
  deriving DecidableEq

/-- The operator as it is written. -/
def BinaryOp.text : BinaryOp → String
  | .and => "AND"
  | .or => "OR"
  | .equal => "="
  | .notEqual => "!="
  | .relation r => r.text
  | .arithmetic a => a.text
  | .concat => "||"
  | .coalesce => "??"

/-- A scalar expression. -/
inductive Expr where
  /-- A constant, also the absent one. -/
  | literal (v : Value)
  /-- A query parameter; its name keeps the `@`. -/
  | parameter (name : String)
  /-- The current document under a name. -/
  | identifier (name : String)
  /-- The value under a key. -/
  | property (base key : Expr)
  | array (items : List Expr)
  | object (entries : List (String × Expr))
  | unary (op : UnaryOp) (operand : Expr)
  | binary (op : BinaryOp) (left right : Expr)
  | conditional (test consequent alternate : Expr)
  /-- Whether the needle equals one of the choices. -/
  | among (needle : Expr) (choices : List Expr)
  | between (value low high : Expr)
  /-- A call of a built-in function. -/
  | call (name : String) (args : List Expr)
  /-- A call of a function that the caller of the query provides. -/
  | userCall (name : String) (args : List Expr)
  deriving Inhabited

namespace Expr

/-- The parts of an expression, from left to right. -/
def children : Expr → List Expr
  | .literal _ => []
  | .parameter _ => []
  | .identifier _ => []
  | .property base key => [base, key]
  | .array items => items
  | .object entries => entries.map Prod.snd
  | .unary _ operand => [operand]
  | .binary _ left right => [left, right]
  | .conditional test consequent alternate => [test, consequent, alternate]
  | .among needle choices => needle :: choices
  | .between value low high => [value, low, high]
  | .call _ args => args
  | .userCall _ args => args

mutual

/-- The number of nodes of an expression. -/
def size : Expr → Nat
  | .literal _ => 1
  | .parameter _ => 1
  | .identifier _ => 1
  | .property base key => 1 + (size base + size key)
  | .array items => 1 + sizeItems items
  | .object entries => 1 + sizeEntries entries
  | .unary _ operand => 1 + size operand
  | .binary _ left right => 1 + (size left + size right)
  | .conditional test consequent alternate => 1 + (size test + (size consequent + size alternate))
  | .among needle choices => 1 + (size needle + sizeItems choices)
  | .between value low high => 1 + (size value + (size low + size high))
  | .call _ args => 1 + sizeItems args
  | .userCall _ args => 1 + sizeItems args

/-- The number of nodes of a list of expressions. -/
def sizeItems : List Expr → Nat
  | [] => 0
  | item :: rest => size item + sizeItems rest

/-- The number of nodes of the values of entries. -/
def sizeEntries : List (String × Expr) → Nat
  | [] => 0
  | (_, item) :: rest => size item + sizeEntries rest

end

mutual

/-- The number of nodes on the longest branch: one more than the tallest child. -/
def height : Expr → Nat
  | .literal _ => 1
  | .parameter _ => 1
  | .identifier _ => 1
  | .property base key => 1 + max (height base) (height key)
  | .array items => 1 + heightItems items
  | .object entries => 1 + heightEntries entries
  | .unary _ operand => 1 + height operand
  | .binary _ left right => 1 + max (height left) (height right)
  | .conditional test consequent alternate =>
    1 + max (height test) (max (height consequent) (height alternate))
  | .among needle choices => 1 + max (height needle) (heightItems choices)
  | .between value low high => 1 + max (height value) (max (height low) (height high))
  | .call _ args => 1 + heightItems args
  | .userCall _ args => 1 + heightItems args

/-- The height of the tallest expression of a list. -/
def heightItems : List Expr → Nat
  | [] => 0
  | item :: rest => max (height item) (heightItems rest)

/-- The height of the tallest value of entries. -/
def heightEntries : List (String × Expr) → Nat
  | [] => 0
  | (_, item) :: rest => max (height item) (heightEntries rest)

end

/-- The nodes of entries are those of their values. -/
theorem sizeEntries_eq (entries : List (String × Expr)) :
    sizeEntries entries = sizeItems (entries.map Prod.snd) := by
  induction entries with
  | nil => rfl
  | cons entry rest ih => simp [sizeEntries, sizeItems, ih]

/-- The nodes of two lists are those of both. -/
theorem sizeItems_append (left right : List Expr) :
    sizeItems (left ++ right) = sizeItems left + sizeItems right := by
  induction left with
  | nil => simp [sizeItems]
  | cons item rest ih => simp [sizeItems, ih, Nat.add_assoc]

/-- An expression has one node more than its children. -/
theorem size_eq (e : Expr) : e.size = 1 + sizeItems e.children := by
  cases e <;> simp [size, children, sizeItems, sizeEntries_eq]

/-- The greatest depth among pending subtrees and one found before. Each subtree is given with the
depth of its root. -/
def deepest (found : Nat) (pending : List (Expr × Nat)) : Nat :=
  match pending with
  | [] => found
  | (e, depth) :: rest => deepest (max found depth) (e.children.map (·, depth + 1) ++ rest)
termination_by sizeItems (pending.map Prod.fst)
decreasing_by
  have hsize := size_eq e
  simp only [List.map_append, List.map_map, List.map_cons, sizeItems_append, sizeItems]
  have hchildren : e.children.map (Prod.fst ∘ fun child => (child, depth + 1)) = e.children :=
    List.map_id e.children
  rw [hchildren]
  omega

/-- The height of an expression, by a traversal whose stack is a list. -/
def depth (e : Expr) : Nat := deepest 0 [(e, 1)]

end Expr

end Folio
