import Folio.Error
import Folio.Expr.Builtin
import Folio.Expr.Path
import Folio.Expr.UserFunctions

/-!
# Evaluation

An expression has a value for a document, the parameters of the query and the functions of the
caller. Parts are evaluated from left to right. The one error is a call of an unknown function that
is reached; everything else that does not fit is absent.
-/

namespace Folio

/-- What an expression is evaluated against. -/
structure Scope where
  document : Value
  /-- The parameters by name; of equal names the first counts. -/
  parameters : List (String × Value)
  functions : UserFunctions

/-- The value of an operator before one operand. -/
def UnaryOp.apply : UnaryOp → Value → Value
  | .not, v => (Truth.ofValue v).not.toValue
  | .sign s, v => v.signed s

/-- The value of an operator between two operands. -/
def BinaryOp.apply : BinaryOp → Value → Value → Value
  | .and, a, b => ((Truth.ofValue a).and (Truth.ofValue b)).toValue
  | .or, a, b => ((Truth.ofValue a).or (Truth.ofValue b)).toValue
  | .equal, a, b => (a.equal b).toValue
  | .notEqual, a, b => (a.notEqual b).toValue
  | .relation r, a, b => (a.relate r b).toValue
  | .arithmetic op, a, b => a.arithmetic op b
  | .concat, a, b => a.concat b
  | .coalesce, a, b => if a.isAbsent then b else a

/-- The value under a key that is itself a value: keys are strings and numbers. -/
def Value.at (v : Value) : Value → Value
  | .string s => v.child s
  | .number n => v.child (numberKey n)
  | _ => .absent

/-- Whether a value lies between two others, ends included. -/
def Value.between (v low high : Value) : Value :=
  ((v.relate .atLeast low).and (v.relate .atMost high)).toValue

namespace Expr

mutual

/-- The value of an expression. -/
def eval (scope : Scope) : Expr → Except QueryError Value
  | .literal v => .ok v
  | .parameter name => .ok ((scope.parameters.lookup name).getD .absent)
  | .identifier _ => .ok scope.document
  | .property base key =>
    match (Expr.property base key).path? with
    | some (_, keys) => .ok (scope.document.resolve keys)
    | none => do
      let v ← eval scope base
      let k ← eval scope key
      return v.at k
  | .array items => do
    let values ← evalItems scope items
    return .array values
  | .object entries => do
    let values ← evalEntries scope entries
    return .object values
  | .unary op operand => do
    let v ← eval scope operand
    return op.apply v
  | .binary op left right => do
    let a ← eval scope left
    let b ← eval scope right
    return op.apply a b
  | .conditional test consequent alternate => do
    let t ← eval scope test
    if (Truth.ofValue t).isTrue then eval scope consequent else eval scope alternate
  | .among needle choices => do
    let v ← eval scope needle
    if v.isAbsent then return .absent
    let found ← equalsSome scope v choices
    return .bool found
  | .between value low high => do
    let v ← eval scope value
    let l ← eval scope low
    let h ← eval scope high
    return v.between l h
  | .call name args => do
    let values ← evalItems scope args
    match Builtin.ofName? name with
    | some f => return f.call values
    | none => .error (.unknownFunction name)
  | .userCall name args => do
    let values ← evalItems scope args
    match scope.functions.get? name with
    | some f => return f values
    | none => .error (.unknownFunction name)

/-- The values of a list of expressions. -/
def evalItems (scope : Scope) : List Expr → Except QueryError (List Value)
  | [] => .ok []
  | item :: rest => do
    let v ← eval scope item
    let vs ← evalItems scope rest
    return v :: vs

/-- The entries with the values of their expressions. -/
def evalEntries (scope : Scope) :
    List (String × Expr) → Except QueryError (List (String × Value))
  | [] => .ok []
  | (key, item) :: rest => do
    let v ← eval scope item
    let vs ← evalEntries scope rest
    return (key, v) :: vs

/-- Whether a value equals that of some expression; those after the first equal one are not
evaluated. -/
def equalsSome (scope : Scope) (v : Value) : List Expr → Except QueryError Bool
  | [] => .ok false
  | item :: rest => do
    let w ← eval scope item
    if (v.equal w).isTrue then return true else equalsSome scope v rest

end

/-- Whether an expression is true as a condition. -/
def test (scope : Scope) (e : Expr) : Except QueryError Bool := do
  let v ← e.eval scope
  return (Truth.ofValue v).isTrue

end Expr

end Folio
