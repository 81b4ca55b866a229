import Folio.Error
import Folio.Expr.Builtin
import Folio.Expr.Basic

/-!
# Resolution of names

Before a query runs, the names in its expressions are resolved: every identifier is the name of the
document, and every built-in call is of a known function with a number of arguments that it takes.
Functions of the caller are resolved when they are called. The first unresolved name from left to
right is the error; a call comes before its arguments.
-/

namespace Folio.Expr

/-- Whether a name and a number of arguments make a built-in call. -/
def resolveCall (name : String) (count : Nat) : Except QueryError Unit :=
  match Builtin.ofName? name with
  | some f => if f.accepts count then .ok () else .error (.argumentCount name count)
  | none => .error (.unknownFunction name)

mutual

/-- Whether the names in an expression resolve, with `binding` as the name of the document. -/
def resolveNames (binding : String) : Expr → Except QueryError Unit
  | .literal _ => .ok ()
  | .parameter _ => .ok ()
  | .identifier name => if name = binding then .ok () else .error (.unresolvedIdentifier name)
  | .property base key => do
    resolveNames binding base
    resolveNames binding key
  | .array items => resolveItems binding items
  | .object entries => resolveEntries binding entries
  | .unary _ operand => resolveNames binding operand
  | .binary _ left right => do
    resolveNames binding left
    resolveNames binding right
  | .conditional test consequent alternate => do
    resolveNames binding test
    resolveNames binding consequent
    resolveNames binding alternate
  | .among needle choices => do
    resolveNames binding needle
    resolveItems binding choices
  | .between value low high => do
    resolveNames binding value
    resolveNames binding low
    resolveNames binding high
  | .call name args => do
    resolveCall name args.length
    resolveItems binding args
  | .userCall _ args => resolveItems binding args

/-- Whether the names in a list of expressions resolve. -/
def resolveItems (binding : String) : List Expr → Except QueryError Unit
  | [] => .ok ()
  | item :: rest => do
    resolveNames binding item
    resolveItems binding rest

/-- Whether the names in the values of entries resolve. -/
def resolveEntries (binding : String) : List (String × Expr) → Except QueryError Unit
  | [] => .ok ()
  | (_, item) :: rest => do
    resolveNames binding item
    resolveEntries binding rest

end

end Folio.Expr
