import Folio.Error
import Folio.Value.Arithmetic
import Folio.Value.Comparison

/-!
# Operators by their texts

A host that holds an operator as text asks for the operator; a text that is none is an error.
-/

namespace Folio

/-- An operator, or the error that the text is none. -/
def supported {α : Type} (found : Option α) (text : String) : Except QueryError α :=
  match found with
  | some op => .ok op
  | none => .error (.unsupportedOperator text)

/-- The relational operator written so. -/
def Relation.ofText (text : String) : Except QueryError Relation :=
  supported (Relation.ofText? text) text

/-- The binary numeric operator written so. -/
def Arithmetic.ofText (text : String) : Except QueryError Arithmetic :=
  supported (Arithmetic.ofText? text) text

/-- The unary numeric operator written so. -/
def Sign.ofText (text : String) : Except QueryError Sign := supported (Sign.ofText? text) text

end Folio
