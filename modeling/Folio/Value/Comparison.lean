import Folio.Value.Truth
import Folio.Text.Units

/-!
# Equality and comparison of values

Filters compare values of one kind only. Equality of two present values is known, and false across
kinds. A relation is known only between two values of one primitive kind; not-a-number is related
to nothing.
-/

namespace Folio

/-- The relational operators. -/
inductive Relation where
  | less
  | atMost
  | greater
  | atLeast
  deriving DecidableEq

namespace Relation

/-- The operator as it is written. -/
def text : Relation → String
  | .less => "<"
  | .atMost => "<="
  | .greater => ">"
  | .atLeast => ">="

/-- All relational operators. -/
def all : List Relation := [.less, .atMost, .greater, .atLeast]

/-- The relational operator written so. -/
def ofText? (s : String) : Option Relation := all.find? fun r => r.text == s

/-- Whether two values in the given order are related. -/
def holds : Relation → Ordering → Bool
  | .less, order => order == .lt
  | .atMost, order => order != .gt
  | .greater, order => order == .gt
  | .atLeast, order => order != .lt

end Relation

namespace Value

/-- Whether two values are of one kind and present. -/
def sameKind (a b : Value) : Bool := a.kind == b.kind && a.kind != .absent

mutual

/-- Equality by content. Two objects are equal if they have as many entries and each entry of the
first has an equal value under its key in the second. -/
def deepEqual : Value → Value → Bool
  | .absent, .absent => true
  | .null, .null => true
  | .bool x, .bool y => x == y
  | .number x, .number y => x.equal y
  | .string x, .string y => x == y
  | .array xs, .array ys => itemsEqual xs ys
  | .object xs, .object ys => xs.length == ys.length && entriesEqual xs ys
  | _, _ => false

/-- Pointwise equality of two lists of one length. -/
def itemsEqual : List Value → List Value → Bool
  | [], [] => true
  | x :: xs, y :: ys => deepEqual x y && itemsEqual xs ys
  | _, _ => false

/-- Whether each entry has an equal value under its key among the other entries. -/
def entriesEqual : List (String × Value) → List (String × Value) → Bool
  | [], _ => true
  | (key, value) :: rest, others =>
    deepEqual value ((others.lookup key).getD .absent) && entriesEqual rest others

end

/-- Equality as filters see it: unknown if a side is absent. -/
def equal (a b : Value) : Truth :=
  if a.isAbsent || b.isAbsent then .unknown
  else if a.sameKind b then .ofBool (a.deepEqual b)
  else .false

/-- The negation of equality. -/
def notEqual (a b : Value) : Truth := (a.equal b).not

/-- The order of two primitive values of one kind. -/
def primitiveCompare? : Value → Value → Option Ordering
  | .null, .null => some .eq
  | .bool x, .bool y => some (compare x y)
  | .number x, .number y => x.compare? y
  | .string x, .string y => some (Text.compareUnits x y)
  | _, _ => none

/-- Whether the value is an array or an object. -/
def isComposite : Value → Bool
  | .array _ => true
  | .object _ => true
  | _ => false

/-- A relation as filters see it: unknown across kinds and for arrays and objects. -/
def relate (relation : Relation) (a b : Value) : Truth :=
  if a.sameKind b && !a.isComposite then
    .ofBool ((primitiveCompare? a b).any relation.holds)
  else .unknown

end Value

end Folio
