import Folio.Json.Text
import Folio.Value.Basic

/-!
# Checkpoints

A checkpoint says where the next page of a scan begins. Its written form keeps the kind of every
value, so that null and absence stay apart.
-/

namespace Folio

/-- A counter of 64 bits, which starts again at zero when it runs over. -/
def wrapCounter (n : Nat) : Nat := n % UInt64.size

/-- The place of the first row that is not yet handed out. -/
structure Checkpoint where
  /-- The identifier of that row. -/
  identifier : Value
  /-- How many pages were cut so far. -/
  round : Nat
  /-- How many rows with the identifier directly before that row. -/
  skip : Nat
  /-- How many rows were handed out so far. -/
  total : Nat
  /-- The sort keys of that row; a scan without an order has none. -/
  resume : Option (List Value)

namespace Kind

/-- The tag of a kind in written values. -/
def tag : Kind → String
  | .absent => "Absent"
  | .null => "Null"
  | .boolean => "Bool"
  | .number => "Number"
  | .string => "String"
  | .array => "Array"
  | .object => "Object"

/-- The kind with the tag. -/
def ofTag? (s : String) : Option Kind := all.find? fun k => k.tag == s

end Kind

namespace Value

mutual

/-- A value with the tag of its kind. -/
def tagged : Value → Json
  | .absent => .string Kind.absent.tag
  | .null => .string Kind.null.tag
  | .bool b => .object [(Kind.boolean.tag, .bool b)]
  | .number n => .object [(Kind.number.tag, .float n)]
  | .string s => .object [(Kind.string.tag, .string s)]
  | .array items => .object [(Kind.array.tag, .array (taggedItems items))]
  | .object entries => .object [(Kind.object.tag, .array (taggedEntries entries))]

/-- The tagged elements of an array. -/
def taggedItems : List Value → List Json
  | [] => []
  | item :: rest => tagged item :: taggedItems rest

/-- The entries of an object as pairs of a key and a tagged value. -/
def taggedEntries : List (String × Value) → List Json
  | [] => []
  | (key, value) :: rest => .array [.string key, tagged value] :: taggedEntries rest

end

end Value

/-- The written form of a checkpoint. -/
def Checkpoint.toJson (c : Checkpoint) : Json :=
  let resume :=
    match c.resume with
    | some keys => [("RTD", Json.array (Value.taggedItems keys))]
    | none => []
  .object ([("RID", c.identifier.tagged), ("RT", .integer c.round), ("SRC", .integer c.skip),
    ("TRC", .integer c.total)] ++ resume)

end Folio
