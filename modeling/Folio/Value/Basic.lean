import Folio.Entries
import Folio.Number.Basic

/-!
# Values

A value is JSON data or its absence. An object is a list of entries in the order in which they
were written. Reading a key takes its first entry, and inserting keeps the place of that entry.
-/

namespace Folio

/-- The kinds of values, in the order in which values of different kinds sort. -/
inductive Kind where
  | absent
  | null
  | boolean
  | number
  | string
  | array
  | object
  deriving DecidableEq

namespace Kind

/-- All kinds in their order. -/
def all : List Kind := [.absent, .null, .boolean, .number, .string, .array, .object]

/-- The name of a kind. -/
def name : Kind → String
  | .absent => "undefined"
  | .null => "null"
  | .boolean => "boolean"
  | .number => "number"
  | .string => "string"
  | .array => "array"
  | .object => "object"

/-- The place of a kind in the order of kinds. -/
def rank : Kind → Nat
  | .absent => 0
  | .null => 1
  | .boolean => 2
  | .number => 3
  | .string => 4
  | .array => 5
  | .object => 6

end Kind

/-- JSON data, or the absence of any. -/
inductive Value where
  | absent
  | null
  | bool (b : Bool)
  | number (n : Number)
  | string (s : String)
  | array (items : List Value)
  | object (entries : List (String × Value))
  deriving Inhabited

namespace Value

/-- The kind of a value. -/
def kind : Value → Kind
  | .absent => .absent
  | .null => .null
  | .bool _ => .boolean
  | .number _ => .number
  | .string _ => .string
  | .array _ => .array
  | .object _ => .object

/-- Whether there is no value. -/
def isAbsent : Value → Bool
  | .absent => true
  | _ => false

/-- The boolean that the value is. -/
def bool? : Value → Option Bool
  | .bool b => some b
  | _ => none

/-- The number that the value is. -/
def number? : Value → Option Number
  | .number n => some n
  | _ => none

/-- The string that the value is. -/
def string? : Value → Option String
  | .string s => some s
  | _ => none

/-- The value of the first entry with the key. -/
def get? (key : String) : Value → Option Value
  | .object entries => entries.lookup key
  | _ => none

/-- The value of the first entry with the key, absent if there is none. -/
def get (key : String) (v : Value) : Value := (v.get? key).getD .absent

/-- The object with an entry set; other values stay as they are. -/
def insert (v : Value) (key : String) (value : Value) : Value :=
  match v with
  | .object entries => .object (Entries.set key value entries)
  | _ => v

/-- Whether a value can serve as an identifier: zero, not-a-number, the empty string, false, null
and absence cannot. -/
def isTruthy : Value → Bool
  | .absent => false
  | .null => false
  | .bool b => b
  | .number n => !n.isZero && !n.isNaN
  | .string s => s != ""
  | .array _ => true
  | .object _ => true

end Value

end Folio
