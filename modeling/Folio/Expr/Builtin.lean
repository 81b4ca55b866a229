import Folio.Number.Rounding
import Folio.Text.Case
import Folio.Value.Comparison

/-!
# Built-in functions

A built-in function is total on values: an argument of the wrong kind, or one that is missing, makes
the result absent or false, never an error.
-/

namespace Folio

/-- Whether the characters occur in a row somewhere in the text. -/
def Text.occursIn (part : List Char) : List Char → Bool
  | [] => part.isEmpty
  | c :: cs => part.isPrefixOf (c :: cs) || Text.occursIn part cs

/-- The built-in functions. -/
inductive Builtin where
  | isDefined
  | isNull
  | isBool
  | isNumber
  | isString
  | isArray
  | isObject
  | isPrimitive
  | abs
  | floor
  | ceiling
  | concat
  | contains
  | startsWith
  | endsWith
  | lower
  | upper
  | length
  | arrayLength
  | arrayContains
  deriving DecidableEq

namespace Builtin

/-- The name of a function in a query. -/
def name : Builtin → String
  | .isDefined => "IS_DEFINED"
  | .isNull => "IS_NULL"
  | .isBool => "IS_BOOL"
  | .isNumber => "IS_NUMBER"
  | .isString => "IS_STRING"
  | .isArray => "IS_ARRAY"
  | .isObject => "IS_OBJECT"
  | .isPrimitive => "IS_PRIMITIVE"
  | .abs => "ABS"
  | .floor => "FLOOR"
  | .ceiling => "CEILING"
  | .concat => "CONCAT"
  | .contains => "CONTAINS"
  | .startsWith => "STARTSWITH"
  | .endsWith => "ENDSWITH"
  | .lower => "LOWER"
  | .upper => "UPPER"
  | .length => "LENGTH"
  | .arrayLength => "ARRAY_LENGTH"
  | .arrayContains => "ARRAY_CONTAINS"

/-- All built-in functions. -/
def all : List Builtin :=
  [.isDefined, .isNull, .isBool, .isNumber, .isString, .isArray, .isObject, .isPrimitive, .abs,
    .floor, .ceiling, .concat, .contains, .startsWith, .endsWith, .lower, .upper, .length,
    .arrayLength, .arrayContains]

/-- The function of that name. -/
def ofName? (s : String) : Option Builtin := all.find? fun f => f.name == s

/-- Whether the function takes that many arguments. -/
def accepts : Builtin → Nat → Bool
  | .concat, count => 2 ≤ count
  | .contains, count => count == 2
  | .startsWith, count => count == 2
  | .endsWith, count => count == 2
  | .arrayContains, count => count == 2
  | _, count => count == 1

/-- A function of a number as a function of a value. -/
def onNumber (f : Number → Number) : Value → Value
  | .number n => .number (f n)
  | _ => .absent

/-- A function of a string as a function of a value. -/
def onString (f : String → Value) : Value → Value
  | .string s => f s
  | _ => .absent

/-- A test of two strings as a function of two values. -/
def onStrings (test : String → String → Bool) : Value → Value → Value
  | .string a, .string b => .bool (test a b)
  | _, _ => .absent

/-- A function of the elements of an array as a function of a value. -/
def onArray (f : List Value → Value) : Value → Value
  | .array items => f items
  | _ => .absent

/-- All arguments joined, absent unless every one is a string. -/
def joined (args : List Value) : Value :=
  match args.mapM Value.string? with
  | some texts => .string (String.join texts)
  | none => .absent

/-- The kinds without parts. -/
def primitiveKinds : List Kind := [.null, .boolean, .number, .string]

/-- The value of a call. CONCAT joins all arguments; the others read the first two, absent where
there are fewer. -/
def call (f : Builtin) (args : List Value) : Value :=
  let v := (args[0]?).getD .absent
  let w := (args[1]?).getD .absent
  match f with
  | .isDefined => .bool !v.isAbsent
  | .isNull => .bool (v.kind == .null)
  | .isBool => .bool (v.kind == .boolean)
  | .isNumber => .bool (v.kind == .number)
  | .isString => .bool (v.kind == .string)
  | .isArray => .bool (v.kind == .array)
  | .isObject => .bool (v.kind == .object)
  | .isPrimitive => .bool (primitiveKinds.contains v.kind)
  | .abs => onNumber Number.abs v
  | .floor => onNumber Number.floor v
  | .ceiling => onNumber Number.ceiling v
  | .concat => joined args
  | .contains => onStrings (fun a b => Text.occursIn b.toList a.toList) v w
  | .startsWith => onStrings (fun a b => b.toList.isPrefixOf a.toList) v w
  | .endsWith => onStrings (fun a b => b.toList.isSuffixOf a.toList) v w
  | .lower => onString (fun s => .string (Text.lowercase s)) v
  | .upper => onString (fun s => .string (Text.uppercase s)) v
  | .length => onString (fun s => .number (Number.ofNat (Text.unitCount s))) v
  | .arrayLength => onArray (fun items => .number (Number.ofNat items.length)) v
  | .arrayContains => onArray (fun items => .bool (items.any fun i => (i.equal w).isTrue)) v

end Builtin

end Folio
