import Folio.Error
import Folio.Json.NumberValue
import Folio.Json.Written
import Folio.Paging.Checkpoint
import Folio.Text.Base64Url
import Folio.Text.Blank

/-!
# Continuation tokens

A token is the written form of a checkpoint in base 64. Reading is strict about what it needs and
passes over fields that it does not know. A record may also be written as the list of its fields,
and containers are read to a limited depth.
-/

namespace Folio

/-- The number of containers that may be nested in a token. -/
def tokenDepth : Nat := 127

/-- The depth that remains inside a container. -/
def inside? : Nat → Option Nat
  | 0 => none
  | depth + 1 => some depth

/-- The text in quotes. -/
def Json.quotedText? (parts : List Json.QuotedPart) : Option String :=
  (Json.textOfParts? parts).map String.ofList

namespace Value

open Json (Written quotedText?)

/-- The value of a kind that has only one. -/
def ofKind? : Kind → Option Value
  | .absent => some .absent
  | .null => some .null
  | _ => none

mutual

/-- The value that is written with the tag of its kind, with containers nested to the depth. -/
def ofWritten? (depth : Nat) : Written → Option Value
  | .string parts => do
    let kind ← Kind.ofTag? (← quotedText? parts)
    ofKind? kind
  | .object [(key, body)] => do
    let inner ← inside? depth
    let kind ← Kind.ofTag? (← quotedText? key)
    ofBody? inner kind body
  | _ => none

/-- The value of a kind whose body is written. -/
def ofBody? (depth : Nat) : Kind → Written → Option Value
  | .boolean, .bool b => some (.bool b)
  | .number, .number n => do return .number (← n.number?)
  | .string, .string parts => do return .string (← quotedText? parts)
  | .array, .array items => do return .array (← ofWrittenItems? (← inside? depth) items)
  | .object, .array pairs => do return .object (← ofWrittenPairs? (← inside? depth) pairs)
  | kind, .null => ofKind? kind
  | _, _ => none

/-- The values that are written as the elements of an array. -/
def ofWrittenItems? (depth : Nat) : List Written → Option (List Value)
  | [] => some []
  | item :: rest => do
    let value ← ofWritten? depth item
    let values ← ofWrittenItems? depth rest
    return value :: values

/-- The entries that are written as pairs of a key and a value. -/
def ofWrittenPairs? (depth : Nat) : List Written → Option (List (String × Value))
  | [] => some []
  | .array [.string key, body] :: rest => do
    let name ← quotedText? key
    let value ← ofWritten? (← inside? depth) body
    let entries ← ofWrittenPairs? depth rest
    return (name, value) :: entries
  | _ => none

end

end Value

namespace Checkpoint

open Json (Written quotedText?)

/-- The natural number below `2 ^ 64` that is written. -/
def counter? : Written → Option Nat
  | .number n => n.natural?
  | _ => none

/-- The sort keys that are written, null for none. -/
def resume? (depth : Nat) : Written → Option (Option (List Value))
  | .null => some none
  | .array items => return some (← Value.ofWrittenItems? (← inside? depth) items)
  | _ => none

/-- The members of an object with the names that their keys stand for. -/
def named? (members : List (List Json.QuotedPart × Written)) : Option (List (String × Written)) :=
  members.mapM fun (key, body) => (quotedText? key).map (·, body)

/-- The field of that name, which may not occur twice. -/
def field? (name : String) (fields : List (String × Written)) : Option (Option Written) :=
  match fields.filter fun field => field.1 == name with
  | [] => some none
  | [field] => some (some field.2)
  | _ => none

/-- The checkpoint with these fields, containers nested to the depth. -/
def ofFields? (depth : Nat) (identifier round skip total : Written) (resume : Option Written) :
    Option Checkpoint := do
  return {
    identifier := ← Value.ofWritten? depth identifier
    round := ← counter? round
    skip := ← counter? skip
    total := ← counter? total
    resume := ← (resume.map (resume? depth)).getD (some none) }

/-- The checkpoint that is written as an object or as the list of its fields. -/
def ofWritten? : Written → Option Checkpoint
  | .object members => do
    let depth ← inside? tokenDepth
    let fields ← named? members
    let identifier ← field? "RID" fields
    let round ← field? "RT" fields
    let skip ← field? "SRC" fields
    let total ← field? "TRC" fields
    let resume ← field? "RTD" fields
    ofFields? depth (← identifier) (← round) (← skip) (← total) resume
  | .array [identifier, round, skip, total] => do
    ofFields? (← inside? tokenDepth) identifier round skip total none
  | .array [identifier, round, skip, total, resume] => do
    ofFields? (← inside? tokenDepth) identifier round skip total (some resume)
  | _ => none

/-- The token of a checkpoint. -/
def token (c : Checkpoint) : String := Text.Base64Url.encode (Text.bytes c.toJson.chars)

/-- The checkpoint that a token stands for. Blanks around the token do not count. -/
def ofToken (token : String) : Except TokenFault Checkpoint :=
  match Text.Base64Url.decode? (Text.trim token) with
  | none => .error .encoding
  | some bytes =>
    match (Written.read? (Text.charsOfBytes bytes)).bind ofWritten? with
    | some checkpoint => .ok checkpoint
    | none => .error .malformed

end Checkpoint

end Folio
