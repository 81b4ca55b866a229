import Folio.Json.Lexeme
import Folio.Progress

/-!
# Written JSON

A JSON text read into a tree, with numbers and quoted texts as they are written and repeated keys
kept. The tree says what is written where; whoever needs a value decides what the writing means, and
may pass over the rest.
-/

namespace Folio.Json

/-- A JSON text as a tree. -/
inductive Written where
  | null
  | bool (b : Bool)
  | number (n : NumberText)
  | string (parts : List QuotedPart)
  | array (items : List Written)
  | object (members : List (List QuotedPart × Written))

namespace Written

mutual

/-- Reads a tree from lexemes. -/
def readValue (ls : List Lexeme) : Option (Progress Lexeme Written ls.length) :=
  match ls with
  | .null :: rest => some (.leaving .null rest)
  | .bool b :: rest => some (.leaving (.bool b) rest)
  | .number n :: rest => some (.leaving (.number n) rest)
  | .string parts :: rest => some (.leaving (.string parts) rest)
  | .openArray :: .closeArray :: rest => some (Progress.leaving (.array []) rest).past
  | .openArray :: rest => (readItems rest).map fun step => (step.map .array).past
  | .openObject :: .closeObject :: rest => some (Progress.leaving (.object []) rest).past
  | .openObject :: rest => (readMembers rest).map fun step => (step.map .object).past
  | _ => none
termination_by (ls.length, 0)

/-- Reads the elements of an array and the bracket that closes it. -/
def readItems (ls : List Lexeme) : Option (Progress Lexeme (List Written) ls.length) := do
  let ⟨item, afterItem, hitem⟩ ← readValue ls
  match afterItem, hitem with
  | .closeArray :: rest, hrest => return ⟨[item], rest, Nat.lt_of_succ_lt hrest⟩
  | .comma :: rest, hrest =>
    have hshorter : rest.length < ls.length := Nat.lt_of_succ_lt hrest
    let ⟨items, last, hlast⟩ ← readItems rest
    return ⟨item :: items, last, Nat.lt_trans hlast hshorter⟩
  | _, _ => none
termination_by (ls.length, 1)

/-- Reads the members of an object and the brace that closes it. -/
def readMembers (ls : List Lexeme) :
    Option (Progress Lexeme (List (List QuotedPart × Written)) ls.length) :=
  match ls with
  | .string key :: .colon :: start => do
    let ⟨value, afterValue, hvalue⟩ ← readValue start
    match afterValue, hvalue with
    | .closeObject :: rest, hrest =>
      return (Progress.mk [(key, value)] rest (Nat.lt_of_succ_lt hrest)).past.past
    | .comma :: rest, hrest =>
      have hshorter : rest.length < start.length := Nat.lt_of_succ_lt hrest
      let ⟨members, last, hlast⟩ ← readMembers rest
      return (Progress.mk ((key, value) :: members) last (Nat.lt_trans hlast hshorter)).past.past
    | _, _ => none
  | _ => none
termination_by (ls.length, 1)

end

/-- The tree of a whole text. -/
def read? (text : List (Option Char)) : Option Written := do
  let found ← lexemes? text
  let step ← readValue found
  if step.rest = [] then return step.value else none

end Written

end Folio.Json
