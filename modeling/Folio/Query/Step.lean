import Folio.Progress
import Folio.Query.Token

/-!
# Parsing steps

A parser reads a value from the front of a token list and returns the rest with a proof that the
rest is shorter. Every parser therefore makes progress, and a loop of parsers ends. Parsers are put
together by `bind` and `map`, and repeated by `elements`, `commaSeparated` and `extended`.
-/

namespace Folio.Query

/-- A value read from a token list and the tokens that follow it, fewer than `bound`. -/
abbrev Step (α : Type) (bound : Nat) := Progress Token α bound

/-- The outcome of reading from a token list: a value or the fault that stops the reading. -/
abbrev Reading (α : Type) (bound : Nat) := Except LocatedFault (Step α bound)

/-- A reader of values that takes at least one token. -/
abbrev Parser (α : Type) := (ts : List Token) → Reading α ts.length

/-- A reader of values that may take no token. -/
abbrev OptionalParser (α : Type) := (ts : List Token) → Reading α (ts.length + 1)

/-! ## Sequences -/

/-- Reads what follows a token. -/
def past {α : Type} {n : Nat} (reading : Reading α n) : Reading α (n + 1) :=
  reading.map Progress.past

/-- Reads on after a step. -/
def Step.bind {α β : Type} {n : Nat} (step : Step α n) (next : α → Parser β) : Reading β n :=
  (next step.value step.rest).map step.after

/-- Reads on after a step, perhaps nothing. -/
def Step.bindOptional {α β : Type} {n : Nat} (step : Step α n) (next : α → OptionalParser β) :
    Reading β n :=
  (next step.value step.rest).map step.afterOptional

namespace Parser

/-- Reads a value and turns it into another. -/
def map {α β : Type} (p : Parser α) (f : α → β) : Parser β := fun ts =>
  (p ts).map (Progress.map f)

/-- Reads a value and then what it calls for. -/
def bind {α β : Type} (p : Parser α) (next : α → Parser β) : Parser β := fun ts =>
  (p ts).bind fun step => step.bind next

/-- Reads a value and then what it calls for, perhaps nothing. -/
def bindOptional {α β : Type} (p : Parser α) (next : α → OptionalParser β) : Parser β := fun ts =>
  (p ts).bind fun step => step.bindOptional next

end Parser

namespace OptionalParser

/-- Reads a value and turns it into another. -/
def map {α β : Type} (p : OptionalParser α) (f : α → β) : OptionalParser β := fun ts =>
  (p ts).map (Progress.map f)

end OptionalParser

/-! ## Tokens -/

/-- The lexeme at the front, the end of the text if there is none. -/
def current : List Token → Lexeme
  | t :: _ => t.lexeme
  | [] => .finish

/-- The place of the token at the front. -/
def offsetOf : List Token → Nat
  | t :: _ => t.offset
  | [] => 0

/-- The fault of meeting the front token where something else is wanted. -/
def unexpected {α : Type} (expected : Expected) (ts : List Token) : Except LocatedFault α :=
  .error ⟨offsetOf ts, .unexpectedToken expected (current ts)⟩

/-- The fault of nesting too deeply at the front token. -/
def tooDeep {α : Type} (ts : List Token) : Except LocatedFault α := .error ⟨offsetOf ts, .tooDeep⟩

/-- Reads a symbol. -/
def symbol (s : Symbol) : Parser Unit
  | ⟨.symbol found, offset⟩ :: rest =>
    if found = s then .ok (.leaving () rest)
    else unexpected (.symbol s) (⟨.symbol found, offset⟩ :: rest)
  | ts => unexpected (.symbol s) ts

/-- The tokens after a keyword at the front. -/
def keyword? (k : Keyword) : (ts : List Token) → Option (Step Unit ts.length)
  | ⟨.word w, _⟩ :: rest => if Keyword.ofWord? w = some k then some (.leaving () rest) else none
  | _ => none

/-- Reads a keyword. -/
def keyword (k : Keyword) : Parser Unit := fun ts =>
  match keyword? k ts with
  | some step => .ok step
  | none => unexpected (.keyword k) ts

/-- Reads any word as a name. -/
def name : Parser String
  | ⟨.word w, _⟩ :: rest => .ok (.leaving w rest)
  | ts => unexpected .name ts

/-- Reads a word that is no keyword. -/
def identifier : Parser String
  | ⟨.word w, offset⟩ :: rest =>
    if Keyword.ofWord? w = none then .ok (.leaving w rest)
    else unexpected .identifier (⟨.word w, offset⟩ :: rest)
  | ts => unexpected .identifier ts

/-- Reads what a keyword introduces, if the keyword is there. -/
def after? {α : Type} (k : Keyword) (p : Parser α) : OptionalParser (Option α) := fun ts =>
  match keyword? k ts with
  | none => .ok (.leaving none ts)
  | some step => past (step.bind fun _ => p.map some)

/-- Reads a value and the symbol after it. -/
def Parser.before {α : Type} (p : Parser α) (s : Symbol) : Parser α :=
  p.bind fun value => (symbol s).map fun _ => value

/-! ## Repetition -/

/-- Reads elements separated by commas up to a closing symbol. -/
def elements {α : Type} (close : Symbol) (element : Parser α) (ts : List Token) :
    Reading (List α) ts.length := do
  let ⟨first, rest, hrest⟩ ← element ts
  match rest, hrest with
  | ⟨.symbol s, offset⟩ :: more, hmore =>
    have hshorter : more.length < ts.length := Nat.lt_of_succ_lt hmore
    if s = close then return ⟨[first], more, hshorter⟩
    else if s = .comma then
      let ⟨others, last, hlast⟩ ← elements close element more
      return ⟨first :: others, last, Nat.lt_trans hlast hshorter⟩
    else unexpected (.symbol .comma) (⟨.symbol s, offset⟩ :: more)
  | others, _ => unexpected (.symbol .comma) others
termination_by ts.length
decreasing_by exact hshorter

/-- Reads a list of elements, possibly empty, up to and with its closing symbol. -/
def closedList {α : Type} (close : Symbol) (element : Parser α) : Parser (List α) := fun ts =>
  match ts with
  | ⟨.symbol s, offset⟩ :: rest =>
    if s = close then .ok (.leaving [] rest)
    else elements close element (⟨.symbol s, offset⟩ :: rest)
  | others => elements close element others

/-- Reads one or more elements separated by commas. -/
def commaSeparated {α : Type} (element : Parser α) (ts : List Token) :
    Reading (List α) ts.length := do
  let ⟨first, rest, hrest⟩ ← element ts
  match rest, hrest with
  | ⟨.symbol .comma, _⟩ :: more, hmore =>
    have hshorter : more.length < ts.length := Nat.lt_of_succ_lt hmore
    let ⟨others, last, hlast⟩ ← commaSeparated element more
    return ⟨first :: others, last, Nat.lt_trans hlast hshorter⟩
  | others, hothers => return ⟨[first], others, hothers⟩
termination_by ts.length
decreasing_by exact hshorter

/-- A reader of what may stand to the right of a value: nothing, or more that makes another value
of it. -/
abbrev Extension (α : Type) := α → (ts : List Token) → Option (Reading α ts.length)

/-- Reads extensions of the value read so far until there is none. -/
def Step.extend {α : Type} (more : Extension α) {n : Nat} (left : Step α n) : Reading α n :=
  match more left.value left.rest with
  | none => .ok left
  | some reading => do
    let step ← reading
    Step.extend more (left.after step)
termination_by left.rest.length
decreasing_by exact step.shorter

/-- Reads a value with all that extends it to the right. -/
def Parser.extended {α : Type} (p : Parser α) (more : Extension α) : Parser α := fun ts =>
  (p ts).bind (Step.extend more)

end Folio.Query
