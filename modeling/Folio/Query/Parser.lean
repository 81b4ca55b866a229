import Folio.Query.Grammar
import Folio.Query.Scan
import Folio.Query.Statement
import Folio.Expr.Path

/-!
# From text to statements

A statement is SELECT with an optional TOP, FROM, an optional WHERE and an optional ORDER BY, in
this order, and nothing after them.
-/

namespace Folio.Query

/-- The greatest count that TOP can ask for; a larger number asks for this one. -/
def maxCount : Nat := UInt64.size - 1

/-- Reads the count after TOP: a whole number that is not negative. -/
def topCount : Parser Nat
  | ⟨.number n, offset⟩ :: rest =>
    if n.isWhole && 0 ≤ n.rank then .ok (.leaving (min n.truncate.toNat maxCount) rest)
    else .error ⟨offset, .invalidTop⟩
  | ts => .error ⟨offsetOf ts, .invalidTop⟩

/-- Reads an entry of a SELECT list. -/
def selectItem : Parser SelectItem :=
  expression.bindOptional fun e => (after? .asAlias name).map fun given => ⟨e, given⟩

/-- Reads what to select. -/
def selection : Parser Selection
  | ⟨.symbol .star, _⟩ :: rest => .ok (.leaving .all rest)
  | others =>
    match keyword? .value others with
    | some step => step.bind fun _ => expression.map .value
    | none => (commaSeparated selectItem others).map (Progress.map .items)

/-- Reads the name that a collection goes by, if one follows. -/
def givenName : OptionalParser (Option String) := fun ts =>
  match keyword? .asAlias ts with
  | some step => past (step.bind fun _ => identifier.map some)
  | none =>
    match ts with
    | ⟨.word w, offset⟩ :: rest =>
      if Keyword.ofWord? w = none then .ok (Progress.leaving (some w) rest).past
      else .ok (.leaving none (⟨.word w, offset⟩ :: rest))
    | others => .ok (.leaving none others)

/-- Reads a direction; ascending if none is there. -/
def direction : OptionalParser Direction := fun ts =>
  match keyword? .descending ts, keyword? .ascending ts with
  | some step, _ => .ok (step.map fun _ => .descending).past
  | none, some step => .ok (step.map fun _ => .ascending).past
  | none, none => .ok (.leaving .ascending ts)

/-- Whether an expression is a path with at least one key. -/
def isProperPath (e : Expr) : Bool :=
  match e.path? with
  | some (_, keys) => !keys.isEmpty
  | none => false

/-- Reads an entry of an ORDER BY list. -/
def orderItem : Parser OrderItem := fun ts => do
  let step ← expression ts
  if isProperPath step.value then
    step.bindOptional fun e => direction.map fun d => ⟨e, d⟩
  else .error ⟨offsetOf ts, .orderNotPath⟩

/-- Reads the list after ORDER. -/
def orderList : Parser (List OrderItem) :=
  (keyword .byKeys).bind fun _ => commaSeparated orderItem

/-- Reads SELECT and the count after TOP. -/
def opening : Parser (Option Nat) :=
  (keyword .select).bindOptional fun _ => after? .top topCount

/-- Reads FROM with the collection and the name that it goes by. -/
def source : Parser (String × Option String) :=
  (keyword .fromCollection).bind fun _ =>
    identifier.bindOptional fun collection => givenName.map fun given => (collection, given)

/-- Reads a statement up to its collection. -/
def bare : Parser Statement :=
  opening.bind fun top =>
    selection.bind fun chosen =>
      source.map fun (collection, given) => ⟨top, chosen, collection, given, none, []⟩

/-- Reads a statement up to its filter. -/
def filtered : Parser Statement :=
  bare.bindOptional fun s =>
    (after? .whereFilter expression).map fun filter => { s with filter := filter }

/-- Reads a statement. -/
def statement : Parser Statement :=
  filtered.bindOptional fun s =>
    (after? .order orderList).map fun order => { s with order := order.getD [] }

/-- The statement that a text is, up to its end. -/
def parse (text : String) : Except LocatedFault Statement := do
  let ts ← tokens text
  let step ← statement ts
  if current step.rest = .finish then return step.value else unexpected .endOfQuery step.rest

end Folio.Query
