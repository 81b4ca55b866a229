import Folio.Journal.Basic
import Folio.Query.Execution
import Folio.Query.Parser
import Folio.Query.Partition
import Folio.Text.Blank

/-!
# Sessions

A session is the life of one query: its text is parsed when the session starts, the statement is
compiled when that is first needed, and then it runs as often as the caller likes. The journal
records what happens.
-/

namespace Folio

/-- How a query is run. -/
structure Settings where
  /-- The field of a document that holds its identifier. -/
  identifierField : String := Identifier.defaultField
  scanRange : ScanRange := .full
  /-- The threshold of the query's journal lines in place of the journal's own. -/
  level : Option Level := none

/-- A query in use. -/
structure Session where
  /-- The text without blanks at its ends. -/
  text : String
  statement : Statement
  settings : Settings
  /-- The outcome of compiling, once that was done. -/
  compiled : Option (Except QueryError Procedure)

namespace Session

/-- Records that something was refused. -/
def reject (settings : Settings) (e : QueryError) : StateM Journal Unit :=
  modify (·.record settings.level .rejected [("code", e.code.text), ("message", e.message)])

/-- The session of a query text. -/
def start (text : String) (settings : Settings) : StateM Journal (Except QueryError Session) := do
  let trimmed := Text.trim text
  match Query.parse trimmed with
  | .ok statement =>
    modify (·.record settings.level .parsed [("collection", statement.collection)])
    return .ok ⟨trimmed, statement, settings, none⟩
  | .error fault =>
    let e := QueryError.ofFault trimmed fault
    reject settings e
    return .error e

/-- Whether the statement was compiled, with or without success. -/
def isCompiled (s : Session) : Bool := s.compiled.isSome

/-- The procedure of the statement, and the session that remembers it. -/
def compile (s : Session) : StateM Journal (Except QueryError Procedure × Session) := do
  match s.compiled with
  | some outcome => return (outcome, s)
  | none =>
    let outcome := s.statement.compile
    if outcome.isOk then
      modify (·.record s.settings.level .compiled
        [("order_clauses", toString s.statement.order.length)])
    return (outcome, { s with compiled := some outcome })

/-- Records the cut of a page, if it was cut. -/
def noteCut (settings : Settings) (page : Page) : StateM Journal Unit :=
  match page.next with
  | some checkpoint =>
    modify (·.record settings.level .pageTruncated
      [("round", toString checkpoint.round), ("skip", toString checkpoint.skip),
        ("total", toString checkpoint.total)])
  | none => pure ()

/-- Runs the query on a collection. -/
def run (s : Session) (collection : List Json) (request : Request) :
    StateM Journal (Except QueryError Outcome × Session) := do
  let (procedure, s) ← s.compile
  let outcome := procedure.bind fun p =>
    p.run (Identifier.ofField s.settings.identifierField) collection request
  if let .ok found := outcome then noteCut s.settings found.page
  return (outcome, s)

/-- Answers a request: runs the query and records the outcome. -/
def execute (s : Session) (collection : List Json) (request : Request) :
    StateM Journal (Except QueryError Page × Session) := do
  let (outcome, s) ← s.run collection request
  match outcome with
  | .ok found =>
    modify (·.count .rowsReturned found.returned)
    modify (·.record s.settings.level .executed
      [("has_more", toString found.hasMore), ("returned", toString found.returned),
        ("scanned", toString found.scanned)])
    return (.ok found.page, s)
  | .error e =>
    reject s.settings e
    return (.error e, s)

/-- The continuation that is handed out with a page. -/
def continuation? (s : Session) (page : Page) : Option Continuation :=
  page.continuation? s.settings.scanRange

/-- Whether the filter pins every path, each written with slashes. -/
def pinsAll (s : Session) (paths : List String) : Bool := s.statement.pinsAll paths

end Session

end Folio
