import Folio.Proofs.Journal.Notes
import Folio.Query.Session

/-!
# What a session gives and leaves

Each use of a session is described once: what it gives its caller, which session is left, and which
notes it leaves in the journal. Starting a session leaves one note, that its text was parsed or that
it was refused. The first use of a session whose statement compiles leaves a note of that; compiling
that fails leaves none, and no later use does either. A request leaves a note that it was refused,
or the cut of its page, the number of its rows and a note that it was answered.
-/

namespace Folio

namespace Session

/-- A session remembers at most the outcome of compiling its own statement. -/
def Faithful (s : Session) : Prop := s.compiled = none ∨ s.compiled = some s.statement.compile

/-- The session after its statement was compiled. -/
def afterCompile (s : Session) : Session := { s with compiled := some s.statement.compile }

/-- The session that a text starts. -/
def started (text : String) (settings : Settings) : Except QueryError Session :=
  match Query.parse (Text.trim text) with
  | .ok statement => .ok ⟨Text.trim text, statement, settings, none⟩
  | .error fault => .error (QueryError.ofFault (Text.trim text) fault)

/-- The note of a refusal. -/
def refusal (e : QueryError) : Note :=
  .event .rejected [("code", e.code.text), ("message", e.message)]

/-- What the start of a session leaves. -/
def startNotes (text : String) : List Note :=
  match Query.parse (Text.trim text) with
  | .ok statement => [.event .parsed [("collection", statement.collection)]]
  | .error fault => [refusal (QueryError.ofFault (Text.trim text) fault)]

/-- What compiling leaves. -/
def compileNotes (s : Session) : List Note :=
  if !s.isCompiled && s.statement.compile.isOk then
    [.event .compiled [("order_clauses", toString s.statement.order.length)]]
  else []

/-- What the cut of a page leaves. -/
def cutNotes (page : Page) : List Note :=
  match page.next with
  | some checkpoint =>
    [.event .pageTruncated [("round", toString checkpoint.round),
      ("skip", toString checkpoint.skip), ("total", toString checkpoint.total)]]
  | none => []

/-- The outcome of a request. -/
def outcome (s : Session) (collection : List Json) (request : Request) :
    Except QueryError Outcome :=
  s.statement.compile.bind fun p =>
    p.run (.ofField s.settings.identifierField) collection request

/-- What a request leaves, once the statement was compiled. -/
def answerNotes : Except QueryError Outcome → List Note
  | .ok found => cutNotes found.page ++
    [.rows found.returned, .event .executed [("has_more", toString found.hasMore),
      ("returned", toString found.returned), ("scanned", toString found.scanned)]]
  | .error e => [refusal e]

variable {s : Session}

/-- A text starts the session of the statement that it is parsed into. -/
theorem started_eq_ok_iff {text : String} {settings : Settings} :
    started text settings = .ok s ↔ ∃ statement, Query.parse (Text.trim text) = .ok statement ∧
      s = ⟨Text.trim text, statement, settings, none⟩ := by
  unfold started
  cases Query.parse (Text.trim text) <;> simp [eq_comm]

/-- Starting a session leaves its note. -/
theorem start_eq (text : String) (settings : Settings) (journal : Journal) :
    (start text settings).run journal =
      (started text settings, journal.noteAll settings.level (startNotes text)) := by
  unfold start started startNotes
  simp only
  cases Query.parse (Text.trim text) <;> rfl

/-- Compiling leaves a note the first time, if it succeeds. -/
theorem compile_eq (h : s.Faithful) (journal : Journal) :
    s.compile.run journal =
      ((s.statement.compile, s.afterCompile),
        journal.noteAll s.settings.level s.compileNotes) := by
  obtain ⟨text, statement, settings, compiled⟩ := s
  unfold compile compileNotes isCompiled afterCompile
  rcases h with h | h
  · obtain rfl : compiled = none := h
    by_cases hok : statement.compile.isOk = true <;> simp [hok] <;> rfl
  · obtain rfl : compiled = some statement.compile := h
    rfl

/-- Noting the cut of a page. -/
theorem noteCut_eq (settings : Settings) (page : Page) (journal : Journal) :
    (noteCut settings page).run journal =
      ((), journal.noteAll settings.level (cutNotes page)) := by
  unfold noteCut cutNotes
  cases page.next <;> rfl

/-- What running leaves, once the statement was compiled. -/
def runNotes : Except QueryError Outcome → List Note
  | .ok found => cutNotes found.page
  | .error _ => []

/-- Running leaves the notes of compiling and of the cut of the page. -/
theorem run_eq (h : s.Faithful) (collection : List Json) (request : Request)
    (journal : Journal) :
    (s.run collection request).run journal =
      ((s.outcome collection request, s.afterCompile),
        (journal.noteAll s.settings.level s.compileNotes).noteAll s.settings.level
          (runNotes (s.outcome collection request))) := by
  have houtcome : (s.statement.compile.bind fun p =>
      p.run (.ofField s.afterCompile.settings.identifierField) collection request) =
        s.outcome collection request := rfl
  unfold Session.run
  rw [StateT.run_bind, compile_eq h]
  simp only [bind]
  rw [houtcome]
  cases s.outcome collection request with
  | error e => rfl
  | ok found =>
    change StateT.run (noteCut s.settings found.page >>= fun _ => pure _) _ = _
    rw [StateT.run_bind, noteCut_eq]
    rfl

/-- Answering a request leaves the notes of compiling, of the page and of the outcome. -/
theorem execute_eq (h : s.Faithful) (collection : List Json) (request : Request)
    (journal : Journal) :
    (s.execute collection request).run journal =
      (((s.outcome collection request).map Outcome.page, s.afterCompile),
        (journal.noteAll s.settings.level s.compileNotes).noteAll s.settings.level
          (answerNotes (s.outcome collection request))) := by
  unfold execute
  rw [StateT.run_bind, run_eq h]
  cases s.outcome collection request with
  | error e => rfl
  | ok found =>
    rw [answerNotes, Journal.noteAll_append]
    rfl

end Session

end Folio
