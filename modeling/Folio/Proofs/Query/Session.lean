import Folio.Proofs.Query.Notes
import Folio.Proofs.Sequence

/-!
# What a session answers

A session remembers the outcome of compiling its statement and nothing else that matters for its
answers. Whatever it was used for before, and whatever the journal holds, it answers a request by
running the procedure of its statement.
-/

namespace Folio

namespace Session

/-- The answer of a session to a request. -/
def answer (s : Session) (collection : List Json) (request : Request) (journal : Journal) :
    Except QueryError Page :=
  ((s.execute collection request).run journal).1.1

/-- The sessions that a query text can lead to: the one that starts with it, and whatever compiling
and running make of one. -/
inductive InUse (text : String) (settings : Settings) : Session → Prop
  | started {s : Session} {journal later : Journal}
    (h : (start text settings).run journal = (.ok s, later)) : InUse text settings s
  | compiled {s s' : Session} {journal later : Journal} {outcome : Except QueryError Procedure}
    (hused : InUse text settings s) (h : s.compile.run journal = ((outcome, s'), later)) :
    InUse text settings s'
  | executed {s s' : Session} {journal later : Journal} {collection : List Json}
    {request : Request} {outcome : Except QueryError Page} (hused : InUse text settings s)
    (h : (s.execute collection request).run journal = ((outcome, s'), later)) :
    InUse text settings s'

/-- A session that a text starts is in use. -/
theorem InUse.of_start {text : String} {settings : Settings} {s : Session} {journal : Journal}
    (h : ((start text settings).run journal).1 = .ok s) : InUse text settings s :=
  .started (Prod.ext h rfl)

variable {s : Session}

/-- Compiling gives the outcome of compiling the statement and remembers it. -/
theorem compile_run (h : s.Faithful) (journal : Journal) :
    (s.compile.run journal).1 = (s.statement.compile, s.afterCompile) :=
  congrArg Prod.fst (compile_eq h journal)

/-- Executing gives the page of the procedure of the statement. -/
theorem execute_run (h : s.Faithful) (collection : List Json) (request : Request)
    (journal : Journal) :
    ((s.execute collection request).run journal).1 =
      ((s.outcome collection request).map Outcome.page, s.afterCompile) :=
  congrArg Prod.fst (execute_eq h collection request journal)

/-- A session starts with the statement that its text is parsed into. -/
theorem start_spec {text : String} {settings : Settings} {journal later : Journal}
    (h : (start text settings).run journal = (.ok s, later)) :
    Query.parse (Text.trim text) = .ok s.statement ∧ s.settings = settings ∧ s.Faithful := by
  rw [start_eq] at h
  obtain ⟨statement, hparse, rfl⟩ := started_eq_ok_iff.mp (congrArg Prod.fst h)
  exact ⟨hparse, rfl, Or.inl rfl⟩

/-- **Sessions in use.** A session in use has the statement that its text is parsed into and the
settings that it started with, and remembers at most the outcome of compiling that statement. -/
theorem InUse.spec {text : String} {settings : Settings} (h : InUse text settings s) :
    Query.parse (Text.trim text) = .ok s.statement ∧ s.settings = settings ∧ s.Faithful := by
  induction h with
  | started h => exact start_spec h
  | @compiled s s' journal later outcome _ h ih =>
    obtain ⟨hparse, hsettings, hfaithful⟩ := ih
    have hcompile := compile_run hfaithful journal
    rw [h] at hcompile
    obtain rfl : s' = s.afterCompile := congrArg Prod.snd hcompile
    exact ⟨hparse, hsettings, Or.inr rfl⟩
  | @executed s s' journal later collection request outcome _ h ih =>
    obtain ⟨hparse, hsettings, hfaithful⟩ := ih
    have hexecute := execute_run hfaithful collection request journal
    rw [h] at hexecute
    obtain rfl : s' = s.afterCompile := congrArg Prod.snd hexecute
    exact ⟨hparse, hsettings, Or.inr rfl⟩

/-- **Answers.** Two sessions of one text with one set of settings give the same answers, whatever
they were used for and whatever the journals hold. -/
theorem InUse.answer_eq {text : String} {settings : Settings} (h : InUse text settings s)
    {statement : Statement} (hparse : Query.parse (Text.trim text) = .ok statement)
    (collection : List Json) (request : Request) (journal : Journal) :
    s.answer collection request journal =
      (statement.compile.bind fun p =>
        p.run (.ofField settings.identifierField) collection request).map Outcome.page := by
  obtain ⟨hstatement, hsettings, hfaithful⟩ := h.spec
  obtain rfl := Except.ok.inj (hstatement.symm.trans hparse)
  rw [answer, execute_run hfaithful, outcome, hsettings]

/-- A session in use that answers with a page has run the procedure of its statement. -/
theorem InUse.exists_run_of_answer {text : String} {settings : Settings}
    (h : InUse text settings s) {collection : List Json} {request : Request} {journal : Journal}
    {page : Page} (hanswer : s.answer collection request journal = .ok page) :
    ∃ p, s.statement.compile = .ok p ∧
      (p.run (.ofField settings.identifierField) collection request).map Outcome.page =
        .ok page := by
  rw [h.answer_eq h.spec.1] at hanswer
  obtain ⟨outcome, hbind, hpage⟩ := map_eq_ok_iff.mp hanswer
  obtain ⟨p, hcompile, hrun⟩ := bind_eq_ok_iff.mp hbind
  exact ⟨p, hcompile, map_eq_ok_iff.mpr ⟨outcome, hrun, hpage⟩⟩

end Session

end Folio
