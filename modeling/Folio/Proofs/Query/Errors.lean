import Folio.Proofs.Expr.Progress
import Folio.Proofs.Paging.Cut
import Folio.Proofs.Query.Compile
import Folio.Proofs.Query.Execution
import Folio.Proofs.Query.Parsing
import Folio.Proofs.Query.Session

/-!
# The errors of a query

The parser refuses what compiling could not use, and compiling refuses what evaluation could not
use. So data never makes a query fail, and no part of the engine meets what another part should have
refused: no error is fatal.
-/

namespace Folio

/-! ## Running a procedure -/

namespace Procedure

variable {p : Procedure} {identifier : Identifier} {request : Request} {collection : List Json}
  {scope : Scope} {err : QueryError}

/-- A projection fails with the error of one of its expressions. -/
theorem exists_of_apply_eq_error {projection : Projection}
    (h : projection.apply scope = .error err) :
    ∃ e ∈ projection.exprs, e.eval scope = .error err := by
  cases projection with
  | document => cases h
  | value e => exact ⟨e, List.mem_singleton_self e, h⟩
  | fields named =>
    rcases bind_eq_error_iff.mp h with h | ⟨_, -, h⟩
    · rw [Expr.evalEntries_eq] at h
      cases hitems : Expr.evalItems scope (named.map Prod.snd) with
      | ok values =>
        rw [hitems] at h
        cases h
      | error err' =>
        rw [hitems] at h
        obtain rfl := Except.error.inj h
        obtain ⟨front, e, rest, hnamed, -, he⟩ := Expr.evalItems_eq_error_iff.mp hitems
        refine ⟨e, ?_, he⟩
        rw [Projection.exprs, hnamed]
        simp
    · exact absurd h pure_ne_error

/-- The row of a document fails with the error of an expression of the procedure. -/
theorem exists_of_row?_eq_error {document : Json} (h : p.row? request document = .error err) :
    ∃ e ∈ p.exprs, e.eval (request.scope (.ofJson document)) = .error err := by
  rcases bind_eq_error_iff.mp h with h | ⟨kept, -, h⟩
  · unfold keeps at h
    split at h
    next filter hfilter =>
      have hmem : filter ∈ p.exprs := by simp [exprs, hfilter]
      exact ⟨filter, hmem, Expr.test_eq_error_iff.mp h⟩
    next => cases h
  · split at h
    · rcases bind_eq_error_iff.mp h with h | ⟨_, -, h⟩
      · obtain ⟨e, he, hfails⟩ := exists_of_apply_eq_error h
        exact ⟨e, List.mem_append_right _ he, hfails⟩
      · exact absurd h pure_ne_error
    · exact absurd h pure_ne_error

/-- **Errors of a procedure.** A procedure fails on a collection for an expression that fails on a
document, for want of an index, for a token that is none or for want of an identifier. -/
theorem error_cases_of_run
    (h : (p.run identifier collection request).map Outcome.page = .error err) :
    (∃ document ∈ collection, ∃ e ∈ p.exprs,
      e.eval (request.scope (.ofJson document)) = .error err) ∨
    err = .missingIndex ∨ (∃ fault, err = .invalidToken fault) ∨
    ∃ option, err = .identifierRequired identifier.field option := by
  have hrequest : request.asking request.pageSize request.token = request := rfl
  rw [← hrequest, run_asking] at h
  rcases bind_eq_error_iff.mp h with h | ⟨found, -, h⟩
  · rcases bind_eq_error_iff.mp h with h | ⟨_, -, h⟩
    · obtain ⟨document, hdocument, h⟩ := exists_of_mapM_eq_error h
      exact Or.inl ⟨document, hdocument, exists_of_row?_eq_error h⟩
    · exact absurd h pure_ne_error
  rcases bind_eq_error_iff.mp h with h | ⟨sorted, -, h⟩
  · unfold sortRows at h
    split at h
    · cases h
    · exact Or.inr (Or.inl (Except.error.inj h).symm)
  · rcases Paging.paginate_error h with ⟨text, fault, -, -, herror⟩ | ⟨option, herror⟩
    · exact Or.inr (Or.inr (Or.inl ⟨fault, herror⟩))
    · exact Or.inr (Or.inr (Or.inr ⟨option, herror⟩))

end Procedure

/-! ## Sessions -/

namespace Session

/-- The codes of the errors that a session answers with. -/
def answerCodes : List ErrorCode :=
  [.unresolvedIdentifier, .unknownFunction, .missingIndex, .identifierRequired, .invalidToken]

variable {text : String} {settings : Settings} {s : Session} {err : QueryError}

/-- No error with the code of an answer is fatal. -/
theorem isFatal_eq_false_of_mem_answerCodes (h : err.code ∈ answerCodes) : err.isFatal = false := by
  have hall : ∀ code ∈ answerCodes, (code.severity == .fatal) = false := by decide
  exact hall err.code h

/-- The resolution of names ends with the code of an answer. -/
theorem mem_answerCodes_of_isNameFault (h : err.IsNameFault) : err.code ∈ answerCodes := by
  rcases h with h | h <;> rw [h] <;> decide

/-- A text that is refused is not a query. -/
theorem code_of_start_eq_error {journal : Journal}
    (h : ((start text settings).run journal).1 = .error err) : err.code = .malformedText := by
  unfold start at h
  simp only at h
  cases hparse : Query.parse (Text.trim text) with
  | error fault =>
    rw [hparse] at h
    rw [← Except.error.inj h]
    rfl
  | ok statement =>
    rw [hparse] at h
    cases h

/-- A session in use compiles, or is refused for a name. -/
theorem isNameFault_of_compile_run (hused : InUse text settings s) {journal : Journal}
    (h : (s.compile.run journal).1.1 = .error err) : err.IsNameFault := by
  obtain ⟨hparse, -, hfaithful⟩ := hused.spec
  rw [compile_run hfaithful] at h
  exact Statement.isNameFault_of_compile (Query.isProperPath_of_parse hparse) h

/-- An answer that fails has one of five codes. -/
theorem mem_answerCodes_of_answer (hused : InUse text settings s) {collection : List Json}
    {request : Request} {journal : Journal} (h : s.answer collection request journal = .error err) :
    err.code ∈ answerCodes := by
  obtain ⟨hparse, -, -⟩ := hused.spec
  rw [hused.answer_eq hparse] at h
  cases hcompile : s.statement.compile with
  | error err' =>
    rw [hcompile] at h
    obtain rfl := Except.error.inj h
    exact mem_answerCodes_of_isNameFault
      (Statement.isNameFault_of_compile (Query.isProperPath_of_parse hparse) hcompile)
  | ok p =>
    rw [hcompile] at h
    rcases Procedure.error_cases_of_run h with ⟨document, -, e, he, hfails⟩ | rfl | ⟨fault, rfl⟩ |
      ⟨option, rfl⟩
    · have hresolved := (Statement.spec_of_compile hcompile).1 e he
      obtain ⟨name, call, -, -, rfl⟩ := (Expr.eval_eq_error_iff hresolved).mp hfails
      simp [QueryError.code, answerCodes]
    all_goals simp [QueryError.code, answerCodes]

/-- **Errors of a query.** For every text:

* a statement that it is parsed into compiles, or is refused for a name;
* an expression that the procedure evaluates, as a value or as a condition, fails exactly if
  evaluation gets to a call of a function that the caller does not provide, whatever the document,
  the parameters and the functions are; it has a value if every function called in it is provided;
* a text that is refused, a statement that is, and an answer that fails do not end with a fatal
  error, and an answer fails with one of five codes only. -/
theorem error_spec (text : String) :
    (∀ statement, Query.parse text = .ok statement →
      ((∃ p, statement.compile = .ok p) ∨
        ∃ err, statement.compile = .error err ∧ err.IsNameFault) ∧
      ∀ p, statement.compile = .ok p → ∀ e ∈ p.exprs, ∀ scope : Scope,
        (∀ err, e.eval scope = .error err ↔ e.Misses scope err) ∧
        (∀ err, e.test scope = .error err ↔ e.Misses scope err) ∧
        ((∀ name args, e.Contains (.userCall name args) → (scope.functions.get? name).isSome) →
          (∃ v, e.eval scope = .ok v) ∧ ∃ holds, e.test scope = .ok holds)) ∧
    (∀ (settings : Settings) (journal : Journal) (err : QueryError),
      ((start text settings).run journal).1 = .error err → err.isFatal = false) ∧
    ∀ (settings : Settings) (s : Session) (journal : Journal), InUse text settings s →
      (∀ err, (s.compile.run journal).1.1 = .error err → err.IsNameFault ∧ err.isFatal = false) ∧
      ∀ (collection : List Json) (request : Request) (err : QueryError),
        s.answer collection request journal = .error err →
          err.code ∈ answerCodes ∧ err.isFatal = false := by
  refine ⟨fun statement hparse => ⟨?_, fun p hcompile e he scope => ?_⟩, ?_, ?_⟩
  · cases hcompile : statement.compile with
    | ok p => exact Or.inl ⟨p, rfl⟩
    | error err =>
      have hproper := Query.isProperPath_of_parse hparse
      exact Or.inr ⟨err, rfl, Statement.isNameFault_of_compile hproper hcompile⟩
  · have hresolved := (Statement.spec_of_compile hcompile).1 e he
    refine ⟨fun err => Expr.eval_eq_error_iff hresolved, fun err => ?_, fun hprovided => ?_⟩
    · rw [Expr.test_eq_error_iff]
      exact Expr.eval_eq_error_iff hresolved
    · obtain ⟨v, hv⟩ := Expr.exists_eval_eq_ok hresolved hprovided
      exact ⟨⟨v, hv⟩, Expr.exists_test_eq_ok hv⟩
  · intro settings journal err h
    rw [QueryError.isFatal, QueryError.severity, code_of_start_eq_error h]
    rfl
  · intro settings s journal hused
    refine ⟨fun err h => ?_, fun collection request err h => ?_⟩
    · have hname := isNameFault_of_compile_run hused h
      exact ⟨hname, isFatal_eq_false_of_mem_answerCodes (mem_answerCodes_of_isNameFault hname)⟩
    · have hcode := mem_answerCodes_of_answer hused h
      exact ⟨hcode, isFatal_eq_false_of_mem_answerCodes hcode⟩

/-- A missing function fails an expression that compiled, an unknown name fails an answer, and half a
query is refused; none of the errors is fatal. -/
theorem error_spec_three_texts :
    (∃ statement p e err, Query.parse "SELECT VALUE udf.f(c.k) FROM c" = .ok statement ∧
      statement.compile = .ok p ∧ e ∈ p.exprs ∧ e.eval (Request.plain.scope .null) = .error err ∧
      e.Misses (Request.plain.scope .null) err) ∧
    (∃ s err, InUse "SELECT VALUE x.k FROM c" {} s ∧
      s.answer [.null] Request.plain .empty = .error err ∧ err.code ∈ answerCodes ∧
      err.isFatal = false) ∧
    ∃ err, ((start "SELECT" {}).run .empty).1 = .error err ∧ err.isFatal = false := by
  refine ⟨?_, ?_, ?_⟩
  · have hcheck : (do
        let statement ← (Query.parse "SELECT VALUE udf.f(c.k) FROM c").toOption
        let p ← statement.compile.toOption
        let e ← p.exprs.head?
        return !(e.eval (Request.plain.scope .null)).isOk) = some true := by
      decide +kernel
    obtain ⟨statement, hparse, hcheck⟩ := Option.bind_eq_some_iff.mp hcheck
    obtain ⟨p, hcompile, hcheck⟩ := Option.bind_eq_some_iff.mp hcheck
    obtain ⟨e, he, hcheck⟩ := Option.bind_eq_some_iff.mp hcheck
    have hparse := toOption_eq_some_iff.mp hparse
    have hcompile := toOption_eq_some_iff.mp hcompile
    have hmem := List.mem_of_head? he
    cases heval : e.eval (Request.plain.scope .null) with
    | ok v =>
      rw [heval] at hcheck
      cases hcheck
    | error err =>
      obtain ⟨hfails, -⟩ :=
        ((error_spec "SELECT VALUE udf.f(c.k) FROM c").1 statement hparse).2 p hcompile e hmem
          (Request.plain.scope .null)
      exact ⟨statement, p, e, err, hparse, hcompile, hmem, heval, (hfails err).mp heval⟩
  · have hcheck : (do
        let s ← ((start "SELECT VALUE x.k FROM c" {}).run .empty).1.toOption
        return !(s.answer [.null] Request.plain .empty).isOk) = some true := by
      decide +kernel
    obtain ⟨s, hstart, hcheck⟩ := Option.bind_eq_some_iff.mp hcheck
    have hused : InUse "SELECT VALUE x.k FROM c" {} s :=
      .of_start (toOption_eq_some_iff.mp hstart)
    cases hanswer : s.answer [.null] Request.plain .empty with
    | ok page =>
      rw [hanswer] at hcheck
      cases hcheck
    | error err =>
      obtain ⟨-, hanswers⟩ := (error_spec "SELECT VALUE x.k FROM c").2.2 {} s .empty hused
      exact ⟨s, err, hused, hanswer, hanswers _ _ err hanswer⟩
  · cases hstart : ((start "SELECT" {}).run .empty).1 with
    | ok s =>
      have hfails : ((start "SELECT" {}).run .empty).1.isOk = false := by decide +kernel
      rw [hstart] at hfails
      cases hfails
    | error err => exact ⟨err, rfl, (error_spec "SELECT").2.1 {} .empty err hstart⟩

end Session

end Folio
