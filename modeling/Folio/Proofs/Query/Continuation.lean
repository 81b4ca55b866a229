import Folio.Proofs.Paging.Cut
import Folio.Proofs.Query.Compile
import Folio.Proofs.Query.Execution
import Folio.Proofs.Query.Session
import Folio.Proofs.Value.Inside

/-!
# The token that goes with a page

The checkpoint behind a page holds an identifier and sort keys that lie inside a document. Each
level of a document becomes up to three levels of the token, whose reader gives up at a limit; so a
document that nests deep, but far less than the limit, may get a token that is not read again.
-/

namespace Folio

namespace Procedure

variable {p : Procedure} {identifier : Identifier} {request : Request} {collection : List Json}
  {page : Page} {c : Checkpoint}

/-- The checkpoint behind a page holds the identifier and the sort keys of a document, and its
counters fit 64 bits. -/
theorem exists_document_of_next (hlength : collection.length < UInt64.size)
    (hrun : (p.run identifier collection request).map Outcome.page = .ok page)
    (hnext : page.next = some c) :
    c.Counted ∧ ∃ document ∈ collection, c.identifier = identifier.read (.ofJson document) ∧
      c.resume.getD [] = OrderClause.keys p.order (.ofJson document) := by
  obtain ⟨found, sorted, hrows, hsort, hpage⟩ := exists_rows_of_run_eq_ok hrun
  obtain ⟨start, previous, hcut⟩ := Paging.exists_cut_of_paginate hpage
  obtain ⟨k, next, hk, hnames, hround, htotal⟩ := Paging.exists_names_of_cut hcut hnext
  obtain ⟨document, hdocument, rfl⟩ :=
    exists_document_of_mem_firstRows hrows hsort (List.mem_of_getElem? hk)
  have hskip : c.skip < UInt64.size := by
    have hfront := hnames.skip_le
    have hrest := length_firstRows_le hrows hsort
    rw [List.length_take] at hfront
    omega
  refine ⟨⟨hround, hskip, htotal⟩, document, hdocument, hnames.identifier, ?_⟩
  rw [hnames.resume]
  split
  next hempty =>
    have hnone : p.order = [] := List.isEmpty_iff.mp hempty
    rw [hnone]
    rfl
  next => rfl

/-- A page of a request with a token that is none is refused. A request with any other token is
refused for no token. -/
theorem run_asking_eq_invalidToken_iff
    (hrun : (p.run identifier collection request).map Outcome.page = .ok page)
    (size : Option Int) (token : String) (fault : TokenFault) :
    (p.run identifier collection (request.asking size (some token))).map Outcome.page =
        .error (.invalidToken fault) ↔ Checkpoint.ofToken token = .error fault := by
  obtain ⟨found, sorted, hrows, hsort, -⟩ := exists_rows_of_run_eq_ok hrun
  rw [run_asking, hrows]
  simp only [Except.bind, hsort]
  constructor
  · intro h
    rcases Paging.paginate_error h with ⟨text, fault', htext, hread, herror⟩ | ⟨option, herror⟩
    · obtain rfl := Option.some.inj htext
      obtain rfl : fault = fault' := by simpa using herror
      exact hread
    · cases herror
  · intro h
    exact Paging.paginate_of_ofToken_error h _ _

end Procedure

/-- A checkpoint of values inside another value nests no more than that value does in its tagged
form, or two levels, and has no other numbers. -/
theorem Checkpoint.spec_of_inside {c : Checkpoint} {outer : Value}
    (hidentifier : c.identifier.Inside outer)
    (hresume : ∀ key ∈ c.resume.getD [], key.Inside outer) :
    c.toJson.nesting ≤ max 2 outer.tagged.nesting ∧ ∀ n ∈ c.numbers, n ∈ outer.numbers := by
  obtain ⟨hnesting, hnumbers⟩ := hidentifier
  obtain ⟨hkeysNesting, hkeysNumbers⟩ := Value.items_spec hresume
  constructor
  · rw [nesting_toJson]
    cases hkeys : c.resume with
    | none => simp only [Option.map_none, Option.getD_none]; omega
    | some keys =>
      rw [hkeys] at hkeysNesting
      simp only [Option.map_some, Option.getD_some] at hkeysNesting ⊢
      omega
  · intro n hn
    rcases List.mem_append.mp hn with hn | hn
    · exact hnumbers n hn
    · exact hkeysNumbers n hn

namespace Session

/-- **The token behind a page.** Where a session answers a request with a page and a continuation:

* the token is read as the checkpoint that it was made for exactly if the text of that checkpoint
  nests within the limit and its numbers read back, and it is malformed if the text nests deeper;
* the next request over the same collection is refused for its token exactly if the token is not
  read;
* the token is read if every document nests less than a third of the limit and has numbers that
  are short or read back. -/
theorem answer_next_token {text : String} {settings : Settings} {s : Session}
    {collection : List Json} {request : Request} {journal : Journal} {page : Page} {c : Checkpoint}
    (hused : InUse text settings s) (hlength : collection.length < UInt64.size)
    (hanswer : s.answer collection request journal = .ok page) (hnext : page.next = some c) :
    (Checkpoint.ofToken c.token = .ok c ↔
      c.toJson.nesting ≤ tokenDepth ∧ ∀ n ∈ c.numbers, n.readsBack = true) ∧
    (tokenDepth < c.toJson.nesting → Checkpoint.ofToken c.token = .error .malformed) ∧
    (∀ (s' : Session) (journal' : Journal) (size : Option Int) (fault : TokenFault),
      InUse text settings s' →
      (s'.answer collection (request.asking size (some c.token)) journal' =
        .error (.invalidToken fault) ↔ Checkpoint.ofToken c.token = .error fault)) ∧
    ((∀ document ∈ collection, 3 * document.nesting < tokenDepth ∧
        ∀ n ∈ (Value.ofJson document).numbers, n.isShort = true ∨ n.readsBack = true) →
      Checkpoint.ofToken c.token = .ok c) := by
  obtain ⟨hparse, -, -⟩ := hused.spec
  obtain ⟨p, hcompile, hrun⟩ := hused.exists_run_of_answer hanswer
  obtain ⟨hcounted, document, hdocument, hidentifier, hresume⟩ :=
    Procedure.exists_document_of_next hlength hrun hnext
  have hiff := Checkpoint.ofToken_token_eq_ok_iff hcounted
  refine ⟨hiff, fun hdeep => Checkpoint.ofToken_token_malformed (Or.inl hdeep), ?_, ?_⟩
  · intro s' journal' size fault hused'
    rw [hused'.answer_eq hparse, hcompile]
    exact Procedure.run_asking_eq_invalidToken_iff hrun size c.token fault
  · intro hdocuments
    obtain ⟨hshallow, hreads⟩ := hdocuments document hdocument
    have hinside : c.identifier.Inside (.ofJson document) := by
      rw [hidentifier]
      exact Value.inside_child settings.identifierField _
    have hkeys : ∀ key ∈ c.resume.getD [], key.Inside (.ofJson document) := by
      rw [hresume]
      refine List.forall_mem_map.mpr fun clause hclause => ?_
      exact Value.inside_resolve ((Statement.spec_of_compile hcompile).2 clause hclause) _
    obtain ⟨hnesting, hnumbers⟩ := Checkpoint.spec_of_inside hinside hkeys
    have htagged := Value.nesting_tagged_ofJson_le document
    have hlimit : tokenDepth = 127 := rfl
    refine hiff.mpr ⟨by omega, fun n hn => ?_⟩
    exact (hreads n (hnumbers n hn)).elim Number.readsBack_of_isShort id

/-- A document with a value that nests 42 levels below its sort key nests far less than the limit,
yet the token of its checkpoint is malformed, and the next request is refused. -/
theorem answer_next_token_nested :
    let deep : Json := Nat.repeat (fun inner => .object [("a", inner)]) 42 .null
    let collection : List Json :=
      [.object [("_rid", .string "a"), ("k", deep)], .object [("_rid", .string "b"), ("k", deep)]]
    (∀ document ∈ collection, document.nesting ≤ tokenDepth) ∧
    ∃ s page c, InUse "SELECT * FROM c ORDER BY c.k" {} s ∧
      s.answer collection (Request.plain.asking (some 1) none) .empty = .ok page ∧
      page.next = some c ∧ Checkpoint.ofToken c.token = .error .malformed ∧
      s.answer collection (Request.plain.asking (some 1) (some c.token)) .empty =
        .error (.invalidToken .malformed) := by
  intro deep collection
  refine ⟨by decide +kernel, ?_⟩
  have hcheck : (do
      let s ← ((start "SELECT * FROM c ORDER BY c.k" {}).run .empty).1
      let p ← s.statement.compile
      let found ← p.rows Request.plain collection
      let page ← Paging.paginate ⟨.ofField "_rid", p.order⟩ (p.firstRows found) (some 1) none
      return OrderClause.servable p.order none && found.all (Row.isOrdered p.order) &&
        decide (Row.Sorted (.ofField "_rid") p.order found) &&
        page.next.any fun (c : Checkpoint) => tokenDepth < c.toJson.nesting).toOption = some true := by
    decide +kernel
  obtain ⟨s, hstart, hcheck⟩ := bind_eq_ok_iff.mp (toOption_eq_some_iff.mp hcheck)
  obtain ⟨p, hcompile, hcheck⟩ := bind_eq_ok_iff.mp hcheck
  obtain ⟨found, hrows, hcheck⟩ := bind_eq_ok_iff.mp hcheck
  obtain ⟨page, hpage, hcheck⟩ := bind_eq_ok_iff.mp hcheck
  have hfacts := pure_eq_ok_iff.mp hcheck
  simp only [Bool.and_eq_true, List.all_eq_true, decide_eq_true_eq, Option.any_eq_true] at hfacts
  obtain ⟨⟨⟨hservable, hordered⟩, hsorted⟩, c, hnext, hdeep⟩ := hfacts
  have hused : InUse "SELECT * FROM c ORDER BY c.k" {} s := .of_start hstart
  have hanswer : s.answer collection (Request.plain.asking (some 1) none) .empty = .ok page := by
    rw [hused.answer_eq hused.spec.1, hcompile, ← hpage]
    exact Procedure.run_asking_of_sorted hrows hservable hordered hsorted (some 1) none
  obtain ⟨-, hmalformed, hrefused, -⟩ := answer_next_token hused (by decide) hanswer hnext
  exact ⟨s, page, c, hused, hanswer, hnext, hmalformed hdeep,
    (hrefused s .empty (some 1) .malformed hused).mpr (hmalformed hdeep)⟩

end Session

end Folio
