import Folio.Proofs.Paging.Scan
import Folio.Proofs.Query.Execution
import Folio.Proofs.Query.Session

/-!
# Paging through a query

Where all documents have different identifiers, the order of the results is settled by the documents
alone. Every request sorts the same rows, cuts them to the same first ones and goes on at the same
place, in whatever order the documents come, so the pages of a query have its results together.
-/

namespace Folio

/-- A document ties with itself on every sort key. -/
theorem OrderClause.tie_self (clauses : List OrderClause) (source : Value) :
    tie clauses source source = true := by
  refine List.all_eq_true.mpr fun clause _ => ?_
  rw [beq_iff_eq]
  exact Std.ReflCmp.compare_self

namespace Procedure

variable {p : Procedure} {identifier : Identifier} {request : Request} {collection : List Json}
  {found sorted : List Row}

/-- The sorted rows are those of the documents that the procedure selects, in strictly increasing
order. -/
theorem exists_documents (hrows : p.rows request collection = .ok found)
    (hsort : sortRows identifier p.order request.indexes found = .ok sorted)
    (hseparate : Row.Separate identifier found) :
    ∃ documents : List Json, documents.Perm (collection.filter (p.selects request)) ∧
      (documents.Pairwise fun a b =>
        (p.rowOf request a).compare identifier p.order (p.rowOf request b) = .lt) ∧
      sorted = documents.map (p.rowOf request) := by
  have hascending := ascending_of_sortRows hseparate hsort
  have hsorted := sorted_eq_map_rowOf hrows hsort
  refine ⟨_, ?_, ?_, hsorted⟩
  · have hselected : collection.filter (p.selects request) =
        (collection.filter (p.passes request)).filter fun document =>
          (p.rowOf request document).isOrdered p.order := by
      rw [List.filter_filter]
      congr 1
      funext document
      exact Bool.and_comm _ _
    rw [hselected]
    exact (List.mergeSort_perm _ _).filter _
  · rw [hsorted] at hascending
    exact List.pairwise_map.mp hascending

/-- The first of the sorted rows are taken up again where a scan leaves them. -/
theorem regular_firstRows (hrows : p.rows request collection = .ok found)
    (hsort : sortRows identifier p.order request.indexes found = .ok sorted)
    (hidentifiers : ∀ document ∈ collection,
      (identifier.read (.ofJson document)).isTruthy = true ∧
        (identifier.read (.ofJson document)).isComposite = false)
    (hseparate : Row.Separate identifier found)
    (hcarried : ∀ document ∈ collection,
      (p.rowOf request document).carried identifier p.order = true)
    (hlength : collection.length < UInt64.size) :
    Paging.Regular ⟨identifier, p.order⟩ (p.firstRows sorted) ∧
      ∀ row ∈ p.firstRows sorted, (identifier.read row.source).isTruthy = true := by
  have hfirst := p.firstRows_sublist sorted
  have hmem {row : Row} (hrow : row ∈ p.firstRows sorted) :
      ∃ document ∈ collection, row = p.rowOf request document :=
    exists_document_of_mem_firstRows hrows hsort hrow
  have hascending : Row.Ascending identifier p.order (p.firstRows sorted) :=
    (ascending_of_sortRows hseparate hsort).sublist hfirst
  have hsortedSeparate := separate_of_sortRows hseparate hsort
  refine ⟨⟨?_, ?_, ?_, ?_, ?_⟩, ?_⟩
  · exact hascending.imp fun hlt => by rw [hlt]; rfl
  · intro row hrow
    obtain ⟨document, hdocument, rfl⟩ := hmem hrow
    exact (hidentifiers document hdocument).2
  · intro a ha b hb hequal
    obtain rfl := hsortedSeparate.eq_of_tie (hfirst.subset ha) (hfirst.subset hb)
      (Value.totalCompare_eq_of_deepEqual hequal)
    exact OrderClause.tie_self _ _
  · intro row hrow
    obtain ⟨document, hdocument, rfl⟩ := hmem hrow
    exact hcarried document hdocument
  · exact Nat.lt_of_le_of_lt (length_firstRows_le hrows hsort) hlength
  · intro row hrow
    obtain ⟨document, hdocument, rfl⟩ := hmem hrow
    exact (hidentifiers document hdocument).1

/-- A request is answered from the same rows whatever the order of the documents is. -/
theorem run_asking_of_perm (hrows : p.rows request collection = .ok found)
    (hsort : sortRows identifier p.order request.indexes found = .ok sorted)
    (hseparate : Row.Separate identifier found) {others : List Json}
    (hperm : others.Perm collection) (size : Option Int) (token : Option String) :
    (p.run identifier others (request.asking size token)).map Outcome.page =
      Paging.paginate ⟨identifier, p.order⟩ (p.firstRows sorted) size token := by
  obtain ⟨rearranged, hothers, hfound⟩ := rows_of_perm hrows hperm.symm
  rw [run_asking, hothers]
  simp only [Except.bind]
  rw [sortRows_eq_of_perm hseparate hfound, hsort]

end Procedure

namespace Session

/-- **Paging through a query.** Where a session answers a request for everything, and the documents
have identifiers that are usable, no arrays or objects and different:

* any session of the same text answers any page of the request alike, in whatever order it is given
  the documents;
* a scan with any positive page sizes, each request with the documents in an order of its own, ends
  without a failure, and its pages have together the results of the request for everything;
* these results are what the documents project to that the query selects, in strictly increasing
  order and up to the count that it asks for. A document whose projection is absent counts.

The tokens have to carry the sort keys and identifiers, and the number of documents has to fit 64
bits. -/
theorem scan_answers_eq_unpaged {text : String} {settings : Settings} {s : Session}
    {collection : List Json} {request : Request} {journal : Journal} {page : Page}
    (hused : InUse text settings s)
    (hidentifiers : ∀ document ∈ collection,
      ((Identifier.ofField settings.identifierField).read (.ofJson document)).isTruthy = true ∧
        ((Identifier.ofField settings.identifierField).read (.ofJson document)).isComposite = false)
    (hdistinct : collection.Pairwise fun a b =>
      ((Identifier.ofField settings.identifierField).read (.ofJson a)).deepEqual
        ((Identifier.ofField settings.identifierField).read (.ofJson b)) = false)
    (hcarried : ∀ p, s.statement.compile = .ok p → ∀ document ∈ collection,
      (p.rowOf request document).carried (.ofField settings.identifierField) p.order = true)
    (hlength : collection.length < UInt64.size)
    (hanswer : s.answer collection (request.asking none none) journal = .ok page) :
    (∀ (others : List Json) (s' : Session) (journal' : Journal) (size : Option Int)
        (token : Option String), others.Perm collection → InUse text settings s' →
      s'.answer others (request.asking size token) journal' =
        s.answer collection (request.asking size token) journal) ∧
    (∀ (sizes : Nat → Int) (collections : Nat → List Json) (sessions : Nat → Session)
        (journals : Nat → Journal), (∀ i, 1 ≤ sizes i) → (∀ i, (collections i).Perm collection) →
        (∀ i, InUse text settings (sessions i)) →
      ∃ pages,
        Scan (fun i token => (sessions i).answer (collections i)
          (request.asking (some (sizes i)) token) (journals i)) 0 none pages none ∧
        pages.flatMap Page.results = page.results) ∧
    ∃ p, s.statement.compile = .ok p ∧ ∃ documents : List Json,
      documents.Perm (collection.filter (p.selects request)) ∧
      (documents.Pairwise fun a b => (p.rowOf request a).compare
        (.ofField settings.identifierField) p.order (p.rowOf request b) = .lt) ∧
      (∀ document ∈ documents, (p.projected? request document).isSome) ∧
      page.results = (match p.top with
        | some count => documents.take count
        | none => documents).filterMap (p.result? request) := by
  obtain ⟨hparse, -, -⟩ := hused.spec
  obtain ⟨p, hcompile, hrun⟩ := hused.exists_run_of_answer hanswer
  obtain ⟨found, sorted, hrows, hsort, hpage⟩ := Procedure.exists_of_run_eq_ok hrun
  have hseparate := Procedure.separate_of_rows hrows hidentifiers hdistinct
  have hserve {s' : Session} {others : List Json} (hused' : InUse text settings s')
      (hperm : others.Perm collection) (size : Option Int) (token : Option String)
      (journal' : Journal) : s'.answer others (request.asking size token) journal' =
        Paging.paginate ⟨.ofField settings.identifierField, p.order⟩ (p.firstRows sorted) size
          token := by
    rw [hused'.answer_eq hparse, hcompile]
    exact Procedure.run_asking_of_perm hrows hsort hseparate hperm size token
  refine ⟨?_, ?_, p, hcompile, ?_⟩
  · intro others s' journal' size token hperm hused'
    rw [hserve hused' hperm, hserve hused (List.Perm.refl _)]
  · intro sizes collections sessions journals hsizes hperms hsessions
    obtain ⟨hregular, htruthy⟩ := Procedure.regular_firstRows hrows hsort hidentifiers hseparate
      (hcarried p hcompile) hlength
    have hfirst : Paging.Reached ⟨.ofField settings.identifierField, p.order⟩
        (p.firstRows sorted) 0 0 none := ⟨rfl, rfl⟩
    obtain ⟨pages, hscan, hcovers⟩ := hregular.scan_of_truthy htruthy hsizes hfirst
    have hsame : (fun (i : Nat) (token : Option String) => (sessions i).answer (collections i)
        (request.asking (some (sizes i)) token) (journals i)) = fun i token =>
          Paging.paginate ⟨.ofField settings.identifierField, p.order⟩ (p.firstRows sorted)
            (some (sizes i)) token := by
      funext i token
      exact hserve (hsessions i) (hperms i) _ _ _
    refine ⟨pages, ?_, ?_⟩
    · rw [hsame]
      exact hscan
    · rw [hcovers.flatMap_results, hpage]
      rfl
  · obtain ⟨documents, hdocuments, hascending, hmap⟩ :=
      Procedure.exists_documents hrows hsort hseparate
    refine ⟨documents, hdocuments, hascending, fun document hdocument => ?_, ?_⟩
    · obtain ⟨hmem, hselects⟩ := List.mem_filter.mp (hdocuments.mem_iff.mp hdocument)
      exact Procedure.isSome_projected? hrows hmem (Bool.and_eq_true_iff.mp hselects).1
    · rw [hpage, hmap, ← Procedure.results_map_rowOf]
      unfold Procedure.firstRows
      cases p.top with
      | some count => rw [List.map_take]
      | none => rfl

/-- Two documents, given in turn in either order, are scanned one by one. -/
theorem scan_answers_eq_unpaged_two_documents :
    let first : Json := .object [("_rid", .string "x"), ("k", .string "b")]
    let second : Json := .object [("_rid", .string "y"), ("k", .string "a")]
    ∃ s, InUse "SELECT VALUE c.k FROM c ORDER BY c.k" {} s ∧ ∃ page pages,
      s.answer [first, second] (Request.plain.asking none none) .empty = .ok page ∧
      Scan (fun i token => s.answer (if i % 2 = 0 then [first, second] else [second, first])
        (Request.plain.asking (some 1) token) .empty) 0 none pages none ∧
      pages.flatMap Page.results = page.results := by
  intro first second
  have hcheck : (match ((start "SELECT VALUE c.k FROM c ORDER BY c.k" {}).run .empty).1 with
      | .ok s =>
        (s.answer [first, second] (Request.plain.asking none none) .empty).isOk &&
          match s.statement.compile with
          | .ok p => [first, second].all fun document =>
            (p.rowOf Request.plain document).carried (.ofField "_rid") p.order
          | .error _ => false
      | .error _ => false) = true := by
    decide +kernel
  rcases hstart : (start "SELECT VALUE c.k FROM c ORDER BY c.k" {}).run .empty with
    ⟨started, later⟩
  rw [hstart] at hcheck
  cases started with
  | error e => cases hcheck
  | ok s =>
    have hused := InUse.started hstart
    obtain ⟨hok, hcompiled⟩ := Bool.and_eq_true_iff.mp hcheck
    cases hanswer : s.answer [first, second] (Request.plain.asking none none) .empty with
    | error e =>
      rw [hanswer] at hok
      cases hok
    | ok page =>
      have hcarried : ∀ p, s.statement.compile = .ok p → ∀ document ∈ [first, second],
          (p.rowOf Request.plain document).carried (.ofField "_rid") p.order = true := by
        intro p hp
        rw [hp] at hcompiled
        exact List.all_eq_true.mp hcompiled
      obtain ⟨-, hscan, -⟩ := scan_answers_eq_unpaged hused (by decide) (by decide) hcarried
        (by decide) hanswer
      obtain ⟨pages, hpages, hresults⟩ := hscan (fun _ => 1)
        (fun i => if i % 2 = 0 then [first, second] else [second, first]) (fun _ => s)
        (fun _ => .empty) (fun _ => by decide)
        (fun i => by
          split
          · exact List.Perm.refl _
          · exact List.Perm.swap _ _ _)
        (fun _ => hused)
      exact ⟨s, hused, page, pages, hanswer, hpages, hresults⟩

end Session

end Folio
