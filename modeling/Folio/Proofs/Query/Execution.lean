import Folio.Proofs.Rows.Order
import Folio.Proofs.Sequence
import Folio.Query.Execution

/-!
# The rows of a collection

Where a procedure succeeds on a collection, its rows are those of the documents that pass the
filter, in the order of the collection. They depend on each document alone, so another order of the
documents only rearranges them.
-/

namespace Folio

/-- The request with another page size and token. -/
def Request.asking (request : Request) (size : Option Int) (token : Option String) : Request :=
  { request with pageSize := size, token := token }

namespace Procedure

/-- Whether a document passes the filter. -/
def passes (p : Procedure) (request : Request) (document : Json) : Bool :=
  match p.keeps (request.scope (.ofJson document)) with
  | .ok kept => kept
  | .error _ => false

/-- What a document projects to. -/
def projected? (p : Procedure) (request : Request) (document : Json) : Option Value :=
  (p.projection.apply (request.scope (.ofJson document))).toOption

/-- The row of a document. -/
def rowOf (p : Procedure) (request : Request) (document : Json) : Row :=
  ⟨.ofJson document, (p.projected? request document).getD .absent⟩

/-- Whether a document passes the filter and its row stays in the order. -/
def selects (p : Procedure) (request : Request) (document : Json) : Bool :=
  p.passes request document && (p.rowOf request document).isOrdered p.order

/-- The result of a document: what it projects to, unless that is absent. -/
def result? (p : Procedure) (request : Request) (document : Json) : Option Json :=
  (p.projected? request document).bind fun v => v.clean.toJson?

variable {p : Procedure} {request : Request} {collection others : List Json} {found : List Row}

/-- A document gives its row if it passes the filter, and then it has a projection. -/
theorem eq_of_row?_eq_ok {document : Json} {row : Option Row}
    (h : p.row? request document = .ok row) :
    row = (if p.passes request document then some (p.rowOf request document) else none) ∧
      (p.passes request document = true → (p.projected? request document).isSome) := by
  unfold row? at h
  simp only at h
  unfold passes rowOf projected?
  cases hkeeps : p.keeps (request.scope (.ofJson document)) with
  | error e =>
    rw [hkeeps] at h
    cases h
  | ok kept =>
    rw [hkeeps] at h
    cases kept with
    | false => exact ⟨(Except.ok.inj h).symm, by simp⟩
    | true =>
      cases hproject : p.projection.apply (request.scope (.ofJson document)) with
      | error e =>
        rw [hproject] at h
        cases h
      | ok v =>
        rw [hproject] at h
        exact ⟨(Except.ok.inj h).symm, fun _ => rfl⟩

/-- The rows of a collection are those of its first document, then those of the others. -/
theorem rows_cons (document : Json) (others : List Json) :
    p.rows request (document :: others) = (p.row? request document).bind fun row =>
      (p.rows request others).map (row.toList ++ ·) := by
  unfold rows
  rw [List.mapM_cons]
  cases p.row? request document with
  | error e => rfl
  | ok row =>
    cases others.mapM fun document => p.row? request document with
    | error e => rfl
    | ok found => cases row <;> rfl

/-- **The rows of a collection.** A procedure succeeds on a collection if it does on each document,
and the rows are those of the documents that pass the filter. -/
theorem rows_eq_ok_iff :
    p.rows request collection = .ok found ↔
      (∀ document ∈ collection, ∃ row, p.row? request document = .ok row) ∧
        found = (collection.filter (p.passes request)).map (p.rowOf request) := by
  induction collection generalizing found with
  | nil =>
    constructor
    · intro h
      exact ⟨by simp, (Except.ok.inj h).symm⟩
    · rintro ⟨-, rfl⟩
      rfl
  | cons document others ih =>
    rw [rows_cons]
    cases hrow : p.row? request document with
    | error e => simp [hrow, Except.bind]
    | ok row =>
      obtain ⟨heq, -⟩ := eq_of_row?_eq_ok hrow
      have hfront : row.toList ++ (others.filter (p.passes request)).map (p.rowOf request) =
          ((document :: others).filter (p.passes request)).map (p.rowOf request) := by
        rw [heq]
        by_cases hpasses : p.passes request document = true <;> simp [hpasses]
      constructor
      · intro h
        cases hothers : p.rows request others with
        | error e =>
          rw [hothers] at h
          cases h
        | ok rest =>
          rw [hothers] at h
          obtain rfl := Except.ok.inj h
          obtain ⟨hall, rfl⟩ := ih.mp hothers
          exact ⟨List.forall_mem_cons.mpr ⟨⟨row, hrow⟩, hall⟩, hfront⟩
      · rintro ⟨hall, rfl⟩
        have hothers := ih.mpr ⟨(List.forall_mem_cons.mp hall).2, rfl⟩
        rw [hothers, ← hfront]
        rfl

/-- Another order of the documents rearranges the rows. -/
theorem rows_of_perm (h : p.rows request collection = .ok found)
    (hperm : collection.Perm others) :
    ∃ rearranged, p.rows request others = .ok rearranged ∧ found.Perm rearranged := by
  obtain ⟨hall, rfl⟩ := rows_eq_ok_iff.mp h
  refine ⟨_, rows_eq_ok_iff.mpr ⟨fun document hdocument => ?_, rfl⟩, ?_⟩
  · exact hall document (hperm.mem_iff.mpr hdocument)
  · exact (hperm.filter _).map _

/-- A document that passes the filter has a projection. -/
theorem isSome_projected? (h : p.rows request collection = .ok found) {document : Json}
    (hdocument : document ∈ collection) (hpasses : p.passes request document = true) :
    (p.projected? request document).isSome := by
  obtain ⟨row, hrow⟩ := (rows_eq_ok_iff.mp h).1 document hdocument
  exact (eq_of_row?_eq_ok hrow).2 hpasses

/-- The results of the rows of documents are the results of the documents. -/
theorem results_map_rowOf (documents : List Json) :
    Paging.results (documents.map (p.rowOf request)) =
      documents.filterMap (p.result? request) := by
  rw [Paging.results, List.filterMap_map]
  congr 1
  funext document
  simp only [Function.comp_apply, rowOf, result?]
  cases p.projected? request document <;> rfl

/-- Documents whose identifiers are usable, no arrays or objects and different give separate
rows. -/
theorem separate_of_rows {identifier : Identifier} (h : p.rows request collection = .ok found)
    (hidentifiers : ∀ document ∈ collection,
      (identifier.read (.ofJson document)).isTruthy = true ∧
        (identifier.read (.ofJson document)).isComposite = false)
    (hdistinct : collection.Pairwise fun a b =>
      (identifier.read (.ofJson a)).deepEqual (identifier.read (.ofJson b)) = false) :
    Row.Separate identifier found := by
  obtain ⟨-, rfl⟩ := rows_eq_ok_iff.mp h
  refine List.pairwise_map.mpr (List.Pairwise.filter _ (hdistinct.imp_of_mem ?_))
  intro a b _ hb hdiffers htie
  obtain ⟨htruthy, hplain⟩ := hidentifiers b hb
  have hequal := Value.deepEqual_of_totalCompare_eq hplain htruthy htie
  cases hdiffers.symm.trans hequal

/-- The page of a request is cut from the first of the sorted rows. -/
theorem run_asking (identifier : Identifier) (size : Option Int) (token : Option String) :
    (p.run identifier collection (request.asking size token)).map Outcome.page =
      (p.rows request collection).bind fun found =>
        (sortRows identifier p.order request.indexes found).bind fun sorted =>
          Paging.paginate ⟨identifier, p.order⟩ (p.firstRows sorted) size token := by
  have hrows : p.rows (request.asking size token) collection = p.rows request collection := rfl
  unfold run
  rw [hrows]
  simp only [Request.asking, bind, Except.bind, pure, Except.pure]
  cases p.rows request collection with
  | error e => rfl
  | ok found =>
    simp only
    cases sortRows identifier p.order request.indexes found with
    | error e => rfl
    | ok sorted =>
      simp only
      cases Paging.paginate ⟨identifier, p.order⟩ (p.firstRows sorted) size token <;> rfl

/-- Rows that are found in order are paged as they are. -/
theorem run_asking_of_sorted {found : List Row} (hrows : p.rows request collection = .ok found)
    (hservable : OrderClause.servable p.order request.indexes = true)
    (hordered : ∀ row ∈ found, row.isOrdered p.order = true)
    (hsorted : Row.Sorted identifier p.order found) (size : Option Int) (token : Option String) :
    (p.run identifier collection (request.asking size token)).map Outcome.page =
      Paging.paginate ⟨identifier, p.order⟩ (p.firstRows found) size token := by
  rw [run_asking, hrows]
  simp only [Except.bind]
  rw [sortRows_of_sorted hservable hordered hsorted]

/-- Sorted rows are those of the documents that pass the filter, sorted likewise. -/
theorem sorted_eq_map_rowOf {identifier : Identifier} {sorted : List Row}
    (hrows : p.rows request collection = .ok found)
    (hsort : sortRows identifier p.order request.indexes found = .ok sorted) :
    sorted = (((collection.filter (p.passes request)).mergeSort fun a b =>
      ((p.rowOf request a).compare identifier p.order (p.rowOf request b)).isLE).filter
        fun document => (p.rowOf request document).isOrdered p.order).map (p.rowOf request) := by
  obtain ⟨-, rfl⟩ := rows_eq_ok_iff.mp hrows
  obtain ⟨-, rfl⟩ := sortRows_eq_ok_iff.mp hsort
  have hmerge := List.map_mergeSort (f := p.rowOf request)
    (s := fun a b => (a.compare identifier p.order b).isLE)
    (l := collection.filter (p.passes request)) fun _ _ _ _ => rfl
  rw [← hmerge, List.filter_map]
  rfl

/-- The first rows are some of the rows, in their order. -/
theorem firstRows_sublist (p : Procedure) (rows : List Row) : (p.firstRows rows).Sublist rows := by
  unfold firstRows
  split
  · exact List.take_sublist _ _
  · exact List.Sublist.refl _

/-- The first of the sorted rows come from documents of the collection. -/
theorem exists_document_of_mem_firstRows {identifier : Identifier} {sorted : List Row}
    (hrows : p.rows request collection = .ok found)
    (hsort : sortRows identifier p.order request.indexes found = .ok sorted) {row : Row}
    (hrow : row ∈ p.firstRows sorted) : ∃ document ∈ collection, row = p.rowOf request document := by
  have hfound : row ∈ found :=
    (List.mem_filter.mp
      ((perm_of_sortRows hsort).mem_iff.mp ((p.firstRows_sublist _).subset hrow))).1
  rw [(rows_eq_ok_iff.mp hrows).2] at hfound
  obtain ⟨document, hdocument, rfl⟩ := List.mem_map.mp hfound
  exact ⟨document, (List.mem_filter.mp hdocument).1, rfl⟩

/-- The first of the sorted rows are no more than the documents. -/
theorem length_firstRows_le {identifier : Identifier} {sorted : List Row}
    (hrows : p.rows request collection = .ok found)
    (hsort : sortRows identifier p.order request.indexes found = .ok sorted) :
    (p.firstRows sorted).length ≤ collection.length := by
  have hfirst := (p.firstRows_sublist sorted).length_le
  have hsorted := (perm_of_sortRows hsort).length_eq
  have hordered := List.length_filter_le (Row.isOrdered p.order) found
  have hpasses := List.length_filter_le (p.passes request) collection
  rw [(rows_eq_ok_iff.mp hrows).2, List.length_map] at hordered
  rw [(rows_eq_ok_iff.mp hrows).2] at hsorted
  omega

/-- A page is cut from the first of the sorted rows of the documents. -/
theorem exists_rows_of_run_eq_ok {identifier : Identifier} {page : Page}
    (h : (p.run identifier collection request).map Outcome.page = .ok page) :
    ∃ found sorted, p.rows request collection = .ok found ∧
      sortRows identifier p.order request.indexes found = .ok sorted ∧
      Paging.paginate ⟨identifier, p.order⟩ (p.firstRows sorted) request.pageSize request.token =
        .ok page := by
  have hrequest : request.asking request.pageSize request.token = request := rfl
  rw [← hrequest, run_asking] at h
  obtain ⟨found, hrows, h⟩ := bind_eq_ok_iff.mp h
  obtain ⟨sorted, hsort, hpage⟩ := bind_eq_ok_iff.mp h
  exact ⟨found, sorted, hrows, hsort, hpage⟩

/-- A request for everything is answered with the results of the first rows. -/
theorem exists_of_run_eq_ok {identifier : Identifier} {page : Page}
    (h : (p.run identifier collection (request.asking none none)).map Outcome.page = .ok page) :
    ∃ found sorted, p.rows request collection = .ok found ∧
      sortRows identifier p.order request.indexes found = .ok sorted ∧
        page = ⟨Paging.results (p.firstRows sorted), none⟩ := by
  obtain ⟨found, sorted, hrows, hsort, hpage⟩ := exists_rows_of_run_eq_ok h
  exact ⟨found, sorted, hrows, hsort, (Except.ok.inj hpage).symm⟩

end Procedure

end Folio
