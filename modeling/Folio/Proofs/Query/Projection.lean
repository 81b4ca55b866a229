import Folio.Proofs.Paging.Scan
import Folio.Proofs.Query.Execution

/-!
# Paging does not look at projections

Rows are sorted, cut and paged by the documents that they come from. What a page covers is therefore
the same for any two procedures that differ in their projections only: the same documents in the same
order, with the same checkpoint behind them, also when each takes up the tokens of the other.
-/

namespace Folio

/-- The row of the same document that is handed out as it is. -/
def Row.unprojected (row : Row) : Row := .ofSource row.source

namespace Paging

/-! ## Where a page lies -/

/-- The checkpoint behind a page, if rows are left there. -/
def following (paging : Paging) (rows : List Row) (start : Nat) (limit : Option Nat)
    (previous : Option Checkpoint) : Except QueryError (Option Checkpoint) :=
  match limit with
  | none => .ok none
  | some size =>
    match rows.drop (start + size) with
    | [] => .ok none
    | next :: _ => (paging.checkpointAt (rows.take (start + size)) next size previous).map some

/-- Where the page of a request lies: the number of rows before it, and the checkpoint behind it. -/
def span (paging : Paging) (rows : List Row) (size : Option Int) (token : Option String) :
    Except QueryError (Nat × Option Checkpoint) := do
  let previous ← token.mapM fun t => (Checkpoint.ofToken t).mapError .invalidToken
  let start ← paging.start previous rows
  let next ← paging.following rows start (limit? size) previous
  return (start, next)

variable (paging : Paging) (rows : List Row) (checkpoint : Checkpoint)
  (previous : Option Checkpoint) (size : Option Int) (token : Option String)

/-- A page has the results of its rows and the checkpoint behind them. -/
theorem cut_eq_following (start : Nat) (limit : Option Nat) :
    paging.cut rows start limit previous =
      (paging.following rows start limit previous).map fun next =>
        ⟨results ((rows.drop start).take (limit.getD rows.length)), next⟩ := by
  cases limit with
  | none =>
    have hall : (rows.drop start).take rows.length = rows.drop start :=
      List.take_of_length_le (by rw [List.length_drop]; omega)
    simp only [cut, following, Option.getD_none, hall]
    rfl
  | some limit =>
    simp only [cut, following, Option.getD_some]
    cases hrest : rows.drop (start + limit) with
    | nil =>
      have hlength := congrArg List.length hrest
      simp only [List.length_drop, List.length_nil] at hlength
      have hall : (rows.drop start).take limit = rows.drop start :=
        List.take_of_length_le (by rw [List.length_drop]; omega)
      rw [hall]
      rfl
    | cons next rest =>
      dsimp only
      cases paging.checkpointAt (rows.take (start + limit)) next limit previous <;> rfl

/-- The page of a request is told by where it lies. -/
theorem paginate_eq_span :
    paging.paginate rows size token = (paging.span rows size token).map fun (start, next) =>
      ⟨results ((rows.drop start).take ((limit? size).getD rows.length)), next⟩ := by
  unfold paginate span
  cases (token.mapM fun t => (Checkpoint.ofToken t).mapError .invalidToken :
    Except QueryError (Option Checkpoint)) with
  | error e => rfl
  | ok previous =>
    simp only [bind, Except.bind]
    cases paging.start previous rows with
    | error e => rfl
    | ok start =>
      simp only [cut_eq_following]
      cases paging.following rows start (limit? size) previous <;> rfl

/-! ## Projections do not matter -/

/-- The place of a row with respect to a checkpoint is that of its document. -/
theorem standing_unprojected (row : Row) :
    paging.standing checkpoint row.unprojected = paging.standing checkpoint row := rfl

/-- The rows that a request passes over are told by their documents. -/
theorem passOver_unprojected (seen : Nat) :
    paging.passOver checkpoint seen (rows.map Row.unprojected) =
      paging.passOver checkpoint seen rows := by
  induction rows generalizing seen with
  | nil => rfl
  | cons row rest ih => simp only [List.map_cons, passOver, standing_unprojected, ih]

/-- The checkpoint of a row is told by the documents of the row and of those before it. -/
theorem checkpointAt_unprojected (next : Row) (limit : Nat) :
    paging.checkpointAt (rows.map Row.unprojected) next.unprojected limit previous =
      paging.checkpointAt rows next limit previous := by
  have hidentify : paging.identify .pageSize next.unprojected = paging.identify .pageSize next := rfl
  have hrepeats (identifier : Value) :
      (((rows.map Row.unprojected).reverse.takeWhile fun row =>
        (paging.identifier.read row.source).deepEqual identifier)).length =
      (rows.reverse.takeWhile fun row =>
        (paging.identifier.read row.source).deepEqual identifier).length := by
    rw [← List.map_reverse, List.takeWhile_map, List.length_map]
    rfl
  unfold checkpointAt
  rw [hidentify]
  simp only [hrepeats]
  rfl

/-- The checkpoint behind a page is told by the documents of the rows. -/
theorem following_unprojected (start : Nat) (limit : Option Nat) :
    paging.following (rows.map Row.unprojected) start limit previous =
      paging.following rows start limit previous := by
  cases limit with
  | none => rfl
  | some limit =>
    simp only [following, ← List.map_drop, ← List.map_take]
    cases rows.drop (start + limit) with
    | nil => rfl
    | cons next rest => simp only [List.map_cons, checkpointAt_unprojected]

/-- **Where a page lies is told by the documents of the rows.** -/
theorem span_unprojected :
    paging.span (rows.map Row.unprojected) size token = paging.span rows size token := by
  have hstart (previous : Option Checkpoint) :
      paging.start previous (rows.map Row.unprojected) = paging.start previous rows := by
    cases previous with
    | none => rfl
    | some checkpoint => exact passOver_unprojected paging rows checkpoint 0
  simp only [span, hstart, following_unprojected]

end Paging

/-- Scans whose requests are answered with the same checkpoints have the same checkpoints. -/
theorem Scan.map_next_eq {serve serve' : Nat → Option String → Except QueryError Page} {i : Nat}
    {token : Option String} {pages pages' : List Page}
    (hstep : ∀ i token page page', serve i token = .ok page → serve' i token = .ok page' →
      page.next = page'.next)
    (h : Scan serve i token pages none) (h' : Scan serve' i token pages' none) :
    pages.map Page.next = pages'.map Page.next := by
  obtain ⟨failure, hfailure⟩ : ∃ failure : Option QueryError, failure = none := ⟨none, rfl⟩
  rw [← hfailure] at h
  induction h generalizing pages' with
  | failed => cases hfailure
  | last hpage hnext =>
    cases h' with
    | last hpage' hnext' => simp [hnext, hnext']
    | more hpage' hnext' => cases (hnext.symm.trans (hstep _ _ _ _ hpage hpage')).trans hnext'
  | more hpage hnext _ ih =>
    cases h' with
    | last hpage' hnext' => cases (hnext.symm.trans (hstep _ _ _ _ hpage hpage')).trans hnext'
    | more hpage' hnext' hrest' =>
      have hsame := hstep _ _ _ _ hpage hpage'
      obtain rfl := Option.some.inj ((hnext.symm.trans hsame).trans hnext')
      rw [List.map_cons, List.map_cons, hsame, ih hrest' hfailure]

namespace Procedure

/-! ## The documents behind the rows -/

/-- Two procedures that differ in their projections at most. -/
structure Alike (p q : Procedure) : Prop where
  binding : p.binding = q.binding
  top : p.top = q.top
  filter : p.filter = q.filter
  order : p.order = q.order

namespace Alike

variable {p q r : Procedure}

/-- A procedure is alike to itself. -/
theorem refl (p : Procedure) : p.Alike p := ⟨rfl, rfl, rfl, rfl⟩

/-- Procedures are alike in either order. -/
theorem symm (h : p.Alike q) : q.Alike p :=
  ⟨h.binding.symm, h.top.symm, h.filter.symm, h.order.symm⟩

/-- Procedures that are alike to one procedure are alike. -/
theorem trans (h : p.Alike q) (h' : q.Alike r) : p.Alike r :=
  ⟨h.binding.trans h'.binding, h.top.trans h'.top, h.filter.trans h'.filter,
    h.order.trans h'.order⟩

/-- Each of two alike procedures is alike to the first one. -/
theorem of_eq_or_eq (h : p.Alike q) (hr : r = p ∨ r = q) : p.Alike r := by
  rcases hr with rfl | rfl
  · exact refl r
  · exact h

end Alike

/-- The documents behind the rows that a procedure pages through: those that pass the filter and
stay in the order, sorted and cut to the first ones. -/
def documents (p : Procedure) (identifier : Identifier) (request : Request)
    (collection : List Json) : List Json :=
  let sorted := (collection.filter (p.passes request)).mergeSort fun a b =>
    ((Row.ofSource (.ofJson a)).compare identifier p.order (.ofSource (.ofJson b))).isLE
  let kept := sorted.filter fun document => (Row.ofSource (.ofJson document)).isOrdered p.order
  match p.top with
  | some count => kept.take count
  | none => kept

variable {p q : Procedure} {identifier : Identifier} {request : Request} {collection : List Json}
  {found sorted : List Row}

/-- Alike procedures page through the same documents. -/
theorem Alike.documents_eq (h : p.Alike q) :
    p.documents identifier request collection = q.documents identifier request collection := by
  obtain ⟨_, _, _, _, _⟩ := p
  obtain ⟨_, _, _, _, _⟩ := q
  obtain ⟨rfl, rfl, rfl, rfl⟩ := h
  rfl

/-- The rows that are paged through are those of the documents. -/
theorem firstRows_eq_map_rowOf (hrows : p.rows request collection = .ok found)
    (hsort : sortRows identifier p.order request.indexes found = .ok sorted) :
    p.firstRows sorted = (p.documents identifier request collection).map (p.rowOf request) := by
  rw [sorted_eq_map_rowOf hrows hsort]
  unfold firstRows documents
  cases p.top with
  | none => rfl
  | some count => exact List.map_take.symm

/-- **What a run reads off the documents.** The counts, the place of the page and its checkpoint
come from the documents alone; the results are those of the documents that the page covers. -/
theorem spec_of_run {o : Outcome} (h : p.run identifier collection request = .ok o) :
    let documents := p.documents identifier request collection
    o.scanned = collection.length ∧ o.matched = documents.length ∧
    ∃ start, Paging.span ⟨identifier, p.order⟩
        (documents.map fun document => .ofSource (.ofJson document)) request.pageSize
        request.token = .ok (start, o.page.next) ∧
      o.page.results = ((documents.drop start).take
        ((Paging.limit? request.pageSize).getD documents.length)).filterMap (p.result? request) := by
  intro documents
  obtain ⟨found, hrows, h⟩ := bind_eq_ok_iff.mp h
  obtain ⟨sorted, hsort, h⟩ := bind_eq_ok_iff.mp h
  obtain ⟨page, hpage, h⟩ := bind_eq_ok_iff.mp h
  obtain rfl := pure_eq_ok_iff.mp h
  have hfirst := firstRows_eq_map_rowOf hrows hsort
  have hunprojected : (documents.map (p.rowOf request)).map Row.unprojected =
      documents.map fun document => .ofSource (.ofJson document) := List.map_map
  rw [hfirst, Paging.paginate_eq_span, ← Paging.span_unprojected, hunprojected] at hpage
  obtain ⟨⟨start, next⟩, hspan, rfl⟩ := map_eq_ok_iff.mp hpage
  refine ⟨rfl, ?_, start, hspan, ?_⟩
  · rw [hfirst, List.length_map]
  · simp only [List.length_map, ← List.map_drop, ← List.map_take, results_map_rowOf]
    rfl

/-- Alike procedures that succeed count the same, stop at the same checkpoint and cover the same
consecutive documents. -/
theorem Alike.spec_of_run (halike : p.Alike q) {o o' : Outcome}
    (hp : p.run identifier collection request = .ok o)
    (hq : q.run identifier collection request = .ok o') :
    o.scanned = o'.scanned ∧ o.matched = o'.matched ∧ o.page.next = o'.page.next ∧
    ∃ covered, covered <:+: p.documents identifier request collection ∧
      o.page.results = covered.filterMap (p.result? request) ∧
      o'.page.results = covered.filterMap (q.result? request) := by
  obtain ⟨hscanned, hmatched, start, hspan, hresults⟩ := Procedure.spec_of_run hp
  obtain ⟨hscanned', hmatched', start', hspan', hresults'⟩ := Procedure.spec_of_run hq
  rw [← halike.documents_eq] at hmatched' hspan' hresults'
  rw [← halike.order, hspan] at hspan'
  obtain ⟨rfl, hnext⟩ := Prod.mk.inj (Except.ok.inj hspan')
  refine ⟨hscanned.trans hscanned'.symm, hmatched.trans hmatched'.symm, hnext, _, ?_, hresults,
    hresults'⟩
  exact (List.take_prefix _ _).isInfix.trans (List.drop_suffix _ _).isInfix

/-- **Paging does not look at projections.** Two procedures that differ in their projections at most
and both answer a request, with whatever token:

* count the same documents and rows and hand out the same continuation, and their pages have the
  results of the same consecutive documents;
* so whole scans with the same page sizes have the same checkpoints page by page, also where the
  requests of a scan are answered by either procedure. -/
theorem paging_eq_of_alike (halike : p.Alike q) (identifier : Identifier) (request : Request)
    (collection : List Json) :
    (∀ (size : Option Int) (token : Option String) (o o' : Outcome),
      p.run identifier collection (request.asking size token) = .ok o →
      q.run identifier collection (request.asking size token) = .ok o' →
        o.scanned = o'.scanned ∧ o.matched = o'.matched ∧
        (∀ range, o.page.continuation? range = o'.page.continuation? range) ∧
        ∃ covered, covered <:+: p.documents identifier request collection ∧
          o.page.results = covered.filterMap (p.result? request) ∧
          o'.page.results = covered.filterMap (q.result? request)) ∧
    ∀ (sizes : Nat → Option Int) (ps qs : Nat → Procedure) (pages pages' : List Page),
      (∀ i, ps i = p ∨ ps i = q) → (∀ i, qs i = p ∨ qs i = q) →
      Scan (fun i token => ((ps i).run identifier collection
        (request.asking (sizes i) token)).map Outcome.page) 0 none pages none →
      Scan (fun i token => ((qs i).run identifier collection
        (request.asking (sizes i) token)).map Outcome.page) 0 none pages' none →
        pages.map Page.next = pages'.map Page.next := by
  constructor
  · intro size token o o' hp hq
    obtain ⟨hscanned, hmatched, hnext, hcovered⟩ := halike.spec_of_run hp hq
    refine ⟨hscanned, hmatched, fun range => ?_, hcovered⟩
    rw [Page.continuation?, Page.continuation?, hnext]
  · intro sizes ps qs pages pages' hps hqs hscan hscan'
    refine hscan.map_next_eq (fun i token page page' hpage hpage' => ?_) hscan'
    obtain ⟨o, ho, rfl⟩ := map_eq_ok_iff.mp hpage
    obtain ⟨o', ho', rfl⟩ := map_eq_ok_iff.mp hpage'
    have halikes : (ps i).Alike (qs i) :=
      (halike.of_eq_or_eq (hps i)).symm.trans (halike.of_eq_or_eq (hqs i))
    exact (halikes.spec_of_run ho ho').2.2.1

/-- Three documents paged one by one as they are or by their keys: the pages that take up the first
token have the same continuation. -/
theorem paging_eq_of_alike_whole_and_value :
    let order : List OrderClause := [⟨["k"], .descending⟩]
    let whole : Procedure := ⟨"c", some 3, .document, none, order⟩
    let value : Procedure :=
      ⟨"c", some 3, .value (.property (.identifier "c") (.literal (.string "k"))), none, order⟩
    let collection : List Json :=
      [.object [("_rid", .string "x"), ("k", .string "c")],
        .object [("_rid", .string "z"), ("k", .string "b")],
        .object [("_rid", .string "y"), ("k", .string "a")]]
    whole.Alike value ∧ ∃ first c o o',
      whole.run (.ofField "_rid") collection (Request.plain.asking (some 1) none) = .ok first ∧
      first.page.next = some c ∧
      whole.run (.ofField "_rid") collection (Request.plain.asking (some 1) (some c.token)) =
        .ok o ∧
      value.run (.ofField "_rid") collection (Request.plain.asking (some 1) (some c.token)) =
        .ok o' ∧
      o.page.next.isSome ∧ o.matched = o'.matched ∧
      o.page.continuation? .full = o'.page.continuation? .full := by
  intro order whole value collection
  have halike : whole.Alike value := ⟨rfl, rfl, rfl, rfl⟩
  let paging : Paging := ⟨.ofField "_rid", order⟩
  have hcheck : (do
      let rows ← whole.rows Request.plain collection
      let rows' ← value.rows Request.plain collection
      let first ← paging.paginate (whole.firstRows rows) (some 1) none
      let c := first.next.getD ⟨.absent, 0, 0, 0, none⟩
      let start ← paging.passOver c 0 (whole.firstRows rows)
      let page ← paging.cut (whole.firstRows rows) start (Paging.limit? (some 1)) (some c)
      let start' ← paging.passOver c 0 (value.firstRows rows')
      let _ ← paging.cut (value.firstRows rows') start' (Paging.limit? (some 1)) (some c)
      return first.next.isSome && c.carried && page.next.isSome && (rows ++ rows').all
        (Row.isOrdered order) && decide (Row.Sorted (.ofField "_rid") order rows) &&
        decide (Row.Sorted (.ofField "_rid") order rows')).toOption = some true := by
    decide +kernel
  obtain ⟨rows, hrows, hcheck⟩ := bind_eq_ok_iff.mp (toOption_eq_some_iff.mp hcheck)
  obtain ⟨rows', hrows', hcheck⟩ := bind_eq_ok_iff.mp hcheck
  obtain ⟨firstPage, hfirst, hcheck⟩ := bind_eq_ok_iff.mp hcheck
  obtain ⟨start, hstart, hcheck⟩ := bind_eq_ok_iff.mp hcheck
  obtain ⟨page, hpage, hcheck⟩ := bind_eq_ok_iff.mp hcheck
  obtain ⟨start', hstart', hcheck⟩ := bind_eq_ok_iff.mp hcheck
  obtain ⟨page', hpage', hcheck⟩ := bind_eq_ok_iff.mp hcheck
  have hfacts := pure_eq_ok_iff.mp hcheck
  simp only [Bool.and_eq_true, List.all_append, List.all_eq_true, decide_eq_true_eq] at hfacts
  obtain ⟨⟨⟨⟨⟨hsome, hcarried⟩, hnext⟩, hordered, hordered'⟩, hsorted⟩, hsorted'⟩ := hfacts
  obtain ⟨c, hc⟩ := Option.isSome_iff_exists.mp hsome
  simp only [hc, Option.getD_some] at hcarried hstart hpage hstart' hpage'
  have hresumed := paging.paginate_token hcarried (whole.firstRows rows) (some 1)
  have hresumed' := paging.paginate_token hcarried (value.firstRows rows') (some 1)
  simp only [hstart, hstart', Except.bind] at hresumed hresumed'
  rw [← run_asking_of_sorted hrows rfl hordered hsorted] at hfirst
  rw [← run_asking_of_sorted hrows rfl hordered hsorted, hpage] at hresumed
  rw [← run_asking_of_sorted hrows' rfl hordered' hsorted', hpage'] at hresumed'
  obtain ⟨first, hrun, rfl⟩ := map_eq_ok_iff.mp hfirst
  obtain ⟨o, ho, rfl⟩ := map_eq_ok_iff.mp hresumed
  obtain ⟨o', ho', rfl⟩ := map_eq_ok_iff.mp hresumed'
  obtain ⟨-, hmatched, hcontinuation, -⟩ := (paging_eq_of_alike halike (.ofField "_rid")
    Request.plain collection).1 (some 1) (some c.token) o o' ho ho'
  exact ⟨halike, first, c, o, o', hrun, hc, ho, ho', hnext, hmatched, hcontinuation .full⟩

end Procedure

end Folio
