import Folio.Proofs.Paging.Cut

/-!
# Whole scans

A scan asks for one page after another, each time with the token of the page before. Where rows
with one identifier stand together, each request takes the rows up again exactly where the last page
ended, so the pages cover the rows in order: none is repeated and none is left out.
-/

namespace Folio

/-- The requests of a scan, from the one with a number and a token on: the pages that they are
answered with, and the failure that ended the scan, if one did. -/
inductive Scan (serve : Nat → Option String → Except QueryError Page) :
    Nat → Option String → List Page → Option QueryError → Prop
  /-- A request that fails ends the scan. -/
  | failed {i : Nat} {token : Option String} {e : QueryError} (h : serve i token = .error e) :
    Scan serve i token [] (some e)
  /-- A page without a checkpoint ends the scan. -/
  | last {i : Nat} {token : Option String} {page : Page} (h : serve i token = .ok page)
    (hnext : page.next = none) : Scan serve i token [page] none
  /-- The next request has the token of the page. -/
  | more {i : Nat} {token : Option String} {page : Page} {c : Checkpoint} {pages : List Page}
    {failure : Option QueryError} (h : serve i token = .ok page) (hnext : page.next = some c)
    (hrest : Scan serve (i + 1) (some c.token) pages failure) :
    Scan serve i token (page :: pages) failure

/-- A scan has one course only. -/
theorem Scan.unique {serve : Nat → Option String → Except QueryError Page} {i : Nat}
    {token : Option String} {pages pages' : List Page} {failure failure' : Option QueryError}
    (h : Scan serve i token pages failure) (h' : Scan serve i token pages' failure') :
    pages = pages' ∧ failure = failure' := by
  induction h generalizing pages' failure' with
  | failed h =>
    cases h' <;> simp_all
  | last h hnext =>
    cases h' <;> simp_all
  | more h hnext hrest ih =>
    cases h' with
    | failed h' => simp_all
    | last h' hnext' => simp_all
    | more h' hnext' hrest' =>
      obtain rfl := Except.ok.inj (h.symm.trans h')
      obtain rfl := Option.some.inj (hnext.symm.trans hnext')
      obtain ⟨rfl, rfl⟩ := ih hrest'
      exact ⟨rfl, rfl⟩

/-- Pages cover rows from a place on, the first of them being the page with a number: each has the
results of as many rows as it asks for, or of all that are left, and each but the last one has a
checkpoint that its token carries and that counts the pages and the rows so far. -/
inductive Covers (rows : List Row) (sizes : Nat → Int) : Nat → Nat → List Page → Prop
  | last {i start : Nat} {page : Page} (hend : rows.length ≤ start + (sizes i).toNat)
    (hresults : page.results = Paging.results ((rows.drop start).take (sizes i).toNat))
    (hnext : page.next = none) : Covers rows sizes i start [page]
  | more {i start : Nat} {page : Page} {c : Checkpoint} {pages : List Page}
    (hinside : start + (sizes i).toNat < rows.length)
    (hresults : page.results = Paging.results ((rows.drop start).take (sizes i).toNat))
    (hnext : page.next = some c) (htoken : Checkpoint.ofToken c.token = .ok c)
    (hround : c.round = i + 1) (htotal : c.total = start + (sizes i).toNat)
    (hrest : Covers rows sizes (i + 1) (start + (sizes i).toNat) pages) :
    Covers rows sizes i start (page :: pages)

/-- The results of pages that cover rows are the results of the rows. -/
theorem Covers.flatMap_results {rows : List Row} {sizes : Nat → Int} {i start : Nat}
    {pages : List Page} (h : Covers rows sizes i start pages) :
    pages.flatMap Page.results = Paging.results (rows.drop start) := by
  induction h with
  | last hend hresults _ =>
    rw [List.flatMap_singleton, hresults, List.take_of_length_le]
    rw [List.length_drop]
    omega
  | more _ hresults _ _ _ _ _ ih =>
    rw [List.flatMap_cons, hresults, ih, ← Paging.results_append, ← List.drop_drop,
      List.take_append_drop]

namespace Paging

/-- Rows that a scan takes up again where it left them: they are in order, their identifiers are no
arrays or objects, rows with one identifier tie on every sort key, and tokens can carry them and
their number. -/
structure Regular (paging : Paging) (rows : List Row) : Prop where
  sorted : Row.Sorted paging.identifier paging.clauses rows
  plain : ∀ row ∈ rows, (paging.identifier.read row.source).isComposite = false
  together : ∀ a ∈ rows, ∀ b ∈ rows,
    (paging.identifier.read a.source).deepEqual (paging.identifier.read b.source) = true →
      OrderClause.tie paging.clauses a.source b.source = true
  carried : ∀ row ∈ rows, row.carried paging.identifier paging.clauses = true
  length : rows.length < UInt64.size

/-- A request stands at a place among rows after a number of pages: it is the first one, or it has
the checkpoint of the row at that place. -/
def Reached (paging : Paging) (rows : List Row) (i start : Nat) : Option Checkpoint → Prop
  | none => i = 0 ∧ start = 0
  | some c => c.carried = true ∧ c.round = i ∧ c.total = start ∧ i ≤ start ∧
    ∃ next, rows[start]? = some next ∧ paging.Names (rows.take start) next c

namespace Regular

variable {paging : Paging} {rows : List Row} {i start : Nat} {previous : Option Checkpoint}

/-- A checkpoint counts exactly the duplicates of its row. -/
theorem skip_eq (h : paging.Regular rows) {next : Row} {c : Checkpoint}
    (hnext : rows[start]? = some next) (hnames : paging.Names (rows.take start) next c) :
    c.skip = (rows.take start).countP (paging.duplicates next) := by
  have hrows := eq_append_cons_of_getElem? hnext
  have hmem : next ∈ rows := List.mem_of_getElem? hnext
  refine (hnames.countP_duplicates_le_skip (hrows ▸ h.sorted) (h.plain next hmem)).2.mpr ?_
  intro row hrow
  have hequal := List.mem_takeWhile_imp hrow
  have hfront : row ∈ (rows.take start).reverse := (List.takeWhile_sublist _).subset hrow
  exact h.together row (List.mem_of_mem_take (List.mem_reverse.mp hfront)) next hmem hequal

/-- A request goes on where it stands, unless a row has no identifier. -/
theorem paginate_eq (h : paging.Regular rows) (hreached : paging.Reached rows i start previous)
    (size : Option Int) :
    paging.paginate rows size (previous.map Checkpoint.token) =
        paging.cut rows start (limit? size) previous ∨
      paging.paginate rows size (previous.map Checkpoint.token) =
          .error (.identifierRequired paging.identifier.field .continuation) ∧
        ∃ row ∈ rows, (paging.identifier.read row.source).isTruthy = false := by
  cases previous with
  | none =>
    obtain ⟨-, rfl⟩ := hreached
    exact Or.inl (paginate_none rows size)
  | some c =>
    obtain ⟨hcarried, -, -, -, next, hnext, hnames⟩ := hreached
    rw [Option.map_some, paginate_token hcarried]
    cases hok : paging.passOver c 0 rows with
    | ok n =>
      left
      have hrows := eq_append_cons_of_getElem? hnext
      have hlt : start < rows.length := (List.getElem?_eq_some_iff.mp hnext).1
      have hplace := hnames.eq_of_passOver_ok (hrows ▸ h.sorted)
        (h.plain next (List.mem_of_getElem? hnext)) (hrows ▸ hok)
      rw [h.skip_eq hnext hnames, Nat.sub_self, Nat.zero_min, Nat.add_zero, List.length_take,
        Nat.min_eq_left (Nat.le_of_lt hlt)] at hplace
      rw [hplace]
      rfl
    | error e =>
      right
      obtain ⟨rfl, hrow⟩ := passOver_error hok
      exact ⟨rfl, hrow⟩

/-- The checkpoint behind a page stands where the page ends, if the row there has an identifier. -/
theorem cut_eq (h : paging.Regular rows) (hreached : paging.Reached rows i start previous)
    {size : Nat} (hsize : 1 ≤ size) {next : Row} (hnext : rows[start + size]? = some next)
    (htruthy : (paging.identifier.read next.source).isTruthy = true) :
    ∃ c, paging.cut rows start (some size) previous =
        .ok ⟨results ((rows.drop start).take size), some c⟩ ∧
      paging.Reached rows (i + 1) (start + size) (some c) := by
  have hlt : start + size < rows.length := (List.getElem?_eq_some_iff.mp hnext).1
  have hlength := h.length
  obtain ⟨hround, htotal, hrow⟩ : (previous.map Checkpoint.round).getD 0 = i ∧
      (previous.map Checkpoint.total).getD 0 = start ∧ i ≤ start := by
    cases previous with
    | none =>
      obtain ⟨rfl, rfl⟩ := hreached
      exact ⟨rfl, rfl, Nat.le_refl 0⟩
    | some c => exact ⟨hreached.2.1, hreached.2.2.1, hreached.2.2.2.1⟩
  obtain ⟨c, hcut, hnames, hcarried, hnextRound, hnextTotal⟩ :=
    cut_of_truthy hnext htruthy (h.carried next (List.mem_of_getElem? hnext)) hlength previous
  rw [hround, wrapCounter_eq_self (by omega)] at hnextRound
  rw [htotal, wrapCounter_eq_self (by omega)] at hnextTotal
  exact ⟨c, hcut, hcarried, hnextRound, hnextTotal, by omega, next, hnext, hnames⟩

/-- **One request.** A request fails for want of an identifier, or it ends the scan with the rows
that are left, or its page is full and the next request stands where the page ends. -/
theorem step (h : paging.Regular rows) (hreached : paging.Reached rows i start previous)
    {size : Int} (hsize : 1 ≤ size) :
    (∃ option, paging.paginate rows (some size) (previous.map Checkpoint.token) =
        .error (.identifierRequired paging.identifier.field option) ∧
      ∃ row ∈ rows, (paging.identifier.read row.source).isTruthy = false) ∨
    (rows.length ≤ start + size.toNat ∧
      paging.paginate rows (some size) (previous.map Checkpoint.token) =
        .ok ⟨results ((rows.drop start).take size.toNat), none⟩) ∨
    (start + size.toNat < rows.length ∧ ∃ c,
      paging.paginate rows (some size) (previous.map Checkpoint.token) =
        .ok ⟨results ((rows.drop start).take size.toNat), some c⟩ ∧
      paging.Reached rows (i + 1) (start + size.toNat) (some c)) := by
  rcases h.paginate_eq hreached (some size) with hcut | ⟨herror, hrow⟩
  · rw [hcut, limit?_of_pos hsize]
    by_cases hend : rows.length ≤ start + size.toNat
    · exact Or.inr (Or.inl ⟨hend, cut_of_le hend previous⟩)
    · have hlt : start + size.toNat < rows.length := by omega
      have hnext := List.getElem?_eq_getElem hlt
      by_cases htruthy :
          (paging.identifier.read rows[start + size.toNat].source).isTruthy = true
      · exact Or.inr (Or.inr ⟨hlt, h.cut_eq hreached (by omega) hnext htruthy⟩)
      · left
        have hfalse : (paging.identifier.read rows[start + size.toNat].source).isTruthy = false := by
          simpa using htruthy
        refine ⟨.pageSize, ?_, _, List.getElem_mem hlt, hfalse⟩
        rw [cut_of_getElem? hnext, checkpointAt_of_not_truthy _ _ _ hfalse]
        rfl
  · exact Or.inl ⟨.continuation, herror, hrow⟩

/-- **The rest of a scan.** From any request that stands somewhere, the scan fails for want of an
identifier, or it ends and its pages cover the rows from there on. -/
theorem scan (h : paging.Regular rows) {sizes : Nat → Int} (hsizes : ∀ i, 1 ≤ sizes i)
    (hreached : paging.Reached rows i start previous) :
    ∃ pages failure,
      Scan (fun i token => paging.paginate rows (some (sizes i)) token) i
        (previous.map Checkpoint.token) pages failure ∧
      (failure = none → Covers rows sizes i start pages) ∧
      ∀ e, failure = some e →
        (∃ option, e = .identifierRequired paging.identifier.field option) ∧
          ∃ row ∈ rows, (paging.identifier.read row.source).isTruthy = false := by
  induction hleft : rows.length - start using Nat.strongRecOn generalizing i start previous with
  | ind left ih =>
    have hsize := hsizes i
    rcases h.step hreached hsize with ⟨option, herror, hrow⟩ | ⟨hend, hpage⟩ |
      ⟨hinside, c, hpage, hlater⟩
    · refine ⟨[], _, .failed herror, by simp, ?_⟩
      rintro e ⟨⟩
      exact ⟨⟨option, rfl⟩, hrow⟩
    · exact ⟨_, none, .last hpage rfl, fun _ => .last hend rfl rfl, by simp⟩
    · obtain ⟨pages, failure, hscan, hcovers, hfailure⟩ :=
        ih (rows.length - (start + (sizes i).toNat)) (by omega) hlater rfl
      obtain ⟨hcarried, hround, htotal, -⟩ := hlater
      refine ⟨_, failure, .more hpage rfl hscan, fun hnone => ?_, hfailure⟩
      exact .more hinside rfl rfl (Checkpoint.ofToken_token hcarried) hround htotal
        (hcovers hnone)

/-- Where all rows have identifiers, no request of a scan fails. -/
theorem scan_of_truthy (h : paging.Regular rows)
    (htruthy : ∀ row ∈ rows, (paging.identifier.read row.source).isTruthy = true)
    {sizes : Nat → Int} (hsizes : ∀ i, 1 ≤ sizes i)
    (hreached : paging.Reached rows i start previous) :
    ∃ pages,
      Scan (fun i token => paging.paginate rows (some (sizes i)) token) i
        (previous.map Checkpoint.token) pages none ∧
      Covers rows sizes i start pages := by
  obtain ⟨pages, failure, hscan, hcovers, hfailure⟩ := h.scan hsizes hreached
  cases failure with
  | none => exact ⟨pages, hscan, hcovers rfl⟩
  | some e =>
    obtain ⟨-, row, hrow, hfalse⟩ := hfailure e rfl
    rw [htruthy row hrow] at hfalse
    cases hfalse

end Regular

/-- **Exactly-once scans.** Over sorted rows whose identifiers are no arrays or objects and tie on
every sort key where they are equal, a scan with any positive page sizes ends. It fails only for
want of an identifier. Otherwise each page covers the rows from where the one before it ended, so
that together the pages have the results of one request without a page size. The tokens have to
carry the sort keys and identifiers, and the number of rows has to fit 64 bits. -/
theorem scan_eq_unpaged {identifier : Identifier} {clauses : List OrderClause}
    {indexes : Option (List (List IndexField))} {input rows : List Row}
    (hsort : sortRows identifier clauses indexes input = .ok rows)
    (hplain : ∀ row ∈ rows, (identifier.read row.source).isComposite = false)
    (htogether : ∀ a ∈ rows, ∀ b ∈ rows,
      (identifier.read a.source).deepEqual (identifier.read b.source) = true →
        OrderClause.tie clauses a.source b.source = true)
    (hcarried : ∀ row ∈ rows, row.carried identifier clauses = true)
    (hlength : rows.length < UInt64.size) {sizes : Nat → Int} (hsizes : ∀ i, 1 ≤ sizes i) :
    let paging : Paging := ⟨identifier, clauses⟩
    ∃ pages failure,
      Scan (fun i token => paging.paginate rows (some (sizes i)) token) 0 none pages failure ∧
      (failure = none → Covers rows sizes 0 0 pages ∧
        paging.paginate rows none none = .ok ⟨pages.flatMap Page.results, none⟩) ∧
      ∀ e, failure = some e →
        (∃ option, e = .identifierRequired identifier.field option) ∧
          ∃ row ∈ rows, (identifier.read row.source).isTruthy = false := by
  intro paging
  have hregular : paging.Regular rows :=
    ⟨sorted_of_sortRows hsort, hplain, htogether, hcarried, hlength⟩
  have hfirst : paging.Reached rows 0 0 none := ⟨rfl, rfl⟩
  obtain ⟨pages, failure, hscan, hcovers, hfailure⟩ := hregular.scan hsizes hfirst
  refine ⟨pages, failure, hscan, fun hnone => ⟨hcovers hnone, ?_⟩, hfailure⟩
  rw [(hcovers hnone).flatMap_results]
  rfl

/-- Three rows, two of them from one document, are scanned by pages of one row and of two. -/
theorem scan_eq_unpaged_one_then_two :
    let paging : Paging := ⟨.ofField "_rid", [⟨["k"], .descending⟩]⟩
    let rows : List Row :=
      [.keyed (.string "x") "b", .keyed (.string "x") "b", .keyed (.string "y") "a"]
    ∃ pages, Scan (fun i token => paging.paginate rows (some (i + 1)) token) 0 none pages none ∧
      Covers rows (fun i => i + 1) 0 0 pages ∧ pages.flatMap Page.results = results rows := by
  intro paging rows
  have hsort : sortRows paging.identifier paging.clauses none rows = .ok rows :=
    sortRows_of_sorted (by decide) (by decide) (by decide)
  have hsizes : ∀ i : Nat, (1 : Int) ≤ i + 1 := by
    intro i
    omega
  obtain ⟨pages, failure, hscan, hcovers, hfailure⟩ :=
    scan_eq_unpaged hsort (by decide) (by decide) (by decide) (by decide) hsizes
  have htruthy : ∀ row ∈ rows, (paging.identifier.read row.source).isTruthy = true := by decide
  cases failure with
  | some e =>
    obtain ⟨-, row, hrow, hfalse⟩ := hfailure e rfl
    rw [htruthy row hrow] at hfalse
    cases hfalse
  | none =>
    obtain ⟨hcover, hunpaged⟩ := hcovers rfl
    have hall : paging.paginate rows none none = .ok ⟨results rows, none⟩ := rfl
    rw [hall] at hunpaged
    exact ⟨pages, hscan, hcover, (congrArg Page.results (Except.ok.inj hunpaged)).symm⟩

end Paging

end Folio
