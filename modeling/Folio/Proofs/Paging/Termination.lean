import Folio.Proofs.Paging.Scan

/-!
# When a scan ends

Objects tie in the order of values, and so do arrays with one joined text, although they differ by
content. Where all identifiers differ by content, a checkpoint counts no duplicates, and the next
page begins with the first row that ties with the checkpoint. Each page begins behind the one before
it, and the scan ends, exactly if rows that are a page apart never tie.
-/

namespace Folio.Paging

/-- Rows whose identifiers are all usable and differ by content. They are in order, and tokens can
carry them and their number. -/
structure Distinct (paging : Paging) (rows : List Row) : Prop where
  sorted : Row.Sorted paging.identifier paging.clauses rows
  truthy : ∀ row ∈ rows, (paging.identifier.read row.source).isTruthy = true
  distinct : rows.Pairwise fun a b =>
    (paging.identifier.read a.source).deepEqual (paging.identifier.read b.source) = false
  carried : ∀ row ∈ rows, row.carried paging.identifier paging.clauses = true
  length : rows.length < UInt64.size

/-- Rows that are a number of places apart never tie. -/
def Apart (paging : Paging) (rows : List Row) (size : Nat) : Prop :=
  ∀ p a b, rows[p]? = some a → rows[p + size]? = some b →
    a.compare paging.identifier paging.clauses b = .lt

/-- The number of rows before a row in the order. -/
def rank (paging : Paging) (rows : List Row) (row : Row) : Nat :=
  rows.countP fun r => r.compare paging.identifier paging.clauses row == .lt

/-- A request goes on at a place among rows: it is the first one, or it has a checkpoint that is
carried and resumes there. -/
def ResumesAt (paging : Paging) (rows : List Row) (start : Nat) : Option Checkpoint → Prop
  | none => start = 0
  | some c => c.carried = true ∧ paging.passOver c 0 rows = .ok start

section

variable {paging : Paging} {rows : List Row}

/-- In sorted rows, a place is among those before a row if its own row is before that row. -/
theorem lt_rank_iff (hsorted : Row.Sorted paging.identifier paging.clauses rows) {p : Nat}
    {a : Row} (ha : rows[p]? = some a) (b : Row) :
    p < paging.rank rows b ↔ a.compare paging.identifier paging.clauses b = .lt := by
  have hpairwise : rows.Pairwise fun r s =>
      (s.compare paging.identifier paging.clauses b == .lt) = true →
        (r.compare paging.identifier paging.clauses b == .lt) = true := by
    refine hsorted.imp fun hle hlt => ?_
    rw [beq_iff_eq] at hlt ⊢
    exact Std.TransCmp.lt_of_isLE_of_lt hle hlt
  have htake := takeWhile_eq_filter_of_pairwise hpairwise
  have hdrop := dropWhile_eq_filter_of_pairwise hpairwise
  rw [rank, List.countP_eq_length_filter, ← htake]
  rw [← List.takeWhile_append_dropWhile
    (p := fun r => r.compare paging.identifier paging.clauses b == .lt) (l := rows)] at ha
  constructor
  · intro hlt
    rw [List.getElem?_append_left hlt] at ha
    simpa using List.mem_takeWhile_imp (List.mem_of_getElem? ha)
  · intro hlt
    by_contra hge
    rw [List.getElem?_append_right (by omega), hdrop] at ha
    have hnot := (List.mem_filter.mp (List.mem_of_getElem? ha)).2
    simp [hlt] at hnot

/-- A row that is not behind another one has no more rows before it. -/
theorem rank_le_rank {a b : Row} (hle : (a.compare paging.identifier paging.clauses b).isLE) :
    paging.rank rows a ≤ paging.rank rows b := by
  refine List.countP_mono_left fun row _ hlt => ?_
  rw [beq_iff_eq] at hlt ⊢
  exact Std.TransCmp.lt_of_lt_of_isLE hlt hle

/-- In sorted rows, a row is not behind the rows at later places. -/
theorem isLE_of_le (hsorted : Row.Sorted paging.identifier paging.clauses rows) {p q : Nat}
    (hpq : p ≤ q) {a b : Row} (ha : rows[p]? = some a) (hb : rows[q]? = some b) :
    (a.compare paging.identifier paging.clauses b).isLE := by
  obtain ⟨hp, rfl⟩ := List.getElem?_eq_some_iff.mp ha
  obtain ⟨hq, rfl⟩ := List.getElem?_eq_some_iff.mp hb
  rcases Nat.lt_or_eq_of_le hpq with hlt | rfl
  · exact List.pairwise_iff_getElem.mp hsorted p q hp hq hlt
  · rw [Row.compare_self]
    rfl

/-- In sorted rows, no more rows are before a row than come earlier. -/
theorem rank_le (hsorted : Row.Sorted paging.identifier paging.clauses rows) {p : Nat} {a : Row}
    (ha : rows[p]? = some a) : paging.rank rows a ≤ p := by
  by_contra hover
  have hself := (lt_rank_iff hsorted ha a).mp (by omega)
  rw [Row.compare_self] at hself
  cases hself

namespace Distinct

variable {size start : Nat} {previous : Option Checkpoint}

/-- Where identifiers differ, no run of equal ones is counted. -/
theorem run_eq_nil (h : paging.Distinct rows) {next : Row} {k : Nat}
    (hnext : rows[k]? = some next) : paging.run (rows.take k) next = [] := by
  have hpairwise := eq_append_cons_of_getElem? hnext ▸ h.distinct
  have hfront := (List.pairwise_append.mp hpairwise).2.2
  unfold run
  cases hreverse : (rows.take k).reverse with
  | nil => rfl
  | cons row others =>
    have hmem : row ∈ (rows.take k).reverse := hreverse ▸ List.mem_cons_self
    have hdiffers := hfront row (List.mem_reverse.mp hmem) next List.mem_cons_self
    rw [List.takeWhile_cons_of_neg (by simp [hdiffers])]

/-- A page behind which a row is left has a checkpoint that is carried, and the next page begins
with the first row that ties with that row. -/
theorem cut_eq (h : paging.Distinct rows) {next : Row}
    (hnext : rows[start + size]? = some next) (previous : Option Checkpoint) :
    ∃ c, paging.cut rows start (some size) previous =
        .ok ⟨results ((rows.drop start).take size), some c⟩ ∧
      paging.ResumesAt rows (paging.rank rows next) (some c) := by
  have hmem : next ∈ rows := List.mem_of_getElem? hnext
  obtain ⟨c, hcut, hnames, hcarried, -, -⟩ :=
    cut_of_truthy hnext (h.truthy next hmem) (h.carried next hmem) h.length previous
  have hskip : c.skip = 0 := by
    rw [hnames.skip, h.run_eq_nil hnext]
    rfl
  refine ⟨c, hcut, hcarried, ?_⟩
  cases hok : paging.passOver c 0 rows with
  | ok n =>
    have hplace := Paging.eq_of_passOver_ok hnames.fits h.sorted (Nat.zero_le _) hok
    rw [hskip, before_eq_filter h.sorted, ← List.countP_eq_length_filter] at hplace
    have hprecedes : paging.precedes c = fun row =>
        row.compare paging.identifier paging.clauses next == .lt := by
      funext row
      rw [precedes, hnames.place_eq_compare]
    rw [hplace, hprecedes, Nat.sub_self, Nat.zero_min, Nat.add_zero, rank]
  | error e =>
    obtain ⟨-, row, hrow, hfalse⟩ := passOver_error hok
    rw [h.truthy row hrow] at hfalse
    cases hfalse

/-- A request is answered from where it goes on. -/
theorem paginate_eq (hresumes : paging.ResumesAt rows start previous) (size : Option Int) :
    paging.paginate rows size (previous.map Checkpoint.token) =
      paging.cut rows start (limit? size) previous := by
  cases previous with
  | none =>
    obtain rfl : start = 0 := hresumes
    exact paginate_none rows size
  | some c =>
    obtain ⟨hcarried, hplace⟩ := hresumes
    rw [Option.map_some, paginate_token hcarried, hplace]
    rfl

/-- **Scans that end.** If rows that are a page apart never tie, each page begins behind the one
before it, so a scan ends after as many pages as rows are left, or earlier. -/
theorem scan_of_apart (h : paging.Distinct rows) {size : Int} (hsize : 1 ≤ size)
    (hapart : paging.Apart rows size.toNat) (hresumes : paging.ResumesAt rows start previous)
    (i : Nat) :
    ∃ pages, Scan (fun _ token => paging.paginate rows (some size) token) i
        (previous.map Checkpoint.token) pages none ∧
      pages.length ≤ max 1 (rows.length - start) := by
  induction hleft : rows.length - start using Nat.strongRecOn generalizing i start previous with
  | ind left ih =>
    have hpage := paginate_eq hresumes (some size)
    rw [limit?_of_pos hsize] at hpage
    by_cases hend : rows.length ≤ start + size.toNat
    · rw [cut_of_le hend] at hpage
      refine ⟨_, .last hpage rfl, ?_⟩
      rw [List.length_singleton]
      omega
    · have hlt : start + size.toNat < rows.length := by omega
      have hnext := List.getElem?_eq_getElem hlt
      have hfirst := List.getElem?_eq_getElem (by omega : start < rows.length)
      obtain ⟨c, hcut, hlater⟩ := h.cut_eq hnext previous
      have hbehind := (lt_rank_iff h.sorted hfirst rows[start + size.toNat]).mpr
        (hapart start _ _ hfirst hnext)
      have hinside := rank_le h.sorted hnext
      obtain ⟨pages, hscan, hcount⟩ := ih _ (by omega) hlater (i + 1) rfl
      refine ⟨_ :: pages, .more (hpage.trans hcut) rfl hscan, ?_⟩
      rw [List.length_cons]
      omega

/-- Before rows that tie a page apart, no page ends the scan, and none leads beyond these rows. -/
theorem paginate_of_tie (h : paging.Distinct rows) {size : Int} (hsize : 1 ≤ size) {p : Nat}
    {a b : Row} (ha : rows[p]? = some a) (hb : rows[p + size.toNat]? = some b)
    (htie : a.compare paging.identifier paging.clauses b = .eq)
    (hresumes : paging.ResumesAt rows start previous) (hbefore : start ≤ paging.rank rows a) :
    ∃ page c place, paging.paginate rows (some size) (previous.map Checkpoint.token) = .ok page ∧
      page.next = some c ∧ paging.ResumesAt rows place (some c) ∧
        place ≤ paging.rank rows a := by
  have hrank := rank_le h.sorted ha
  have hlt : p + size.toNat < rows.length := (List.getElem?_eq_some_iff.mp hb).1
  have hnext := List.getElem?_eq_getElem (by omega : start + size.toNat < rows.length)
  obtain ⟨c, hcut, hlater⟩ := h.cut_eq hnext previous
  have hpage := paginate_eq hresumes (some size)
  rw [limit?_of_pos hsize] at hpage
  refine ⟨_, c, _, hpage.trans hcut, rfl, hlater, rank_le_rank ?_⟩
  have hnextb := isLE_of_le h.sorted (by omega) hnext hb
  have hba : (b.compare paging.identifier paging.clauses a).isLE := by
    rw [Row.compare_eq_swap, htie]
    rfl
  exact Std.TransCmp.isLE_trans hnextb hba

/-- **Scans that never end.** If a row ties with the one a page behind it, no request that goes on
before the rows that tie with them begins a scan that ends. -/
theorem not_scan_of_tie (h : paging.Distinct rows) {size : Int} (hsize : 1 ≤ size) {p : Nat}
    {a b : Row} (ha : rows[p]? = some a) (hb : rows[p + size.toNat]? = some b)
    (htie : a.compare paging.identifier paging.clauses b = .eq) {i : Nat} {pages : List Page}
    {failure : Option QueryError} {token : Option String}
    (hscan : Scan (fun _ token => paging.paginate rows (some size) token) i token pages failure)
    (htoken : token = previous.map Checkpoint.token)
    (hresumes : paging.ResumesAt rows start previous) : paging.rank rows a < start := by
  by_contra hbefore
  induction hscan generalizing start previous with
  | failed herror =>
    obtain ⟨page, c, place, hpage, -⟩ :=
      h.paginate_of_tie hsize ha hb htie hresumes (by omega)
    rw [htoken, hpage] at herror
    cases herror
  | last hlast hnone =>
    obtain ⟨page, c, place, hpage, hnext, -⟩ :=
      h.paginate_of_tie hsize ha hb htie hresumes (by omega)
    rw [htoken, hpage] at hlast
    rw [← Except.ok.inj hlast, hnext] at hnone
    cases hnone
  | more hmore hsome _ ih =>
    obtain ⟨page, c, place, hpage, hnext, hlater, hplace⟩ :=
      h.paginate_of_tie hsize ha hb htie hresumes (by omega)
    rw [htoken, hpage] at hmore
    rw [← Except.ok.inj hmore, hnext] at hsome
    obtain rfl := Option.some.inj hsome
    have hnextToken : some c.token = (some c).map Checkpoint.token := rfl
    exact ih hnextToken hlater (by omega)

/-- Rows whose identifiers are no arrays or objects never tie. -/
theorem apart_of_plain (h : paging.Distinct rows) (hsize : 1 ≤ size)
    (hplain : ∀ row ∈ rows, (paging.identifier.read row.source).isComposite = false) :
    paging.Apart rows size := by
  intro p a b ha hb
  rcases Ordering.isLE_iff_eq_lt_or_eq_eq.mp (isLE_of_le h.sorted (by omega) ha hb) with hlt | htie
  · exact hlt
  · have hidentifier : (paging.identifier.read a.source).totalCompare
        (paging.identifier.read b.source) = .eq := (Ordering.then_eq_eq.mp htie).2
    have hb' : b ∈ rows := List.mem_of_getElem? hb
    have hequal := Value.deepEqual_of_totalCompare_eq (hplain b hb') (h.truthy b hb') hidentifier
    obtain ⟨hp, rfl⟩ := List.getElem?_eq_some_iff.mp ha
    obtain ⟨hq, rfl⟩ := List.getElem?_eq_some_iff.mp hb
    have hdiffers := List.pairwise_iff_getElem.mp h.distinct p (p + size) hp hq (by omega)
    rw [hdiffers] at hequal
    cases hequal

end Distinct

end

/-- **Scans that end.** Over sorted rows whose identifiers are usable and differ by content, a page
begins behind the first row of the page before it exactly if that row does not tie with the one a
page behind it. A scan ends exactly if no two rows that are a page apart tie, and then after at most
as many pages as there are rows, or one if there are none. Rows can tie only if some identifier is
an array or an object. The tokens have to carry the sort keys and identifiers, and the number of
rows has to fit 64 bits. -/
theorem scan_ends_iff_apart {identifier : Identifier} {clauses : List OrderClause}
    {indexes : Option (List (List IndexField))} {input rows : List Row}
    (hsort : sortRows identifier clauses indexes input = .ok rows)
    (htruthy : ∀ row ∈ rows, (identifier.read row.source).isTruthy = true)
    (hdistinct : rows.Pairwise fun a b =>
      (identifier.read a.source).deepEqual (identifier.read b.source) = false)
    (hcarried : ∀ row ∈ rows, row.carried identifier clauses = true)
    (hlength : rows.length < UInt64.size) {size : Int} (hsize : 1 ≤ size) :
    let paging : Paging := ⟨identifier, clauses⟩
    let serve := fun (_ : Nat) token => paging.paginate rows (some size) token
    (∀ p first next previous, rows[p]? = some first → rows[p + size.toNat]? = some next →
      ∃ page c start, paging.cut rows p (some size.toNat) previous = .ok page ∧
        page.next = some c ∧ Checkpoint.ofToken c.token = .ok c ∧
        paging.start (some c) rows = .ok start ∧
        (p < start ↔ first.compare identifier clauses next = .lt)) ∧
    ((∃ pages failure, Scan serve 0 none pages failure) ↔ paging.Apart rows size.toNat) ∧
    (paging.Apart rows size.toNat →
      ∃ pages, Scan serve 0 none pages none ∧ pages.length ≤ max 1 rows.length) ∧
    ((∀ row ∈ rows, (identifier.read row.source).isComposite = false) →
      paging.Apart rows size.toNat) := by
  intro paging serve
  have hrows : paging.Distinct rows :=
    ⟨sorted_of_sortRows hsort, htruthy, hdistinct, hcarried, hlength⟩
  have hfirst : paging.ResumesAt rows 0 none := rfl
  refine ⟨?_, ⟨?_, ?_⟩, ?_, hrows.apart_of_plain (by omega)⟩
  · intro p first next previous hp hnext
    obtain ⟨c, hcut, hcarries, hstart⟩ := hrows.cut_eq hnext previous
    exact ⟨_, c, _, hcut, rfl, Checkpoint.ofToken_token hcarries, hstart,
      lt_rank_iff hrows.sorted hp next⟩
  · rintro ⟨pages, failure, hscan⟩ p a b ha hb
    rcases Ordering.isLE_iff_eq_lt_or_eq_eq.mp
        (isLE_of_le hrows.sorted (by omega) ha hb) with hlt | htie
    · exact hlt
    · have hover := hrows.not_scan_of_tie hsize ha hb htie hscan rfl hfirst
      omega
  · intro hapart
    obtain ⟨pages, hscan, -⟩ := hrows.scan_of_apart hsize hapart hfirst 0
    exact ⟨pages, none, hscan⟩
  · intro hapart
    exact hrows.scan_of_apart hsize hapart hfirst 0

/-- Two rows with objects as identifiers tie, so a scan row by row begins again with the first row
each time and never ends. -/
theorem scan_never_ends_objects :
    let paging : Paging := ⟨.ofField "_rid", []⟩
    let first := Row.keyed (.object [("a", .string "x")]) "a"
    let next := Row.keyed (.object [("a", .string "y")]) "b"
    sortRows paging.identifier paging.clauses none [first, next] = .ok [first, next] ∧
      ((paging.identifier.read first.source).deepEqual (paging.identifier.read next.source)) =
        false ∧
      ¬ ∃ pages failure, Scan (fun _ token => paging.paginate [first, next] (some 1) token) 0 none
        pages failure := by
  intro paging first next
  have hsort : sortRows paging.identifier paging.clauses none [first, next] =
      .ok [first, next] :=
    sortRows_of_sorted (by decide) (by decide) (by decide)
  obtain ⟨-, hends, -⟩ :=
    scan_ends_iff_apart hsort (by decide) (by decide) (by decide) (by decide) (Int.le_refl 1)
  refine ⟨hsort, by decide, fun hscan => ?_⟩
  have htie : first.compare paging.identifier paging.clauses next = .eq := by decide
  have hlt := hends.mp hscan 0 first next rfl rfl
  rw [htie] at hlt
  cases hlt

end Folio.Paging
