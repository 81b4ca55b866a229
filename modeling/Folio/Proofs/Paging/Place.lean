import Folio.Proofs.Paging.Cut

/-!
# A checkpoint is a place in the order

Where a scan is taken up again is settled by the place of the checkpoint among the rows: behind the
rows before that place, and behind as many of the rows at it as the checkpoint counts. This holds of
any checkpoint, also of one that no page of these rows has handed out. A checkpoint that counts no
rows therefore leads to the same rows whatever was added or removed before its place.
-/

namespace Folio

namespace Paging

/-- Whether a row lies at the place of a checkpoint. -/
def ties (paging : Paging) (c : Checkpoint) (row : Row) : Bool := paging.place c row == .eq

/-- The rows from the place of a checkpoint on. -/
def reached (paging : Paging) (c : Checkpoint) (rows : List Row) : List Row :=
  rows.filter fun row => !paging.precedes c row

/-- Every row has an identifier that is usable and no array or object. -/
def Identified (paging : Paging) (rows : List Row) : Prop :=
  ∀ row ∈ rows, (paging.identifier.read row.source).isComposite = false ∧
    (paging.identifier.read row.source).isTruthy = true

variable {paging : Paging} {c : Checkpoint} {rows : List Row}

/-- **The place where a scan is taken up again.** In sorted rows that all have identifiers, a scan
goes on behind the rows before the checkpoint and behind as many of those at its place as it
counts. -/
theorem passOver_eq_countP (hfits : c.Fits paging.clauses)
    (hsorted : Row.Sorted paging.identifier paging.clauses rows)
    (hidentified : paging.Identified rows) :
    paging.passOver c 0 rows =
      .ok (rows.countP (paging.precedes c) + min c.skip (rows.countP (paging.ties c))) := by
  have hrepeats : ∀ row ∈ rows, paging.repeats c row = paging.ties c row := by
    intro row hrow
    obtain ⟨hplain, htruthy⟩ := hidentified row hrow
    exact repeats_eq_of_row hplain htruthy
  cases hok : paging.passOver c 0 rows with
  | ok n =>
    have hcount : rows.countP (paging.repeats c) = rows.countP (paging.ties c) :=
      List.countP_congr fun row hrow => by rw [hrepeats row hrow]
    rw [eq_countP_of_passOver_ok hfits hsorted hrepeats hok, hcount]
  | error e =>
    obtain ⟨-, row, hrow, hfalse⟩ := passOver_error hok
    rw [(hidentified row hrow).2] at hfalse
    cases hfalse

/-- In sorted rows, the rows behind those before a checkpoint are the rows from its place on. -/
theorem drop_countP_precedes (hsorted : Row.Sorted paging.identifier paging.clauses rows) :
    rows.drop (rows.countP (paging.precedes c)) = paging.reached c rows := by
  have hbefore : rows.countP (paging.precedes c) = (rows.takeWhile (paging.precedes c)).length := by
    rw [List.countP_eq_length_filter, ← before_eq_filter hsorted, before]
  calc rows.drop (rows.countP (paging.precedes c))
    _ = (rows.takeWhile (paging.precedes c) ++ rows.dropWhile (paging.precedes c)).drop
        (rows.takeWhile (paging.precedes c)).length := by
      rw [List.takeWhile_append_dropWhile, hbefore]
    _ = rows.dropWhile (paging.precedes c) := List.drop_left
    _ = paging.reached c rows := dropWhile_eq_filter_of_pairwise (pairwise_precedes c hsorted)

/-- A page is cut from the rows behind its start alone, but for what its checkpoint counts. -/
theorem cut_of_drop_eq {others tail : List Row} {start start' : Nat}
    (hrows : rows.drop start = tail) (hothers : others.drop start' = tail)
    (hidentified : paging.Identified tail) (limit : Option Nat) (previous : Option Checkpoint) :
    ∃ page page', paging.cut rows start limit previous = .ok page ∧
      paging.cut others start' limit previous = .ok page' ∧ page.results = page'.results ∧
      page.next.map (fun next => { next with skip := 0 }) =
        page'.next.map fun next => { next with skip := 0 } := by
  cases limit with
  | none => exact ⟨_, _, rfl, rfl, by rw [hrows, hothers], rfl⟩
  | some size =>
    have hbehind : rows[start + size]? = tail[size]? := by rw [← hrows, List.getElem?_drop]
    have hbehind' : others[start' + size]? = tail[size]? := by rw [← hothers, List.getElem?_drop]
    cases hnext : tail[size]? with
    | none =>
      rw [hnext, List.getElem?_eq_none_iff] at hbehind hbehind'
      exact ⟨_, _, cut_of_le hbehind previous, cut_of_le hbehind' previous,
        by rw [hrows, hothers], rfl⟩
    | some next =>
      rw [hnext] at hbehind hbehind'
      have htruthy := (hidentified next (List.mem_of_getElem? hnext)).2
      obtain ⟨n, hn, hnames, hround, htotal⟩ :=
        checkpointAt_of_truthy paging (rows.take (start + size)) size previous htruthy
      obtain ⟨n', hn', hnames', hround', htotal'⟩ :=
        checkpointAt_of_truthy paging (others.take (start' + size)) size previous htruthy
      refine ⟨⟨results ((rows.drop start).take size), some n⟩,
        ⟨results ((others.drop start').take size), some n'⟩, ?_, ?_, ?_, ?_⟩
      · rw [cut_of_getElem? hbehind, hn]
        rfl
      · rw [cut_of_getElem? hbehind', hn']
        rfl
      · rw [hrows, hothers]
      · simp [hnames.identifier, hnames'.identifier, hround, hround', htotal, htotal',
          hnames.resume, hnames'.resume]

/-- **A checkpoint is a place in the order.** Among sorted rows whose identifiers are usable and no
arrays or objects, any checkpoint that fits the order is found by its place: the page begins behind
the rows that are before it, by the sort keys in their directions and then by the identifiers, and
behind as many of the rows at its place as it counts. A checkpoint that counts none leads to the same
results from any other sorted rows that agree with these from its place on, whatever stands before
it; also the next checkpoints are the same, except that each counts the rows before it. -/
theorem paginate_eq_of_reached_eq {identifier : Identifier} {clauses : List OrderClause}
    {indexes : Option (List (List IndexField))} {input rows : List Row}
    (hsort : sortRows identifier clauses indexes input = .ok rows)
    (hidentified : Identified ⟨identifier, clauses⟩ rows) {c : Checkpoint}
    (hfits : c.Fits clauses) {token : String} (htoken : Checkpoint.ofToken token = .ok c)
    (size : Option Int) :
    let paging : Paging := ⟨identifier, clauses⟩
    let start := rows.countP (paging.precedes c) + min c.skip (rows.countP (paging.ties c))
    paging.start (some c) rows = .ok start ∧
    paging.paginate rows size (some token) = paging.cut rows start (limit? size) (some c) ∧
    (c.skip = 0 → ∀ (indexes' : Option (List (List IndexField))) (input' others : List Row),
      sortRows identifier clauses indexes' input' = .ok others → paging.Identified others →
      paging.reached c rows = paging.reached c others →
      ∃ page page', paging.paginate rows size (some token) = .ok page ∧
        paging.paginate others size (some token) = .ok page' ∧ page.results = page'.results ∧
        page.next.map (fun next => { next with skip := 0 }) =
          page'.next.map fun next => { next with skip := 0 }) := by
  intro paging start
  have hsorted := sorted_of_sortRows hsort
  have hstart : paging.passOver c 0 rows = .ok start :=
    passOver_eq_countP hfits hsorted hidentified
  have hpage : paging.paginate rows size (some token) =
      paging.cut rows start (limit? size) (some c) := by
    rw [paginate_of_ofToken htoken, hstart]
    rfl
  refine ⟨hstart, hpage, fun hskip indexes' input' others hsort' hidentified' hagree => ?_⟩
  have hsorted' := sorted_of_sortRows hsort'
  have hpage' : paging.paginate others size (some token) =
      paging.cut others (others.countP (paging.precedes c)) (limit? size) (some c) := by
    rw [paginate_of_ofToken htoken, passOver_eq_countP hfits hsorted' hidentified', hskip,
      Nat.zero_min, Nat.add_zero]
    rfl
  have hzero : start = rows.countP (paging.precedes c) := by
    simp only [start, hskip, Nat.zero_min, Nat.add_zero]
  have htail : paging.Identified (paging.reached c rows) :=
    fun row hrow => hidentified row (List.mem_of_mem_filter hrow)
  rw [hpage, hpage', hzero]
  exact cut_of_drop_eq (drop_countP_precedes hsorted)
    ((drop_countP_precedes hsorted').trans hagree.symm) htail (limit? size) (some c)

/-- A checkpoint between two rows leads behind the first of them, also after that row was removed
and another one came in before it. -/
theorem paginate_eq_of_reached_eq_between :
    let paging : Paging := ⟨.ofField "_rid", [⟨["k"], .descending⟩]⟩
    let rows : List Row :=
      [.keyed (.string "v") "b", .keyed (.string "x") "b", .keyed (.string "y") "a"]
    let others : List Row :=
      [.keyed (.string "z") "c", .keyed (.string "x") "b", .keyed (.string "y") "a"]
    let c : Checkpoint := ⟨.string "w", 1, 0, 1, some [.string "b"]⟩
    paging.start (some c) rows = .ok 1 ∧
      ∃ page page', paging.paginate rows (some 1) (some c.token) = .ok page ∧
        paging.paginate others (some 1) (some c.token) = .ok page' ∧
        page.results = page'.results := by
  intro paging rows others c
  have hsort : sortRows paging.identifier paging.clauses none rows = .ok rows :=
    sortRows_of_sorted rfl (by decide) (by decide)
  have hsort' : sortRows paging.identifier paging.clauses none others = .ok others :=
    sortRows_of_sorted rfl (by decide) (by decide)
  have hidentified : paging.Identified rows := by
    unfold Identified
    decide
  have hidentified' : paging.Identified others := by
    unfold Identified
    decide
  have htoken : Checkpoint.ofToken c.token = .ok c := Checkpoint.ofToken_token (by decide)
  obtain ⟨hstart, -, hagree⟩ :=
    paginate_eq_of_reached_eq hsort hidentified (Or.inr rfl) htoken (some 1)
  obtain ⟨page, page', hpage, hpage', hresults, -⟩ :=
    hagree rfl none others others hsort' hidentified' rfl
  exact ⟨hstart, page, page', hpage, hpage', hresults⟩

end Paging

end Folio
