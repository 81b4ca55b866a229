import Folio.Proofs.Paging.Resume

/-!
# Checkpoints of sorted rows

The checkpoint of a row names the row's own place, so the rows before that place are exactly those
that sort strictly before the row. It counts the run of rows with the same identifier directly
before the row, while passing over counts the rows at the same place. The scan goes on at the row
itself if the two agree.
-/

namespace Folio

/-- The row of a document with an identifier and one more field. -/
def Row.keyed (identifier : Value) (key : String) : Row :=
  .ofSource (.object [("_rid", identifier), ("k", .string key)])

namespace Paging

/-- Whether a row is a duplicate of another: they tie on every sort key and their identifiers are
equal. -/
def duplicates (paging : Paging) (next row : Row) : Bool :=
  OrderClause.tie paging.clauses row.source next.source &&
    (paging.identifier.read row.source).deepEqual (paging.identifier.read next.source)

/-- The run of rows with the identifier of `next` at the end of the rows before it, last one
first. -/
def run (paging : Paging) (front : List Row) (next : Row) : List Row :=
  front.reverse.takeWhile fun row =>
    (paging.identifier.read row.source).deepEqual (paging.identifier.read next.source)

/-- A checkpoint names the row `next` after the rows `front`. -/
structure Names (paging : Paging) (front : List Row) (next : Row) (c : Checkpoint) : Prop where
  identifier : c.identifier = paging.identifier.read next.source
  truthy : c.identifier.isTruthy = true
  skip : c.skip = (paging.run front next).length
  resume : c.resume =
    if paging.clauses.isEmpty then none else some (OrderClause.keys paging.clauses next.source)

variable {paging : Paging} {front after : List Row} {next : Row} {c : Checkpoint}

/-- The checkpoint of a row that has an identifier names the row and goes on counting. -/
theorem checkpointAt_of_truthy (paging : Paging) (front : List Row) (size : Nat)
    (previous : Option Checkpoint)
    (htruthy : (paging.identifier.read next.source).isTruthy = true) :
    ∃ c, paging.checkpointAt front next size previous = .ok c ∧ paging.Names front next c ∧
      c.round = wrapCounter ((previous.map Checkpoint.round).getD 0 + 1) ∧
      c.total = wrapCounter ((previous.map Checkpoint.total).getD 0 + size) := by
  unfold checkpointAt identify
  rw [if_pos htruthy]
  exact ⟨_, rfl, ⟨rfl, htruthy, rfl, rfl⟩, rfl, rfl⟩

/-- There is no checkpoint of a row without an identifier. -/
theorem checkpointAt_of_not_truthy (front : List Row) (size : Nat) (previous : Option Checkpoint)
    (hfalse : (paging.identifier.read next.source).isTruthy = false) :
    paging.checkpointAt front next size previous =
      .error (.identifierRequired paging.identifier.field .pageSize) := by
  unfold checkpointAt identify
  rw [if_neg (by simp [hfalse])]
  rfl

namespace Names

/-- The checkpoint of a row has sort keys if there is an order. -/
theorem fits (h : paging.Names front next c) : c.Fits paging.clauses := by
  unfold Checkpoint.Fits
  rw [h.resume]
  by_cases hempty : paging.clauses = [] <;> simp [hempty]

/-- The checkpoint of a row lies where the row lies. -/
theorem place_eq_compare (h : paging.Names front next c) (row : Row) :
    paging.place c row = row.compare paging.identifier paging.clauses next := by
  have hmark : c.mark = next.mark paging.identifier paging.clauses := by
    unfold Checkpoint.mark Row.mark
    rw [h.identifier, h.resume]
    by_cases hempty : paging.clauses = [] <;> simp [hempty, OrderClause.keys]
  rw [place, hmark, Row.compare_eq_mark]

/-- The rows that repeat the checkpoint of a row are its duplicates. -/
theorem repeats_eq_duplicates (h : paging.Names front next c) (row : Row) :
    paging.repeats c row = paging.duplicates next row := by
  unfold repeats duplicates
  rw [h.place_eq_compare, Row.compare_eq_mark, h.identifier, Bool.eq_iff_iff]
  simp only [Bool.and_eq_true, beq_iff_eq, Mark.compare, Ordering.then_eq_eq]
  rw [Row.mark, Row.mark, OrderClause.comparePadded_keys_eq_eq_iff]
  constructor
  · rintro ⟨⟨htie, _⟩, hequal⟩
    exact ⟨htie, hequal⟩
  · rintro ⟨htie, hequal⟩
    exact ⟨⟨htie, Value.totalCompare_eq_of_deepEqual hequal⟩, hequal⟩

/-- The row itself and later rows do not lie before the checkpoint of the row. -/
theorem countP_precedes_after (h : paging.Names front next c)
    (hsorted : Row.Sorted paging.identifier paging.clauses (front ++ next :: after)) :
    (next :: after).countP (paging.precedes c) = 0 := by
  have hafter := (List.pairwise_append.mp hsorted).2.1
  have hnext : paging.precedes c next = false := by
    simp [precedes, h.place_eq_compare, Row.compare_self]
  rw [List.countP_eq_zero]
  intro row hrow
  rcases List.mem_cons.mp hrow with rfl | hrow
  · simp [hnext]
  · simp [precedes_eq_false_of_sorted ((List.pairwise_cons.mp hafter).1 row hrow) hnext]

/-- A row before the boundary lies before the checkpoint or at its place. -/
theorem place_eq_lt_or_eq (h : paging.Names front next c)
    (hsorted : Row.Sorted paging.identifier paging.clauses (front ++ next :: after)) {row : Row}
    (hrow : row ∈ front) : paging.place c row = .lt ∨ paging.place c row = .eq := by
  have hle := (List.pairwise_append.mp hsorted).2.2 row hrow next List.mem_cons_self
  rw [h.place_eq_compare]
  exact Ordering.isLE_iff_eq_lt_or_eq_eq.mp hle

/-- Each row before the boundary lies before the checkpoint or is a duplicate of its row. -/
theorem countP_add_countP (h : paging.Names front next c)
    (hsorted : Row.Sorted paging.identifier paging.clauses (front ++ next :: after))
    (hplain : (paging.identifier.read next.source).isComposite = false) :
    front.countP (paging.precedes c) + front.countP (paging.duplicates next) = front.length := by
  rw [List.length_eq_countP_add_countP (paging.precedes c)]
  congr 1
  refine List.countP_congr fun row hrow => ?_
  rw [← h.repeats_eq_duplicates, repeats_eq (h.identifier ▸ hplain) h.truthy, precedes]
  rcases h.place_eq_lt_or_eq hsorted hrow with hplace | hplace <;> simp [hplace]

/-- The duplicates before a boundary all stand directly before it, so they begin the run. -/
theorem countP_duplicates_eq (h : paging.Names front next c)
    (hsorted : Row.Sorted paging.identifier paging.clauses (front ++ next :: after))
    (hplain : (paging.identifier.read next.source).isComposite = false) :
    front.countP (paging.duplicates next) = ((paging.run front next).takeWhile fun row =>
      OrderClause.tie paging.clauses row.source next.source).length := by
  have hlast : front.reverse.Pairwise fun a b =>
      paging.duplicates next b = true → paging.duplicates next a = true := by
    rw [List.pairwise_reverse]
    refine (List.pairwise_append.mp hsorted).1.imp_of_mem fun {a b} ha hb hle => ?_
    rw [← h.repeats_eq_duplicates, ← h.repeats_eq_duplicates]
    simp only [repeats_eq (h.identifier ▸ hplain) h.truthy, beq_iff_eq]
    intro hplace
    have hreached : paging.precedes c b = false := precedes_eq_false_of_sorted hle (by
      simp [precedes, hplace])
    rcases h.place_eq_lt_or_eq hsorted hb with hlt | heq
    · simp [precedes, hlt] at hreached
    · exact heq
  calc front.countP (paging.duplicates next)
    _ = (front.reverse.filter (paging.duplicates next)).length := by
      rw [← List.countP_eq_length_filter, List.countP_reverse]
    _ = (front.reverse.takeWhile (paging.duplicates next)).length := by
      rw [takeWhile_eq_filter_of_pairwise hlast]
    _ = _ := by
      rw [run, List.takeWhile_takeWhile]
      congr 2
      funext row
      simp [duplicates]

/-- **The skip count.** A checkpoint counts at least the duplicates of its row, and it counts
exactly these if every row of the run ties with the row on all sort keys. -/
theorem countP_duplicates_le_skip (h : paging.Names front next c)
    (hsorted : Row.Sorted paging.identifier paging.clauses (front ++ next :: after))
    (hplain : (paging.identifier.read next.source).isComposite = false) :
    front.countP (paging.duplicates next) ≤ c.skip ∧
      (c.skip = front.countP (paging.duplicates next) ↔
        ∀ row ∈ paging.run front next,
          OrderClause.tie paging.clauses row.source next.source = true) := by
  rw [h.skip, h.countP_duplicates_eq hsorted hplain]
  refine ⟨(List.takeWhile_sublist _).length_le, ?_⟩
  rw [← List.takeWhile_eq_self_iff]
  constructor
  · intro hlength
    exact (List.takeWhile_sublist _).eq_of_length hlength.symm
  · intro hself
    rw [hself]

/-- **Where the scan goes on after a boundary.** It goes on at the boundary, or behind it by as
many rows as the checkpoint counts beyond the duplicates, as long as there are duplicates. -/
theorem eq_of_passOver_ok (h : paging.Names front next c)
    (hsorted : Row.Sorted paging.identifier paging.clauses (front ++ next :: after))
    (hplain : (paging.identifier.read next.source).isComposite = false) {n : Nat}
    (hok : paging.passOver c 0 (front ++ next :: after) = .ok n) :
    n = front.length + min (c.skip - front.countP (paging.duplicates next))
      ((next :: after).countP (paging.duplicates next)) := by
  have hcount := eq_countP_of_passOver_ok h.fits hsorted
    (fun row _ => Paging.repeats_eq (h.identifier ▸ hplain) h.truthy row) hok
  have hbefore := h.countP_add_countP hsorted hplain
  have hskip := (h.countP_duplicates_le_skip hsorted hplain).1
  have hrepeats : paging.repeats c = paging.duplicates next := funext h.repeats_eq_duplicates
  rw [List.countP_append, List.countP_append, h.countP_precedes_after hsorted, hrepeats] at hcount
  omega

end Names

/-- **Resuming after a boundary.** In sorted rows whose identifiers are no arrays or objects, the
checkpoint of any boundary counts the run of rows with one identifier before the boundary. It takes
the scan up again at the boundary, or behind it by as many rows as its count exceeds the duplicates
before the boundary. It does so at the boundary exactly if the run that is counted holds duplicates
only: no row of it has the same identifier under other sort keys. -/
theorem start_checkpointAt_eq_boundary_iff {identifier : Identifier} {clauses : List OrderClause}
    {indexes : Option (List (List IndexField))} {rows front after : List Row} {next : Row}
    (hsort : sortRows identifier clauses indexes rows = .ok (front ++ next :: after))
    (hidentifiers : ∀ row ∈ front ++ next :: after,
      (identifier.read row.source).isComposite = false ∧
        (identifier.read row.source).isTruthy = true)
    (size : Nat) (previous : Option Checkpoint) :
    let paging : Paging := ⟨identifier, clauses⟩
    ∃ c, paging.checkpointAt front next size previous = .ok c ∧
      c.skip = (paging.run front next).length ∧
      paging.start (some c) (front ++ next :: after) =
        .ok (front.length + min (c.skip - front.countP (paging.duplicates next))
          ((next :: after).countP (paging.duplicates next))) ∧
      (paging.start (some c) (front ++ next :: after) = .ok front.length ↔
        c.skip = front.countP (paging.duplicates next)) ∧
      (c.skip = front.countP (paging.duplicates next) ↔
        ∀ row ∈ paging.run front next, OrderClause.tie clauses row.source next.source = true) := by
  intro paging
  have hsorted := sorted_of_sortRows hsort
  obtain ⟨hplain, htruthy⟩ := hidentifiers next (by simp)
  obtain ⟨c, hc, hnames, -, -⟩ :=
    checkpointAt_of_truthy paging front size previous htruthy
  obtain ⟨hle, hrun⟩ := hnames.countP_duplicates_le_skip hsorted hplain
  have hstart : paging.start (some c) (front ++ next :: after) =
      .ok (front.length + min (c.skip - front.countP (paging.duplicates next))
        ((next :: after).countP (paging.duplicates next))) := by
    cases hok : paging.passOver c 0 (front ++ next :: after) with
    | ok n => rw [start, hok, hnames.eq_of_passOver_ok hsorted hplain hok]
    | error e =>
      obtain ⟨-, row, hrow, hfalse⟩ := passOver_error hok
      rw [(hidentifiers row hrow).2] at hfalse
      cases hfalse
  have hself : paging.duplicates next next = true := by
    rw [← hnames.repeats_eq_duplicates, repeats_eq (hnames.identifier ▸ hplain) hnames.truthy,
      hnames.place_eq_compare, Row.compare_self, beq_self_eq_true]
  have hpositive : 0 < (next :: after).countP (paging.duplicates next) := by
    rw [List.countP_cons_of_pos hself]
    omega
  refine ⟨c, hc, hnames.skip, hstart, ?_, hrun⟩
  rw [hstart, Except.ok.injEq]
  omega

/-- Two rows with one identifier under two sort keys: the checkpoint of the second one counts the
first one, so the scan goes on behind the second one, which is never handed out. -/
theorem start_checkpointAt_one_identifier :
    let paging : Paging := ⟨.ofField "_rid", [⟨["k"], .ascending⟩]⟩
    let first := Row.keyed (.string "x") "a"
    let next := Row.keyed (.string "x") "b"
    ∃ c, paging.checkpointAt [first] next 1 none = .ok c ∧
      [first].countP (paging.duplicates next) = 0 ∧ c.skip = 1 ∧
        paging.start (some c) [first, next] = .ok 2 := by
  intro paging first next
  have hsort : sortRows paging.identifier paging.clauses none ([first] ++ [next]) =
      .ok ([first] ++ [next]) :=
    sortRows_of_sorted (by decide) (by decide) (by decide)
  obtain ⟨c, hc, hskip, hstart, -⟩ :=
    start_checkpointAt_eq_boundary_iff hsort (by decide) 1 none
  have hrun : (paging.run [first] next).length = 1 := by decide
  have hbefore : [first].countP (paging.duplicates next) = 0 := by decide
  have hafter : [next].countP (paging.duplicates next) = 1 := by decide
  have hone : c.skip = 1 := hskip.trans hrun
  refine ⟨c, hc, hbefore, hone, hstart.trans ?_⟩
  rw [hbefore, hafter, hone]
  rfl

end Paging

end Folio
