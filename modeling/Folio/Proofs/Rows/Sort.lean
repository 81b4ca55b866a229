import Folio.Proofs.Rows.Order

/-!
# Sorting is stable

A row stands before another if the first clause that tells them apart says so, in its direction, or
if no clause does and its identifier is smaller. Sorting gives the one rearrangement of the rows that
stay in the order in which no row stands before an earlier one and tied rows keep their places.
-/

namespace Folio

/-! ## The order of rows -/

/-- A sort key stands strictly before another in a direction. -/
def Direction.Before : Direction → Value → Value → Prop
  | .ascending, a, b => a.totalCompare b = .lt
  | .descending, a, b => b.totalCompare a = .lt

namespace OrderClause

/-- A document stands strictly before another by the first clause whose keys do not tie. -/
def Precedes (clauses : List OrderClause) (a b : Value) : Prop :=
  ∃ tied clause others, clauses = tied ++ clause :: others ∧ tie tied a b = true ∧
    clause.direction.Before (clause.key a) (clause.key b)

/-- No document stands before another without a clause. -/
theorem not_precedes_nil (a b : Value) : ¬ Precedes [] a b := by
  rintro ⟨tied, clause, others, hsplit, -⟩
  cases tied <;> cases hsplit

/-- The first clause decides, or it ties and the other clauses decide. -/
theorem precedes_cons_iff {clause : OrderClause} {clauses : List OrderClause} {a b : Value} :
    Precedes (clause :: clauses) a b ↔
      clause.direction.Before (clause.key a) (clause.key b) ∨
        (clause.key a).totalCompare (clause.key b) = .eq ∧ Precedes clauses a b := by
  constructor
  · rintro ⟨tied, decisive, others, hsplit, htie, hbefore⟩
    cases tied with
    | nil =>
      obtain ⟨rfl, -⟩ := List.cons.inj hsplit
      exact Or.inl hbefore
    | cons first tied =>
      obtain ⟨rfl, rfl⟩ := List.cons.inj hsplit
      obtain ⟨hfirst, htied⟩ := tie_cons_iff.mp htie
      exact Or.inr ⟨hfirst, tied, decisive, others, rfl, htied, hbefore⟩
  · rintro (hbefore | ⟨hfirst, tied, decisive, others, rfl, htie, hbefore⟩)
    · exact ⟨[], clause, clauses, rfl, rfl, hbefore⟩
    · exact ⟨clause :: tied, decisive, others, rfl, tie_cons_iff.mpr ⟨hfirst, htie⟩, hbefore⟩

/-- The order of a clause in its direction is strict exactly where the key stands before. -/
theorem apply_eq_lt_iff {direction : Direction} {a b : Value} :
    direction.apply (a.totalCompare b) = .lt ↔ direction.Before a b := by
  cases direction with
  | ascending => rfl
  | descending =>
    rw [Direction.apply, Direction.Before, ← Std.OrientedCmp.eq_swap]

/-- The sort keys of two documents compare as smaller where the first one stands before. -/
theorem comparePadded_keys_eq_lt_iff {clauses : List OrderClause} {a b : Value} :
    comparePadded clauses (keys clauses a) (keys clauses b) = .lt ↔ Precedes clauses a b := by
  induction clauses with
  | nil => simp [comparePadded, not_precedes_nil]
  | cons clause clauses ih =>
    rw [precedes_cons_iff, ← ih, ← apply_eq_lt_iff]
    simp only [keys, List.map_cons, comparePadded, List.headD_cons, List.tail_cons,
      Ordering.then_eq_lt, apply_eq_eq_iff]

/-- No known index has the paths and the directions of two or more clauses in their order. -/
def Unserved (clauses : List OrderClause) (indexes : Option (List (List IndexField))) : Prop :=
  2 ≤ clauses.length ∧ ∃ known, indexes = some known ∧ ∀ index ∈ known,
    ¬ (index.map IndexField.path = clauses.map indexPath ∧
      index.map IndexField.order = clauses.map OrderClause.direction)

/-- An index has the fields of clauses if it has their paths and their directions in their order. -/
theorem eq_map_indexField_iff {index : List IndexField} {clauses : List OrderClause} :
    index = clauses.map indexField ↔ index.map IndexField.path = clauses.map indexPath ∧
      index.map IndexField.order = clauses.map OrderClause.direction := by
  induction index generalizing clauses with
  | nil => cases clauses <;> simp
  | cons field index ih =>
    cases clauses with
    | nil => simp
    | cons clause clauses =>
      obtain ⟨path, order⟩ := field
      simp only [List.map_cons, List.cons.injEq, ih, indexField, IndexField.mk.injEq]
      exact and_and_and_comm

/-- An order can be served unless indexes are known and none of them serves it. -/
theorem servable_eq_false_iff {clauses : List OrderClause}
    {indexes : Option (List (List IndexField))} :
    servable clauses indexes = false ↔ Unserved clauses indexes := by
  simp only [Unserved, ← eq_map_indexField_iff]
  cases indexes with
  | none => simp [servable]
  | some known =>
    simp [servable, servedBy, Nat.lt_iff_add_one_le]

end OrderClause

namespace Row

/-- Whether two rows tie on every sort key and in their identifiers. -/
def ties (identifier : Identifier) (clauses : List OrderClause) (a b : Row) : Bool :=
  OrderClause.tie clauses a.source b.source &&
    (identifier.read a.source).totalCompare (identifier.read b.source) == .eq

/-- A row stands strictly before another: by the clauses, or by the identifiers if the clauses do
not tell them apart. -/
def Precedes (identifier : Identifier) (clauses : List OrderClause) (a b : Row) : Prop :=
  OrderClause.Precedes clauses a.source b.source ∨
    OrderClause.tie clauses a.source b.source = true ∧
      (identifier.read a.source).totalCompare (identifier.read b.source) = .lt

variable {identifier : Identifier} {clauses : List OrderClause} {a b row : Row}

/-- Rows compare as smaller where the first one stands before. -/
theorem compare_eq_lt_iff :
    a.compare identifier clauses b = .lt ↔ a.Precedes identifier clauses b := by
  rw [compare, OrderClause.compareKeys_keys, Ordering.then_eq_lt,
    OrderClause.comparePadded_keys_eq_lt_iff, OrderClause.comparePadded_keys_eq_eq_iff]
  rfl

/-- Rows compare as equal where they tie. -/
theorem compare_beq_eq : (a.compare identifier clauses b == .eq) = a.ties identifier clauses b := by
  rw [Bool.eq_iff_iff, beq_iff_eq, compare, OrderClause.compareKeys_keys, Ordering.then_eq_eq,
    OrderClause.comparePadded_keys_eq_eq_iff, ties, Bool.and_eq_true, beq_iff_eq]

/-- A row is not greater than another unless that one stands before it. -/
theorem isLE_compare_iff :
    (a.compare identifier clauses b).isLE = true ↔ ¬ b.Precedes identifier clauses a := by
  rw [← compare_eq_lt_iff, compare_eq_swap identifier clauses a b]
  cases a.compare identifier clauses b <;> decide

/-- A row leaves the order exactly if there is one clause and its key is absent. -/
theorem isOrdered_eq_false_iff : row.isOrdered clauses = false ↔
    ∃ clause, clauses = [clause] ∧ (clause.key row.source).isAbsent = true := by
  match clauses with
  | [] => simp [isOrdered]
  | [clause] => simp [isOrdered]
  | _ :: _ :: _ => simp [isOrdered]

/-- Rows are a stable sort of others: the same rows, none before one that it should follow, and tied
ones in the same order. -/
structure StableSort (identifier : Identifier) (clauses : List OrderClause)
    (rows sorted : List Row) : Prop where
  perm : sorted.Perm rows
  ordered : sorted.Pairwise fun a b => ¬ b.Precedes identifier clauses a
  stable : ∀ row : Row, sorted.filter (row.ties identifier clauses) =
    rows.filter (row.ties identifier clauses)

/-- Rows have one stable sort. -/
theorem StableSort.unique {rows sorted sorted' : List Row}
    (h : StableSort identifier clauses rows sorted)
    (h' : StableSort identifier clauses rows sorted') : sorted = sorted' := by
  refine eq_of_filter_ties_eq (Row.compare identifier clauses)
    (h.ordered.imp isLE_compare_iff.mpr) (h'.ordered.imp isLE_compare_iff.mpr) fun row => ?_
  simp only [compare_beq_eq]
  exact (h.stable row).trans (h'.stable row).symm

end Row

section

variable {identifier : Identifier} {clauses : List OrderClause}
  {indexes : Option (List (List IndexField))} {rows sorted : List Row}

/-- Sorted rows are a stable sort of those that stay in the order. -/
theorem stableSort_of_sortRows (h : sortRows identifier clauses indexes rows = .ok sorted) :
    Row.StableSort identifier clauses (rows.filter (Row.isOrdered clauses)) sorted := by
  refine ⟨perm_of_sortRows h, ?_, fun row => ?_⟩
  · exact (sorted_of_sortRows h).imp Row.isLE_compare_iff.mp
  · obtain ⟨-, rfl⟩ := sortRows_eq_ok_iff.mp h
    have hties := filter_ties_mergeSort (Row.compare identifier clauses) row rows
    simp only [Row.compare_beq_eq] at hties
    rw [List.filter_filter, List.filter_filter]
    simp only [fun r : Row => Bool.and_comm (row.ties identifier clauses r) (r.isOrdered clauses)]
    rw [← List.filter_filter, ← List.filter_filter, hties]

/-- **Sorting.** Sorting rows is refused exactly if there are two or more clauses, indexes are known,
and none of them has the paths and directions of the clauses in their order; the rows do not matter
for that. Otherwise the result is the one stable sort of the rows, clause by clause in the directions
of the clauses and then by identifiers, without the rows whose key is absent if there is one
clause. -/
theorem sortRows_spec (identifier : Identifier) (clauses : List OrderClause)
    (indexes : Option (List (List IndexField))) (rows : List Row) :
    (∀ e, sortRows identifier clauses indexes rows = .error e ↔
      e = .missingIndex ∧ OrderClause.Unserved clauses indexes) ∧
    (∀ sorted, sortRows identifier clauses indexes rows = .ok sorted ↔
      ¬ OrderClause.Unserved clauses indexes ∧
        Row.StableSort identifier clauses (rows.filter (Row.isOrdered clauses)) sorted) ∧
    ∀ row : Row, row.isOrdered clauses = false ↔
      ∃ clause, clauses = [clause] ∧ (clause.key row.source).isAbsent = true := by
  refine ⟨fun e => ?_, fun sorted => ⟨fun h => ?_, ?_⟩, fun row => Row.isOrdered_eq_false_iff⟩
  · rw [← OrderClause.servable_eq_false_iff, sortRows]
    split
    next hservable => simp [hservable]
    next hservable => simp [hservable, eq_comm]
  · refine ⟨?_, stableSort_of_sortRows h⟩
    rw [← OrderClause.servable_eq_false_iff, Bool.not_eq_false]
    exact (sortRows_eq_ok_iff.mp h).1
  · rintro ⟨hserved, hstable⟩
    rw [← OrderClause.servable_eq_false_iff, Bool.not_eq_false] at hserved
    obtain ⟨found, hfound⟩ : ∃ found, sortRows identifier clauses indexes rows = .ok found :=
      ⟨_, sortRows_eq_ok_iff.mpr ⟨hserved, rfl⟩⟩
    rw [hfound, (stableSort_of_sortRows hfound).unique hstable]

end

end Folio
