import Folio.Proofs.Rows.Order

/-!
# Sorting is by a total preorder

Comparing values is a total preorder of all of them, and so is comparing sort keys and then
identifiers, clause by clause in whatever directions. A tuple of sort keys needs a key for each
clause: a missing key ends a comparison early, and shorter tuples would tie with unequal ones.
-/

namespace Folio

/-- Comparing is a total preorder. -/
structure LawfulOrder {α : Type} (cmp : α → α → Ordering) : Prop where
  /-- A member ties with itself. -/
  compare_self (a : α) : cmp a a = .eq
  /-- Swapping the members reverses the answer. -/
  compare_swap (a b : α) : cmp b a = (cmp a b).swap
  /-- Not to be greater is transitive. -/
  isLE_trans (a b c : α) : (cmp a b).isLE → (cmp b c).isLE → (cmp a c).isLE

/-- A transitive and oriented order is a total preorder. -/
theorem LawfulOrder.of_transCmp {α : Type} (cmp : α → α → Ordering) [Std.TransCmp cmp] :
    LawfulOrder cmp where
  compare_self _ := Std.ReflCmp.compare_self
  compare_swap _ _ := Std.OrientedCmp.eq_swap
  isLE_trans _ _ _ := Std.TransCmp.isLE_trans

/-- Values of different kinds compare by their kinds. -/
theorem Value.totalCompare_of_rank_lt {a b : Value} (h : a.kind.rank < b.kind.rank) :
    a.totalCompare b = .lt := by
  rw [totalCompare, Nat.compare_eq_lt.mpr h]
  rfl

/-- The marks with a sort key for each clause. -/
abbrev FullMark (clauses : List OrderClause) : Type :=
  {mark : Mark // clauses.length ≤ mark.keys.length}

/-- The order of marks with a key for each clause is that of marks. -/
theorem FullMark.compare_eq (clauses : List OrderClause) (a b : FullMark clauses) :
    (OrderClause.compareKeys clauses a.1.keys b.1.keys).then
        (a.1.identifier.totalCompare b.1.identifier) = Mark.compare clauses a.1 b.1 := by
  rw [OrderClause.compareKeys_eq_comparePadded a.2 b.2, Mark.compare]

/-- **Sorting is by a total preorder.** Comparing values is a total preorder in which values of
different kinds are ordered as their kinds are: absent, null, booleans, numbers, strings, arrays and
then objects. For all clauses in whatever directions, comparing sort keys and then identifiers is a
total preorder of the marks with a key for each clause, and comparing rows is one of the rows. -/
theorem lawfulOrder_compare :
    LawfulOrder Value.totalCompare ∧
    [Kind.absent, .null, .boolean, .number, .string, .array, .object].Pairwise
      (fun k l => ∀ a b : Value, a.kind = k → b.kind = l → a.totalCompare b = .lt) ∧
    ∀ clauses : List OrderClause,
      LawfulOrder (fun a b : FullMark clauses =>
        (OrderClause.compareKeys clauses a.1.keys b.1.keys).then
          (a.1.identifier.totalCompare b.1.identifier)) ∧
      ∀ identifier : Identifier, LawfulOrder (Row.compare identifier clauses) := by
  refine ⟨LawfulOrder.of_transCmp _, ?_, fun clauses => ⟨?_, fun identifier => ?_⟩⟩
  · have hranks : [Kind.absent, .null, .boolean, .number, .string, .array, .object].Pairwise
        (fun k l => k.rank < l.rank) := by decide
    refine hranks.imp fun {k l} hrank a b hk hl => ?_
    subst hk hl
    exact Value.totalCompare_of_rank_lt hrank
  · have hmarks : Std.TransCmp fun a b : FullMark clauses => Mark.compare clauses a.1 b.1 :=
      transCmp_comap Subtype.val (Mark.compare clauses) inferInstance
    simp only [FullMark.compare_eq]
    exact LawfulOrder.of_transCmp _
  · exact LawfulOrder.of_transCmp _

/-- With a descending clause before an ascending one, not-a-number comes before minus infinity, and
behind that an array comes before an object. -/
theorem lawfulOrder_compare_mixed_directions :
    let clauses : List OrderClause := [⟨["a"], .descending⟩, ⟨["b"], .ascending⟩]
    let first : Mark := ⟨[.number .nan, .null], .string "1"⟩
    let second : Mark := ⟨[.number (.infinity true), .array [.absent]], .string "2"⟩
    let third : Mark := ⟨[.number (.infinity true), .object []], .string "3"⟩
    let cmp (a b : Mark) := (OrderClause.compareKeys clauses a.keys b.keys).then
      (a.identifier.totalCompare b.identifier)
    cmp first second = .lt ∧ cmp second third = .lt ∧ (cmp first third).isLE ∧
      cmp third second = .gt := by
  intro clauses first second third cmp
  have hfirst : cmp first second = .lt := by decide +kernel
  have hsecond : cmp second third = .lt := by decide +kernel
  have hmarks := (lawfulOrder_compare.2.2 clauses).1
  have hle := hmarks.isLE_trans ⟨first, Nat.le_refl 2⟩ ⟨second, Nat.le_refl 2⟩
    ⟨third, Nat.le_refl 2⟩ (Ordering.isLE_of_eq_lt hfirst) (Ordering.isLE_of_eq_lt hsecond)
  have hswap := hmarks.compare_swap ⟨second, Nat.le_refl 2⟩ ⟨third, Nat.le_refl 2⟩
  exact ⟨hfirst, hsecond, hle, hswap.trans (congrArg Ordering.swap hsecond)⟩

end Folio
