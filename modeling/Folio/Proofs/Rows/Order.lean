import Folio.Proofs.StableSort
import Folio.Proofs.Value.Order
import Folio.Rows.Sort

/-!
# The order of rows is lawful

A row is placed by its sort keys and its identifier, its mark. Marks are compared clause by clause
and then by identifier, which is transitive and oriented whatever the directions are. Sorting
therefore gives the rows that stay in the order, in increasing order.
-/

namespace Folio

/-- Comparing by a measure is transitive and oriented if comparing the measures is. -/
theorem transCmp_comap {α β : Type} (measure : α → β) (cmp : β → β → Ordering)
    (h : Std.TransCmp cmp) : Std.TransCmp fun a b => cmp (measure a) (measure b) where
  eq_swap := h.eq_swap
  isLE_trans := h.isLE_trans

/-- Comparing by one order, then by another, is transitive and oriented if both are. -/
theorem transCmp_then {α : Type} {first second : α → α → Ordering} (hfirst : Std.TransCmp first)
    (hsecond : Std.TransCmp second) : Std.TransCmp fun a b => (first a b).then (second a b) :=
  inferInstanceAs (Std.TransCmp (compareLex first second))

/-- An order stays transitive and oriented in either direction. -/
theorem transCmp_apply {α : Type} (direction : Direction) (cmp : α → α → Ordering)
    (h : Std.TransCmp cmp) : Std.TransCmp fun a b => direction.apply (cmp a b) := by
  cases direction with
  | ascending => exact h
  | descending =>
    have hswap : (fun a b => Direction.descending.apply (cmp a b)) = fun a b => cmp b a := by
      funext a b
      exact h.eq_swap.symm
    rw [hswap]
    infer_instance

namespace OrderClause

/-- The order of two lists of sort keys, where a key that is missing is absent. -/
def comparePadded : List OrderClause → List Value → List Value → Ordering
  | [], _, _ => .eq
  | clause :: clauses, as, bs =>
    (clause.direction.apply ((as.headD .absent).totalCompare (bs.headD .absent))).then
      (comparePadded clauses as.tail bs.tail)

/-- The order of lists of sort keys is transitive and oriented. -/
instance transCmp_comparePadded (clauses : List OrderClause) :
    Std.TransCmp (comparePadded clauses) := by
  induction clauses with
  | nil => exact { eq_swap := rfl, isLE_trans := fun _ _ => rfl }
  | cons clause clauses ih =>
    have hhead := transCmp_comap (fun keys : List Value => keys.headD .absent) _
      (transCmp_apply clause.direction Value.totalCompare inferInstance)
    have htail := transCmp_comap (List.tail : List Value → List Value) _ ih
    exact transCmp_then hhead htail

/-- Lists with a key for each clause compare as padded lists. -/
theorem compareKeys_eq_comparePadded {clauses : List OrderClause} {as bs : List Value}
    (has : clauses.length ≤ as.length) (hbs : clauses.length ≤ bs.length) :
    compareKeys clauses as bs = comparePadded clauses as bs := by
  induction clauses generalizing as bs with
  | nil => rfl
  | cons clause clauses ih =>
    rw [List.length_cons] at has hbs
    obtain ⟨a, as, rfl⟩ := List.exists_cons_of_length_pos (by omega : 0 < as.length)
    obtain ⟨b, bs, rfl⟩ := List.exists_cons_of_length_pos (by omega : 0 < bs.length)
    have hrest := ih (Nat.le_of_succ_le_succ has) (Nat.le_of_succ_le_succ hbs)
    rw [compareKeys, comparePadded, hrest, List.headD_cons, List.headD_cons, List.tail_cons,
      List.tail_cons]

/-- Padding a list of keys does not change how it compares. -/
theorem comparePadded_append_replicate (clauses : List OrderClause) (as bs : List Value)
    (count : Nat) : comparePadded clauses as (bs ++ List.replicate count .absent) =
      comparePadded clauses as bs := by
  induction clauses generalizing as bs count with
  | nil => rfl
  | cons clause clauses ih =>
    cases bs with
    | cons b bs =>
      rw [List.cons_append, comparePadded, comparePadded, List.tail_cons, List.tail_cons, ih]
      rfl
    | nil =>
      have hempty := ih as.tail [] (count - 1)
      rw [List.nil_append] at hempty
      rw [List.nil_append, comparePadded, comparePadded, List.tail_replicate, hempty]
      cases count <;> rfl

/-- A document has a key for each clause. -/
theorem length_le_length_keys (clauses : List OrderClause) (a : Value) :
    clauses.length ≤ (keys clauses a).length := by
  simp [keys]

/-- Keys of documents compare as padded lists. -/
theorem compareKeys_keys (clauses : List OrderClause) (a b : Value) :
    compareKeys clauses (keys clauses a) (keys clauses b) =
      comparePadded clauses (keys clauses a) (keys clauses b) :=
  compareKeys_eq_comparePadded (length_le_length_keys clauses a) (length_le_length_keys clauses b)

/-- Keys of a document compare with stored keys as padded lists, however many are stored. -/
theorem compareKeys_append_replicate (clauses : List OrderClause) (a : Value)
    (stored : List Value) {count : Nat} (hcount : clauses.length ≤ count) :
    compareKeys clauses (keys clauses a) (stored ++ List.replicate count .absent) =
      comparePadded clauses (keys clauses a) stored := by
  have hstored : clauses.length ≤ (stored ++ List.replicate count Value.absent).length := by
    rw [List.length_append, List.length_replicate]
    omega
  rw [compareKeys_eq_comparePadded (length_le_length_keys clauses a) hstored,
    comparePadded_append_replicate]

/-- Whether two documents tie on every sort key. -/
def tie (clauses : List OrderClause) (a b : Value) : Bool :=
  clauses.all fun clause => (clause.key a).totalCompare (clause.key b) == .eq

/-- Documents tie on the first sort key and on the others. -/
theorem tie_cons_iff {clause : OrderClause} {clauses : List OrderClause} {a b : Value} :
    tie (clause :: clauses) a b = true ↔
      (clause.key a).totalCompare (clause.key b) = .eq ∧ tie clauses a b = true := by
  rw [tie, List.all_cons, Bool.and_eq_true, beq_iff_eq, ← tie]

/-- In either direction keys tie exactly where they tie in the order of values. -/
theorem apply_eq_eq_iff {direction : Direction} {order : Ordering} :
    direction.apply order = .eq ↔ order = .eq := by
  cases direction with
  | ascending => rfl
  | descending => exact Ordering.swap_eq_eq

/-- The sort keys of two documents compare equal if the documents tie on each. -/
theorem comparePadded_keys_eq_eq_iff {clauses : List OrderClause} {a b : Value} :
    comparePadded clauses (keys clauses a) (keys clauses b) = .eq ↔ tie clauses a b = true := by
  induction clauses with
  | nil => simp [comparePadded, tie]
  | cons clause clauses ih =>
    rw [tie_cons_iff, ← ih]
    simp only [keys, List.map_cons, comparePadded, List.headD_cons, List.tail_cons,
      Ordering.then_eq_eq, apply_eq_eq_iff]

end OrderClause

/-- A place in the order of rows. -/
structure Mark where
  keys : List Value
  identifier : Value

/-- The order of marks: by the sort keys, then by the identifiers. -/
def Mark.compare (clauses : List OrderClause) (a b : Mark) : Ordering :=
  (OrderClause.comparePadded clauses a.keys b.keys).then (a.identifier.totalCompare b.identifier)

/-- The order of marks is transitive and oriented. -/
instance Mark.transCmp_compare (clauses : List OrderClause) :
    Std.TransCmp (Mark.compare clauses) := by
  have hkeys := transCmp_comap Mark.keys _ (OrderClause.transCmp_comparePadded clauses)
  have hidentifier := transCmp_comap Mark.identifier Value.totalCompare inferInstance
  exact transCmp_then hkeys hidentifier

namespace Row

/-- The place of a row. -/
def mark (identifier : Identifier) (clauses : List OrderClause) (row : Row) : Mark :=
  ⟨OrderClause.keys clauses row.source, identifier.read row.source⟩

/-- Rows compare by their marks. -/
theorem compare_eq_mark (identifier : Identifier) (clauses : List OrderClause) (a b : Row) :
    a.compare identifier clauses b =
      Mark.compare clauses (a.mark identifier clauses) (b.mark identifier clauses) := by
  rw [compare, OrderClause.compareKeys_keys]
  rfl

/-- The order of rows is transitive and oriented. -/
instance transCmp_compare (identifier : Identifier) (clauses : List OrderClause) :
    Std.TransCmp (Row.compare identifier clauses) := by
  have hmarks : Row.compare identifier clauses = fun a b =>
      Mark.compare clauses (a.mark identifier clauses) (b.mark identifier clauses) := by
    funext a b
    exact compare_eq_mark identifier clauses a b
  rw [hmarks]
  exact transCmp_comap _ _ (Mark.transCmp_compare clauses)

/-- A row ties with itself. -/
theorem compare_self (identifier : Identifier) (clauses : List OrderClause) (row : Row) :
    row.compare identifier clauses row = .eq :=
  Std.ReflCmp.compare_self

/-- Two rows compare the other way round when they are swapped. -/
theorem compare_eq_swap (identifier : Identifier) (clauses : List OrderClause) (a b : Row) :
    b.compare identifier clauses a = (a.compare identifier clauses b).swap :=
  Std.OrientedCmp.eq_swap

/-- The rows are in increasing order; neighbours may tie. -/
def Sorted (identifier : Identifier) (clauses : List OrderClause) (rows : List Row) : Prop :=
  rows.Pairwise fun a b => (a.compare identifier clauses b).isLE

/-- Whether rows are in increasing order can be computed. -/
instance (identifier : Identifier) (clauses : List OrderClause) (rows : List Row) :
    Decidable (Sorted identifier clauses rows) :=
  inferInstanceAs (Decidable (rows.Pairwise _))

end Row

section

variable {identifier : Identifier} {clauses : List OrderClause}
  {indexes : Option (List (List IndexField))} {rows sorted : List Row}

/-- Rows are sorted if an index serves the order: by merging, without those that leave the order. -/
theorem sortRows_eq_ok_iff : sortRows identifier clauses indexes rows = .ok sorted ↔
    OrderClause.servable clauses indexes = true ∧
      sorted = (rows.mergeSort fun a b => (a.compare identifier clauses b).isLE).filter
        (Row.isOrdered clauses) := by
  unfold sortRows
  split
  next hservable => simp [hservable, eq_comm]
  next hservable => simp [hservable]

/-- Sorted rows are those that stay in the order, rearranged. -/
theorem perm_of_sortRows (h : sortRows identifier clauses indexes rows = .ok sorted) :
    sorted.Perm (rows.filter (Row.isOrdered clauses)) := by
  obtain ⟨-, rfl⟩ := sortRows_eq_ok_iff.mp h
  exact (List.mergeSort_perm rows _).filter _

/-- Sorted rows are in increasing order. -/
theorem sorted_of_sortRows (h : sortRows identifier clauses indexes rows = .ok sorted) :
    Row.Sorted identifier clauses sorted := by
  obtain ⟨-, rfl⟩ := sortRows_eq_ok_iff.mp h
  exact List.Pairwise.filter _ (List.pairwise_mergeSort (fun _ _ _ => Std.TransCmp.isLE_trans)
    (isLE_total _) rows)

/-- Sorting changes nothing in rows that are in increasing order and all stay in it. -/
theorem sortRows_of_sorted (hservable : OrderClause.servable clauses indexes = true)
    (hordered : ∀ row ∈ rows, row.isOrdered clauses = true)
    (hsorted : Row.Sorted identifier clauses rows) :
    sortRows identifier clauses indexes rows = .ok rows := by
  rw [sortRows_eq_ok_iff, List.mergeSort_of_pairwise hsorted, List.filter_eq_self.mpr hordered]
  exact ⟨hservable, rfl⟩

/-! ## Rows with different identifiers -/

/-- No two rows have identifiers that tie. -/
def Row.Separate (identifier : Identifier) (rows : List Row) : Prop :=
  rows.Pairwise fun a b =>
    (identifier.read a.source).totalCompare (identifier.read b.source) ≠ .eq

/-- The rows are in strictly increasing order. -/
def Row.Ascending (identifier : Identifier) (clauses : List OrderClause) (rows : List Row) : Prop :=
  rows.Pairwise fun a b => a.compare identifier clauses b = .lt

/-- Rows stay separate in any order. -/
theorem Row.Separate.perm (h : Row.Separate identifier rows) (hperm : rows.Perm sorted) :
    Row.Separate identifier sorted := by
  refine List.Pairwise.perm h hperm fun {a b} hne heq => hne ?_
  rw [Std.OrientedCmp.eq_comm, heq]

/-- Rows that are separate are one and the same if their identifiers tie. -/
theorem Row.Separate.eq_of_tie (h : Row.Separate identifier rows) {a b : Row} (ha : a ∈ rows)
    (hb : b ∈ rows)
    (htie : (identifier.read a.source).totalCompare (identifier.read b.source) = .eq) : a = b := by
  have hsymm : Std.Symm fun a b : Row =>
      (identifier.read a.source).totalCompare (identifier.read b.source) ≠ .eq :=
    ⟨fun a b hne heq => hne (by rw [Std.OrientedCmp.eq_comm, heq])⟩
  by_contra hne
  exact h.forall ha hb hne htie

/-- Sorted rows that are separate are in strictly increasing order. -/
theorem Row.Sorted.ascending (h : Row.Sorted identifier clauses rows)
    (hseparate : Row.Separate identifier rows) : Row.Ascending identifier clauses rows := by
  refine (List.pairwise_and_iff.mpr ⟨h, hseparate⟩).imp ?_
  rintro a b ⟨hle, hne⟩
  rcases Ordering.isLE_iff_eq_lt_or_eq_eq.mp hle with hlt | heq
  · exact hlt
  · exact absurd (Ordering.then_eq_eq.mp heq).2 hne

/-- Rows can be in strictly increasing order in one way only. -/
theorem Row.Ascending.eq_of_perm {others : List Row} (h : Row.Ascending identifier clauses rows)
    (hothers : Row.Ascending identifier clauses others) (hperm : rows.Perm others) :
    rows = others := by
  refine hperm.eq_of_pairwise (fun a b _ _ hlt hgt => ?_) h hothers
  have hself := Std.TransCmp.lt_trans hlt hgt
  rw [Row.compare_self] at hself
  cases hself

/-- Separate rows stay separate when they are sorted. -/
theorem separate_of_sortRows (hseparate : Row.Separate identifier rows)
    (h : sortRows identifier clauses indexes rows = .ok sorted) :
    Row.Separate identifier sorted := by
  have hfiltered : Row.Separate identifier (rows.filter (Row.isOrdered clauses)) :=
    hseparate.filter _
  exact hfiltered.perm (perm_of_sortRows h).symm

/-- Separate rows are sorted into strictly increasing order. -/
theorem ascending_of_sortRows (hseparate : Row.Separate identifier rows)
    (h : sortRows identifier clauses indexes rows = .ok sorted) :
    Row.Ascending identifier clauses sorted :=
  (sorted_of_sortRows h).ascending (separate_of_sortRows hseparate h)

/-- **Sorting does not depend on the order of the rows** if they are separate. -/
theorem sortRows_eq_of_perm {others : List Row} (hseparate : Row.Separate identifier rows)
    (hperm : rows.Perm others) :
    sortRows identifier clauses indexes others = sortRows identifier clauses indexes rows := by
  by_cases hservable : OrderClause.servable clauses indexes = true
  · have hok (found : List Row) : ∃ result, sortRows identifier clauses indexes found = .ok result :=
      ⟨_, if_pos hservable⟩
    obtain ⟨result, hresult⟩ := hok rows
    obtain ⟨result', hresult'⟩ := hok others
    have hresults : result.Perm result' :=
      (perm_of_sortRows hresult).trans
        ((hperm.filter _).trans (perm_of_sortRows hresult').symm)
    have hequal := (ascending_of_sortRows hseparate hresult).eq_of_perm
      (ascending_of_sortRows (hseparate.perm hperm) hresult') hresults
    rw [hresult, hresult', hequal]
  · simp [sortRows, hservable]

end

end Folio
