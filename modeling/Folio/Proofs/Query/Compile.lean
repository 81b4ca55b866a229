import Folio.Proofs.Expr.Names
import Folio.Query.Parser
import Folio.Query.Procedure

/-!
# What compiling checks

Every expression that a procedure evaluates was checked by compiling: its names resolve. The clauses
of its order have at least one key each. Where every order item of a statement is a proper path, as
the parser makes sure, compiling fails for a name only.
-/

namespace Folio

variable {binding : String} {err : QueryError}

/-- The expressions that a projection evaluates. -/
def Projection.exprs : Projection → List Expr
  | .document => []
  | .value e => [e]
  | .fields named => named.map Prod.snd

/-- The expressions that a procedure evaluates: its filter and those of its projection. -/
def Procedure.exprs (p : Procedure) : List Expr := p.filter.toList ++ p.projection.exprs

/-! ## Order items -/

namespace OrderItem

variable {item : OrderItem}

/-- An order item has a clause if it is a path with at least one key below the document; the clause
has that path and the direction of the item. -/
theorem clause_eq_ok_iff {clause : OrderClause} : item.clause binding = .ok clause ↔
    item.expr.path? = some (binding, clause.path) ∧ clause.path ≠ [] ∧
      clause.direction = item.direction := by
  obtain ⟨path, direction⟩ := clause
  unfold OrderItem.clause
  split
  next root key keys hpath =>
    rw [hpath]
    split
    next hroot =>
      simp only [Except.ok.injEq, OrderClause.mk.injEq, Option.some.injEq, Prod.mk.injEq]
      constructor
      · rintro ⟨rfl, rfl⟩
        exact ⟨⟨hroot, rfl⟩, List.cons_ne_nil _ _, rfl⟩
      · rintro ⟨⟨-, rfl⟩, -, rfl⟩
        exact ⟨rfl, rfl⟩
    next hroot =>
      refine iff_of_false nofun fun h => hroot ?_
      exact (Prod.mk.inj (Option.some.inj h.1)).1
  next hnot =>
    refine iff_of_false nofun ?_
    rintro ⟨hpath, hne, -⟩
    cases path with
    | nil => exact hne rfl
    | cons key keys => exact hnot binding key keys hpath

/-- A proper path is refused as an order item for its root only. -/
theorem isNameFault_of_clause (hproper : Query.isProperPath item.expr = true)
    (h : item.clause binding = .error err) : err.IsNameFault := by
  unfold OrderItem.clause at h
  split at h
  · split at h
    · cases h
    · rw [← Except.error.inj h]
      exact Or.inl rfl
  next hnot =>
    unfold Query.isProperPath at hproper
    cases hpath : item.expr.path? with
    | none => simp [hpath] at hproper
    | some found =>
      obtain ⟨root, keys⟩ := found
      cases keys with
      | nil => simp [hpath] at hproper
      | cons key keys => exact absurd hpath (hnot root key keys)

end OrderItem

/-! ## Selections -/

namespace Selection

variable {selection : Selection}

/-- Naming items keeps their expressions. -/
theorem map_snd_named (unnamed : Nat) (items : List SelectItem) :
    (SelectItem.named unnamed items).map Prod.snd = items.map SelectItem.expr := by
  induction items generalizing unnamed with
  | nil => rfl
  | cons item rest ih =>
    unfold SelectItem.named
    split <;> simp [ih]

/-- The names in the expressions of a projection resolve. -/
theorem resolved_of_project {projection : Projection}
    (h : selection.project binding = .ok projection) :
    ∀ e ∈ projection.exprs, e.Resolved binding := by
  cases selection with
  | all =>
    obtain rfl := Except.ok.inj h
    simp [Projection.exprs]
  | value e =>
    obtain ⟨_, hresolved, h⟩ := bind_eq_ok_iff.mp h
    obtain rfl := pure_eq_ok_iff.mp h
    exact List.forall_mem_singleton.mpr hresolved
  | items selected =>
    obtain ⟨_, hresolved, h⟩ := bind_eq_ok_iff.mp h
    obtain rfl := pure_eq_ok_iff.mp h
    rw [Projection.exprs, map_snd_named]
    exact List.forall_mem_map.mpr (forall_of_forM_eq_ok hresolved)

/-- A selection is refused for a name only. -/
theorem isNameFault_of_project (h : selection.project binding = .error err) :
    err.IsNameFault := by
  cases selection with
  | all => cases h
  | value e =>
    rcases bind_eq_error_iff.mp h with h | ⟨_, -, h⟩
    · exact Expr.isNameFault_of_resolveNames h
    · exact absurd h pure_ne_error
  | items selected =>
    rcases bind_eq_error_iff.mp h with h | ⟨_, -, h⟩
    · obtain ⟨item, -, hfails⟩ := exists_of_forM_eq_error h
      exact Expr.isNameFault_of_resolveNames hfails
    · exact absurd h pure_ne_error

end Selection

/-! ## Statements -/

namespace Statement

variable {s : Statement}

/-- **Compiled statements.** The names in the expressions of a procedure resolve, and the clauses of
its order have at least one key each. -/
theorem spec_of_compile {p : Procedure} (h : s.compile = .ok p) :
    (∀ e ∈ p.exprs, e.Resolved s.binding) ∧ ∀ clause ∈ p.order, clause.path ≠ [] := by
  obtain ⟨projection, hprojection, h⟩ := bind_eq_ok_iff.mp h
  obtain ⟨_, hfilter, h⟩ := bind_eq_ok_iff.mp h
  obtain ⟨order, horder, h⟩ := bind_eq_ok_iff.mp h
  obtain rfl := pure_eq_ok_iff.mp h
  constructor
  · intro e he
    rcases List.mem_append.mp he with he | he
    · have hsome : s.filter = some e := Option.mem_toList.mp he
      rw [hsome] at hfilter
      exact hfilter
    · exact Selection.resolved_of_project hprojection e he
  · intro clause hclause
    obtain ⟨item, -, hitem⟩ := exists_of_mapM_eq_ok horder hclause
    exact (OrderItem.clause_eq_ok_iff.mp hitem).2.1

/-- **Statements that do not compile.** If every order item is a proper path, compiling fails for a
name only. -/
theorem isNameFault_of_compile
    (hproper : ∀ item ∈ s.order, Query.isProperPath item.expr = true)
    (h : s.compile = .error err) : err.IsNameFault := by
  rcases bind_eq_error_iff.mp h with h | ⟨projection, -, h⟩
  · exact Selection.isNameFault_of_project h
  rcases bind_eq_error_iff.mp h with h | ⟨_, -, h⟩
  · cases hfilter : s.filter with
    | none =>
      rw [hfilter] at h
      cases h
    | some filter =>
      rw [hfilter] at h
      exact Expr.isNameFault_of_resolveNames h
  rcases bind_eq_error_iff.mp h with h | ⟨order, -, h⟩
  · obtain ⟨item, hitem, hfails⟩ := exists_of_mapM_eq_error h
    exact OrderItem.isNameFault_of_clause (hproper item hitem) hfails
  · exact absurd h pure_ne_error

end Statement

end Folio
