import Folio.Proofs.Expr.Faults
import Folio.Proofs.Query.Compile
import Folio.Proofs.Query.Parsing

/-!
# Which statements compile

The faults of a statement are those in its selection, then those in its filter, then those of its
order items. A statement without faults compiles, and the procedure has its parts; one with faults is
refused with the first of them.
-/

namespace Folio

variable {binding : String} {err : QueryError}

/-! ## Order items -/

namespace OrderItem

variable {item : OrderItem}

/-- What is wrong with an order item: it is no path with a key, or its root is not the document. -/
def fault? (binding : String) (item : OrderItem) : Option QueryError :=
  match item.expr.path? with
  | some (root, _ :: _) => if root = binding then none else some (.unresolvedIdentifier root)
  | _ => some .orderNotPath

/-- An order item is refused for its fault. -/
theorem clause_eq_error_iff : item.clause binding = .error err ↔ item.fault? binding = some err := by
  unfold clause fault?
  rcases item.expr.path? with _ | ⟨root, _ | ⟨key, keys⟩⟩
  · simp
  · simp
  · by_cases hroot : root = binding <;> simp [hroot]

/-- An order item without a fault is a path with a key below the document. -/
theorem fault?_eq_none_iff : item.fault? binding = none ↔
    ∃ key keys, item.expr.path? = some (binding, key :: keys) := by
  unfold fault?
  split
  next root key keys hpath => simp [hpath]
  next hnot => simpa using fun key keys hpath => hnot binding key keys hpath

end OrderItem

/-! ## Selections -/

/-- The projection that has the expressions of a selection. -/
def Selection.projected : Selection → Projection
  | .all => .document
  | .value e => .value e
  | .items selected => .fields (SelectItem.named 0 selected)

/-- A selection is checked for the faults in its expressions, in their order, and then projected. -/
theorem Selection.project_eq (binding : String) (selection : Selection) :
    selection.project binding = do
      verdict (selection.exprs.flatMap (Expr.faults binding))
      return selection.projected := by
  cases selection with
  | all => rfl
  | value e =>
    rw [project, exprs, List.flatMap_singleton, Expr.resolveNames_eq_verdict]
    rfl
  | items selected =>
    rw [project, exprs, List.flatMap_map,
      forM_eq_verdict fun item _ => Expr.resolveNames_eq_verdict binding item.expr]
    rfl

/-- The projection of a selection has its expressions. -/
theorem Selection.exprs_projected (selection : Selection) :
    selection.projected.exprs = selection.exprs := by
  cases selection with
  | items selected => exact map_snd_named 0 selected
  | _ => rfl

/-! ## Statements -/

namespace Statement

variable {s : Statement}

/-- The faults in the selection and in the filter of a statement, in their order. -/
def nameFaults (s : Statement) : List QueryError :=
  (s.selection.exprs ++ s.filter.toList).flatMap (Expr.faults s.binding)

/-- The faults of a statement: those of names, then those of order items. -/
def faults (s : Statement) : List QueryError :=
  s.nameFaults ++ s.order.filterMap (OrderItem.fault? s.binding)

/-- The selection and the filter are well-scoped below the document, and each order item is a path
with a key below it. -/
structure WellScoped (s : Statement) : Prop where
  exprs : ∀ e ∈ s.selection.exprs ++ s.filter.toList, e.WellScoped s.binding
  order : ∀ item ∈ s.order, ∃ key keys, item.expr.path? = some (s.binding, key :: keys)

/-- The procedure has the parts of the statement: its name for the document, count, selection and
filter, and for each order item, in order, the clause with its path and direction. -/
structure Carries (s : Statement) (p : Procedure) : Prop where
  binding : p.binding = s.binding
  top : p.top = s.top
  projection : p.projection = s.selection.projected
  exprs : p.projection.exprs = s.selection.exprs
  filter : p.filter = s.filter
  order : List.Forall₂ (fun item clause =>
    item.expr.path? = some (s.binding, clause.path) ∧ clause.direction = item.direction)
    s.order p.order

/-- Compiling checks all names, then makes the clauses of the order. -/
theorem compile_eq (s : Statement) : s.compile = do
    verdict s.nameFaults
    let order ← s.order.mapM fun item => item.clause s.binding
    return ⟨s.binding, s.top, s.selection.projected, s.filter, order⟩ := by
  have hfilter : s.filter.forM (fun filter => filter.resolveNames s.binding) =
      verdict (s.filter.toList.flatMap (Expr.faults s.binding)) := by
    cases s.filter with
    | none => rfl
    | some filter =>
      rw [Option.toList_some, List.flatMap_singleton, ← Expr.resolveNames_eq_verdict]
      rfl
  rw [compile, Selection.project_eq, hfilter, nameFaults, List.flatMap_append, verdict_append]
  cases verdict (s.selection.exprs.flatMap (Expr.faults s.binding)) <;> rfl

/-- A statement is refused with its first fault. -/
theorem compile_eq_error_iff : s.compile = .error err ↔ s.faults.head? = some err := by
  rw [compile_eq, faults, List.head?_append]
  -- A fault of a name comes first; only without one are the order items looked at.
  cases s.nameFaults with
  | cons fault rest => simp [verdict, bind, Except.bind]
  | nil =>
    have horder : (s.order.mapM fun item => item.clause s.binding) = .error err ↔
        (s.order.filterMap (OrderItem.fault? s.binding)).head? = some err :=
      mapM_eq_error_iff fun _ _ => OrderItem.clause_eq_error_iff
    rw [List.head?_nil, Option.none_or, ← horder, verdict]
    cases s.order.mapM fun item => item.clause s.binding with
    | ok order => simp [bind, Except.bind, pure, Except.pure]
    | error fault => simp [bind, Except.bind]

/-- A statement without faults is well-scoped. -/
theorem faults_eq_nil_iff : s.faults = [] ↔ s.WellScoped := by
  rw [faults, nameFaults, List.append_eq_nil_iff, List.flatMap_eq_nil_iff, List.filterMap_eq_nil_iff]
  simp only [Expr.faults_eq_nil_iff, OrderItem.fault?_eq_none_iff]
  exact ⟨fun ⟨hexprs, horder⟩ => ⟨hexprs, horder⟩, fun ⟨hexprs, horder⟩ => ⟨hexprs, horder⟩⟩

/-- A compiled procedure has the parts of the statement. -/
theorem carries_of_compile {p : Procedure} (h : s.compile = .ok p) : s.Carries p := by
  rw [compile_eq] at h
  obtain ⟨_, -, h⟩ := bind_eq_ok_iff.mp h
  obtain ⟨order, horder, h⟩ := bind_eq_ok_iff.mp h
  obtain rfl := pure_eq_ok_iff.mp h
  refine ⟨rfl, rfl, rfl, s.selection.exprs_projected, rfl, ?_⟩
  refine (mapM_eq_ok_iff_forall₂.mp horder).imp fun item clause hclause => ?_
  obtain ⟨hpath, -, hdirection⟩ := OrderItem.clause_eq_ok_iff.mp hclause
  exact ⟨hpath, hdirection⟩

/-- **Which statements compile.** A statement compiles exactly if every identifier in its selection
and its filter is the name of the document, every call of a built-in function there names one that
takes its number of arguments, and every order item is a path with a key below the document. The
procedure then has the parts of the statement. A statement that does not compile is refused with its
first fault: those in the selection come before those in the filter and these before those of the
order, and in an expression that of a node comes before those of its parts from left to right. -/
theorem compile_spec (s : Statement) :
    ((∃ p, s.compile = .ok p) ↔ s.WellScoped) ∧
    (∀ p, s.compile = .ok p → s.Carries p) ∧
    ∀ err, s.compile = .error err ↔ s.faults.head? = some err := by
  refine ⟨?_, fun p => carries_of_compile, fun err => compile_eq_error_iff⟩
  rw [← faults_eq_nil_iff]
  cases hcompile : s.compile with
  | ok p =>
    have hnone (err : QueryError) : s.faults.head? ≠ some err := by
      rw [Ne, ← compile_eq_error_iff, hcompile]
      exact nofun
    simpa using List.head?_eq_none_iff.mp (Option.eq_none_iff_forall_ne_some.mpr hnone)
  | error err =>
    have hhead := compile_eq_error_iff.mp hcompile
    refine iff_of_false nofun fun hnil => ?_
    rw [hnil] at hhead
    cases hhead

/-- A filter that calls a function by its name with two arguments is carried, with an order below it;
with an unknown name in the selection, that name is the error and not the order after it. -/
theorem compile_spec_carried_and_refused :
    (∃ p, (Statement.mk none (.value (.identifier "c")) "c" none
          (some (.call "CONTAINS" [.identifier "c", .literal (.string "x")]))
          [⟨.property (.identifier "c") (.literal (.string "k")), .descending⟩]).Carries p ∧
        p.order = [⟨["k"], .descending⟩]) ∧
      (Statement.mk none (.value (.call "FOO" [.identifier "d"])) "c" none none
          [⟨.identifier "c", .ascending⟩]).faults.head? = some (.unknownFunction "FOO") :=
  ⟨⟨_, (compile_spec _).2.1 _ rfl, rfl⟩, ((compile_spec _).2.2 _).mp rfl⟩

end Statement

end Folio
