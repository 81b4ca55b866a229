import Folio.Proofs.Expr.Progress

/-!
# Faults of names

The nodes of an expression are its root and then the nodes of its children, from left to right. A node
is at fault if it is an identifier other than the name of the document, or a call that no built-in
function takes. Names resolve if no node is at fault; else the fault of the first such node is the
error.
-/

namespace Folio

/-- A function is found under its name and no other. -/
theorem Builtin.ofName?_eq_some_iff {name : String} {f : Builtin} :
    ofName? name = some f ↔ f.name = name := by
  constructor
  · intro h
    have hfound := List.find?_some h
    exact eq_of_beq hfound
  · rintro rfl
    cases f <;> rfl

namespace Expr

variable {binding : String} {e part : Expr}

/-! ## Nodes -/

/-- The nodes of an expression: the root, then those of the children from left to right. -/
def nodes (e : Expr) : List Expr := e :: e.children.attach.flatMap fun child => nodes child.1
termination_by e.size
decreasing_by exact size_lt_of_mem_children child.2

/-- The root comes before the nodes of the children. -/
theorem nodes_eq (e : Expr) : e.nodes = e :: e.children.flatMap nodes := by
  rw [nodes, List.flatMap_subtype (g := nodes) fun _ _ => rfl, List.unattach_attach]

/-- What occurs in an expression is the expression itself or occurs in a child. -/
theorem contains_iff : e.Contains part ↔ part = e ∨ ∃ child ∈ e.children, child.Contains part := by
  constructor
  · rintro (_ | ⟨hchild, hpart⟩)
    · exact .inl rfl
    · exact .inr ⟨_, hchild, hpart⟩
  · rintro (rfl | ⟨child, hchild, hpart⟩)
    · exact .here
    · exact .within hchild hpart

/-- The nodes of an expression are what occurs in it. -/
theorem mem_nodes_iff : part ∈ e.nodes ↔ e.Contains part := by
  induction e using induction_children with
  | step e ih =>
    rw [nodes_eq, List.mem_cons, List.mem_flatMap, contains_iff]
    exact or_congr_right (exists_congr fun child => and_congr_right fun hchild => ih child hchild)

/-! ## Faults -/

/-- What is wrong with the name at the root of an expression, with `binding` as the name of the
document. -/
def rootFault? (binding : String) : Expr → Option QueryError
  | .identifier name => if name = binding then none else some (.unresolvedIdentifier name)
  | .call name args =>
    match Builtin.ofName? name with
    | some f => if f.accepts args.length then none else some (.argumentCount name args.length)
    | none => some (.unknownFunction name)
  | _ => none

/-- The faults of the nodes of an expression, in their order. -/
def faults (binding : String) (e : Expr) : List QueryError := e.nodes.filterMap (rootFault? binding)

/-- Every identifier in the expression is the name of the document, and every call is of a built-in
function that takes its number of arguments. -/
structure WellScoped (binding : String) (e : Expr) : Prop where
  identifiers : ∀ name, e.Contains (.identifier name) → name = binding
  calls : ∀ name args, e.Contains (.call name args) →
    ∃ f : Builtin, f.name = name ∧ f.accepts args.length = true

/-- The fault of the root comes before those of the children. -/
theorem faults_eq (binding : String) (e : Expr) :
    e.faults binding = (e.rootFault? binding).toList ++ e.children.flatMap (faults binding) := by
  rw [faults, nodes_eq, List.filterMap_cons, List.filterMap_flatMap]
  cases e.rootFault? binding <;> rfl

/-- The resolution of the name at the root finds its fault. -/
theorem resolveRoot_eq (binding : String) (e : Expr) :
    e.resolveRoot binding = verdict (e.rootFault? binding).toList := by
  cases e with
  | identifier name =>
    rw [resolveRoot, rootFault?]
    split <;> rfl
  | call name args =>
    rw [resolveRoot, resolveCall, rootFault?]
    cases Builtin.ofName? name with
    | none => rfl
    | some f => cases h : f.accepts args.length <;> simp [h, verdict]
  | _ => rfl

/-- The resolution of names in a list is a row of checks. -/
theorem resolveItems_eq_forM (binding : String) (items : List Expr) :
    resolveItems binding items = items.forM (resolveNames binding) := by
  induction items with
  | nil => rfl
  | cons item rest ih => rw [resolveItems, ih]; rfl

/-- **Faults of names.** The resolution of names finds the faults of the nodes in their order. -/
theorem resolveNames_eq_verdict (binding : String) (e : Expr) :
    e.resolveNames binding = verdict (e.faults binding) := by
  -- Both sides deal with the root first and then go on with the children in their order.
  induction e using induction_children with
  | step e ih =>
    rw [resolveNames_eq, resolveRoot_eq, resolveItems_eq_forM, forM_eq_verdict ih, faults_eq,
      verdict_append]

/-- The root is not at fault if it is well-scoped by itself. -/
theorem rootFault?_eq_none_iff : e.rootFault? binding = none ↔
    (∀ name, e = .identifier name → name = binding) ∧
      ∀ name args, e = .call name args →
        ∃ f : Builtin, f.name = name ∧ f.accepts args.length = true := by
  cases e with
  | identifier name => simp [rootFault?]
  | call name args =>
    simp only [rootFault?, ← Builtin.ofName?_eq_some_iff]
    cases hname : Builtin.ofName? name <;> simp [hname]
  | _ => simp [rootFault?]

/-- **Scoping.** No node of an expression is at fault if the expression is well-scoped. -/
theorem faults_eq_nil_iff : e.faults binding = [] ↔ e.WellScoped binding := by
  rw [faults, List.filterMap_eq_nil_iff]
  constructor
  · intro h
    exact ⟨fun name hname => (rootFault?_eq_none_iff.mp (h _ (mem_nodes_iff.mpr hname))).1 name rfl,
      fun name args hcall =>
        (rootFault?_eq_none_iff.mp (h _ (mem_nodes_iff.mpr hcall))).2 name args rfl⟩
  · intro h node hnode
    have hcontains := mem_nodes_iff.mp hnode
    refine rootFault?_eq_none_iff.mpr ⟨fun name hname => ?_, fun name args hcall => ?_⟩
    · exact h.identifiers name (hname ▸ hcontains)
    · exact h.calls name args (hcall ▸ hcontains)

end Expr

end Folio
