import Folio.Proofs.Expr.Nodes
import Folio.Proofs.Expr.Path
import Folio.Proofs.Expr.Progress

/-!
# Depth of recursion

Evaluation, the resolution of names and the search for a path call themselves on children of an
expression. Here each of them is given a number of levels to descend, its own included, and has no
outcome if these run out. As many levels as the expression is high are enough for the outcome without
a limit.
-/

namespace Folio

/-- The outcome of a recursion of limited depth, none if its levels run out. -/
abbrev Limited (α : Type) := ExceptT QueryError Option α

/-- The outcome of a recursion whose levels do not run out. -/
def Limited.reached {α : Type} (outcome : Except QueryError α) : Limited α := .mk (some outcome)

namespace Expr

/-! ## Limited recursions -/

/-- The search for the path that an expression is, in a number of levels. -/
def pathWithin : Nat → Expr → Option (Option (String × List String))
  | 0, _ => none
  | _ + 1, .identifier name => some (some (name, []))
  | levels + 1, .property base key =>
    (pathWithin levels base).map fun
      | some (root, keys) => (literalKey? key).map fun k => (root, keys ++ [k])
      | none => none
  | _ + 1, _ => some none

/-- The resolution of the names in an expression, in a number of levels. -/
def resolveWithin (binding : String) : Nat → Expr → Limited Unit
  | 0, _ => .mk none
  | levels + 1, e => do
    Limited.reached (e.resolveRoot binding)
    e.children.forM (resolveWithin binding levels)

/-- The search for an expression whose value equals a given one, by an evaluation. -/
def equalsSomeBy (value : Expr → Limited Value) (v : Value) : List Expr → Limited Bool
  | [] => return false
  | choice :: rest => do
    let w ← value choice
    if (v.equal w).isTrue then return true else equalsSomeBy value v rest

/-- The value of an expression that is no path, by an evaluation of its children. -/
def evalBy (value : Expr → Limited Value) (scope : Scope) : Expr → Limited Value
  | .conditional test consequent alternate => do
    let t ← value test
    if (Truth.ofValue t).isTrue then value consequent else value alternate
  | .among needle choices => do
    let v ← value needle
    if v.isAbsent then return .absent
    let found ← equalsSomeBy value v choices
    return .bool found
  | e => do
    let values ← e.children.mapM value
    Limited.reached (e.combine scope values)

/-- The value of an expression, in a number of levels. A path is searched for from the level of the
expression on. -/
def evalWithin (scope : Scope) : Nat → Expr → Limited Value
  | 0, _ => .mk none
  | levels + 1, e => do
    match ← ExceptT.lift (pathWithin (levels + 1) e) with
    | some (_, keys) => return scope.document.resolve keys
    | none => evalBy (evalWithin scope levels) scope e

/-! ## Enough levels -/

variable {α β : Type} {scope : Scope} {binding : String} {levels : Nat} {e : Expr}
  {items : List Expr}

/-- Going on from an outcome that was reached reaches what follows it, if each step that goes on
does. -/
theorem reached_bind {x : Except QueryError α} {f : α → Limited β} {g : α → Except QueryError β}
    (h : ∀ a, x = .ok a → f a = .reached (g a)) :
    (Limited.reached x >>= f) = .reached (x >>= g) := by
  cases x with
  | error err => rfl
  | ok a => exact h a rfl

/-- An expression is within a height if its children are within one less. -/
theorem height_le_succ_iff :
    e.height ≤ levels + 1 ↔ ∀ child ∈ e.children, child.height ≤ levels := by
  rw [height_eq, ← heightItems_le_iff]
  omega

/-- The search for a path ends within as many levels as the expression is high. -/
theorem pathWithin_eq (h : e.height ≤ levels) : pathWithin levels e = some e.path? := by
  induction levels generalizing e with
  | zero =>
    rw [height_eq] at h
    omega
  | succ levels ih =>
    cases e with
    | property base key =>
      have hbase : base.height ≤ levels := height_le_succ_iff.mp h base (by simp [children])
      rw [pathWithin, ih hbase, path?]
      cases base.path? with
      | none => rfl
      | some found => cases key.literalKey? <;> rfl
    | _ => rfl

/-- The names in a list resolve within the levels that those in each of its expressions do. -/
theorem forM_resolveWithin
    (h : ∀ item ∈ items, resolveWithin binding levels item = .reached (item.resolveNames binding)) :
    items.forM (resolveWithin binding levels) = .reached (resolveItems binding items) := by
  induction items with
  | nil => rfl
  | cons item rest ih =>
    obtain ⟨hitem, hrest⟩ := List.forall_mem_cons.mp h
    rw [List.forM_eq_forM, List.forM_cons, hitem]
    exact reached_bind fun _ _ => ih hrest

/-- **Depth of resolution.** The resolution of names ends within as many levels as the expression is
high. -/
theorem resolveWithin_eq (h : e.height ≤ levels) :
    resolveWithin binding levels e = .reached (e.resolveNames binding) := by
  induction levels generalizing e with
  | zero =>
    rw [height_eq] at h
    omega
  | succ levels ih =>
    rw [resolveWithin, resolveNames_eq]
    refine reached_bind fun _ _ => forM_resolveWithin fun child hchild => ih ?_
    exact height_le_succ_iff.mp h child hchild

section

variable {value : Expr → Limited Value}

/-- A list is evaluated if each of its expressions is. -/
theorem mapM_reached (h : ∀ item ∈ items, value item = .reached (item.eval scope)) :
    items.mapM value = .reached (evalItems scope items) := by
  induction items with
  | nil => rfl
  | cons item rest ih =>
    obtain ⟨hitem, hrest⟩ := List.forall_mem_cons.mp h
    rw [List.mapM_cons, hitem, evalItems]
    refine reached_bind fun v _ => ?_
    rw [ih hrest]
    exact reached_bind fun values _ => rfl

/-- A list is searched for an equal value if each of its expressions is evaluated. -/
theorem equalsSomeBy_reached {v : Value}
    (h : ∀ item ∈ items, value item = .reached (item.eval scope)) :
    equalsSomeBy value v items = .reached (equalsSome scope v items) := by
  induction items with
  | nil => rfl
  | cons item rest ih =>
    obtain ⟨hitem, hrest⟩ := List.forall_mem_cons.mp h
    rw [equalsSomeBy, hitem, equalsSome]
    refine reached_bind fun w _ => ?_
    split
    · rfl
    · exact ih hrest

/-- An expression that is no path is evaluated if its children are. -/
theorem evalBy_reached (hpath : e.path? = none)
    (h : ∀ child ∈ e.children, value child = .reached (child.eval scope)) :
    evalBy value scope e = .reached (e.eval scope) := by
  have hall (hevalBy : evalBy value scope e =
      e.children.mapM value >>= fun values => .reached (e.combine scope values))
      (hstrict : e.isStrict = true) : evalBy value scope e = .reached (e.eval scope) := by
    rw [hevalBy, mapM_reached h, eval_of_isStrict hstrict]
    exact reached_bind fun values _ => rfl
  cases e with
  | conditional test consequent alternate =>
    rw [evalBy, h test (by simp [children]), eval]
    refine reached_bind fun t _ => ?_
    split
    · exact h consequent (by simp [children])
    · exact h alternate (by simp [children])
  | among needle choices =>
    rw [evalBy, h needle (by simp [children]), eval]
    refine reached_bind fun v _ => ?_
    split
    · rfl
    · rw [equalsSomeBy_reached fun choice hchoice => h choice (List.mem_cons_of_mem needle hchoice)]
      exact reached_bind fun found _ => rfl
  | property base key => exact hall rfl (by simp [isStrict, hpath])
  | _ => exact hall rfl rfl

end

/-- **Depth of evaluation.** Evaluation ends within as many levels as the expression is high. -/
theorem evalWithin_eq (h : e.height ≤ levels) :
    evalWithin scope levels e = .reached (e.eval scope) := by
  induction levels generalizing e with
  | zero =>
    rw [height_eq] at h
    omega
  | succ levels ih =>
    rw [evalWithin, pathWithin_eq h]
    cases hpath : e.path? with
    | some found => exact congrArg Limited.reached (eval_of_path? hpath).symm
    | none =>
      exact evalBy_reached hpath fun child hchild => ih (height_le_succ_iff.mp h child hchild)

/-- A negation of a constant is two levels high, and one level is not enough for it. -/
example : evalWithin ⟨.null, [], .empty⟩ 1 (.unary .not (.literal (.bool true))) = .mk none := rfl

end Expr

end Folio
