import Folio.Proofs.Expr.Recursion
import Folio.Proofs.Query.Parsing

/-!
# Heights of parsed expressions

The reader of whole expressions refuses one that is too high, and all expressions of a statement are
read by it. So what descends into an expression of a parsed statement descends a bounded number of
levels, however long the chains of operators and accesses in the text are.
-/

namespace Folio.Query

/-- A whole expression that is read is not higher than the limit. -/
theorem only_expression_height : Only (fun e => e.height ≤ maxHeight) expression := by
  rintro _ ⟨ts, step, hstep, rfl⟩
  obtain ⟨found, -, hstep⟩ := bind_eq_ok_iff.mp hstep
  split at hstep
  next => cases hstep
  next hheight =>
    rw [← pure_eq_ok_iff.mp hstep, ← Expr.depth_eq_height]
    exact Nat.le_of_not_lt hheight

/-- The tallest of a list is found by going through it. -/
theorem heightItems_eq_foldr (items : List Expr) :
    Expr.heightItems items = (items.map Expr.height).foldr max 0 := by
  induction items with
  | nil => rfl
  | cons item rest ih => rw [Expr.heightItems, ih]; rfl

open Folio.Expr in
/-- **Bounded recursion.** The traversal with a stack finds the height of every expression, which is
one more than the greatest height of a child. The expressions of a parsed statement, those of its
selection, its filter and its order, are at most 128 high. So the search for a path, the resolution of
names and evaluation have the same outcome on them within 128 levels as without a limit. -/
theorem height_of_parse :
    (∀ e : Expr, e.depth = e.height ∧ e.height = 1 + (e.children.map height).foldr max 0) ∧
    ∀ (text : String) (s : Statement), parse text = .ok s → ∀ e ∈ s.exprs,
      e.height ≤ 128 ∧
      pathWithin 128 e = some e.path? ∧
      (∀ binding, resolveWithin binding 128 e = .reached (e.resolveNames binding)) ∧
      ∀ scope, evalWithin scope 128 e = .reached (e.eval scope) := by
  refine ⟨fun e => ⟨depth_eq_height e, ?_⟩, fun text s hparse e he => ?_⟩
  · rw [height_eq, heightItems_eq_foldr]
  · have hheight : e.height ≤ 128 := forall_exprs_of_parse only_expression_height hparse e he
    exact ⟨hheight, pathWithin_eq hheight, fun _ => resolveWithin_eq hheight,
      fun _ => evalWithin_eq hheight⟩

/-- A filter that is four nodes high is evaluated within the limit. -/
theorem height_of_parse_filter :
    ∃ s filter, parse "SELECT c.a FROM c WHERE c.b NOT IN (1, 2) ORDER BY c.k" = .ok s ∧
      filter ∈ s.exprs ∧ filter.height = 4 ∧
      ∀ scope, filter.evalWithin scope 128 = .reached (filter.eval scope) := by
  have hcheck : (do
      let s ← (parse "SELECT c.a FROM c WHERE c.b NOT IN (1, 2) ORDER BY c.k").toOption
      let filter ← s.filter
      return filter.height) = some 4 := by
    decide +kernel
  obtain ⟨s, hparse, hcheck⟩ := Option.bind_eq_some_iff.mp hcheck
  obtain ⟨filter, hfilter, hcheck⟩ := Option.bind_eq_some_iff.mp hcheck
  have hparse := toOption_eq_some_iff.mp hparse
  have hmem : filter ∈ s.exprs := by simp [Statement.exprs, hfilter]
  obtain ⟨-, -, -, heval⟩ := height_of_parse.2 _ s hparse filter hmem
  exact ⟨s, filter, hparse, hmem, Option.some.inj hcheck, heval⟩

end Folio.Query
