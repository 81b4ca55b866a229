import Folio.Proofs.Expr.Path
import Folio.Proofs.Query.Compile
import Folio.Query.Execution

/-!
# Sort keys and paths

A property path has one value, whether it is walked at once or evaluated access by access. So the
keys that a compiled query sorts a document by are the values of its order items on the document.
-/

namespace Folio

namespace OrderItem

/-- The sort key of an order item is its value. -/
theorem eval_of_clause {item : OrderItem} {binding : String} {clause : OrderClause}
    (h : item.clause binding = .ok clause) (scope : Scope) :
    item.expr.eval scope = .ok (clause.key scope.document) :=
  Expr.eval_of_path? (clause_eq_ok_iff.mp h).1

end OrderItem

namespace Statement

/-- The sort keys of a compiled statement are the values of its order items. -/
theorem mapM_eval_order {s : Statement} {p : Procedure} (h : s.compile = .ok p) (scope : Scope) :
    s.order.mapM (fun item => item.expr.eval scope) =
      .ok (OrderClause.keys p.order scope.document) := by
  obtain ⟨projection, -, h⟩ := bind_eq_ok_iff.mp h
  obtain ⟨_, -, h⟩ := bind_eq_ok_iff.mp h
  obtain ⟨order, horder, h⟩ := bind_eq_ok_iff.mp h
  obtain rfl := pure_eq_ok_iff.mp h
  exact mapM_eq_ok_map horder fun item _ clause hclause => item.eval_of_clause hclause scope

/-- **Paths and sort keys.** Every access, on a path or not, has the value that the value of its base
has under the value of its key. A property path has the value that it leads to in the document, which
is the one value that its steps find one by one. The sort keys of a document under a compiled
statement are the values of the order items, in their order. -/
theorem eval_path_and_order :
    (∀ (scope : Scope) (base key : Expr), (Expr.property base key).eval scope = (do
      let v ← base.eval scope
      let k ← key.eval scope
      return v.at k)) ∧
    (∀ (e : Expr) (root : String) (keys : List String), e.path? = some (root, keys) →
      ∀ scope : Scope, e.eval scope = .ok (scope.document.resolve keys) ∧
        ∀ v, e.Finds scope.document v ↔ v = scope.document.resolve keys) ∧
    ∀ (s : Statement) (p : Procedure), s.compile = .ok p → ∀ scope : Scope,
      s.order.mapM (fun item => item.expr.eval scope) =
        .ok (OrderClause.keys p.order scope.document) := by
  refine ⟨Expr.eval_property, fun e root keys hpath scope => ⟨Expr.eval_of_path? hpath, fun v => ?_⟩,
    fun s p hcompile scope => mapM_eval_order hcompile scope⟩
  rw [Expr.finds_iff]
  constructor
  · rintro ⟨root', keys', hpath', rfl⟩
    obtain ⟨-, rfl⟩ := Prod.mk.inj (Option.some.inj (hpath.symm.trans hpath'))
    rfl
  · rintro rfl
    exact ⟨root, keys, hpath, rfl⟩

/-- The second of two elements is named by a number and by text, and a numeral with a leading zero
names none. -/
theorem eval_path_and_order_positions :
    let document : Value := .object [("a", .array [.null, .object [("b", .string "x")]])]
    let scope : Scope := ⟨document, [], .empty⟩
    let second : Expr := .property (.property (.identifier "c") (.literal (.string "a")))
      (.literal (.number (.ofNat 1)))
    second.path? = some ("c", ["a", "1"]) ∧
      second.eval scope = .ok (.object [("b", .string "x")]) ∧
      second.Finds document (.object [("b", .string "x")]) ∧
      ∃ s p, Query.parse "SELECT * FROM c ORDER BY c.a['1'].b, c.a['01'] DESC" = .ok s ∧
        s.compile = .ok p ∧
        p.order = [⟨["a", "1", "b"], .ascending⟩, ⟨["a", "01"], .descending⟩] ∧
        s.order.mapM (fun item => item.expr.eval scope) = .ok [.string "x", .absent] := by
  intro document scope second
  obtain ⟨-, hpaths, horders⟩ := eval_path_and_order
  have hnumber : numberKey (.ofNat 1) = "1" := by decide +kernel
  have hpath : second.path? = some ("c", ["a", "1"]) := by
    rw [← hnumber]
    rfl
  have hcheck : (do
      let s ← (Query.parse "SELECT * FROM c ORDER BY c.a['1'].b, c.a['01'] DESC").toOption
      let p ← s.compile.toOption
      return p.order == [⟨["a", "1", "b"], .ascending⟩, ⟨["a", "01"], .descending⟩]) =
        some true := by
    decide +kernel
  obtain ⟨s, hparse, hcheck⟩ := Option.bind_eq_some_iff.mp hcheck
  obtain ⟨p, hcompile, hcheck⟩ := Option.bind_eq_some_iff.mp hcheck
  have hcompile := toOption_eq_some_iff.mp hcompile
  have horder := beq_iff_eq.mp (Option.some.inj hcheck)
  obtain ⟨heval, hfinds⟩ := hpaths second "c" ["a", "1"] hpath scope
  have hkeys := horders s p hcompile scope
  rw [horder] at hkeys
  exact ⟨hpath, heval, (hfinds _).mpr rfl, s, p, toOption_eq_some_iff.mp hparse, hcompile, horder,
    hkeys⟩

end Statement

end Folio
