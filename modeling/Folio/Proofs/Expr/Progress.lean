import Folio.Expr.Evaluation
import Folio.Proofs.Expr.Names

/-!
# What evaluation fails for

Most expressions have the value of their children put together; a conditional and a choice evaluate
only what they need, and a property path none of its children. So an error in a child is an error of
the expression exactly if evaluation gets to that child. Where names resolve, the one error that
does not come from a child is a call of a function that the caller does not provide.
-/

namespace Folio.Expr

variable {scope : Scope} {binding : String} {e : Expr} {items : List Expr} {err : QueryError}

/-! ## Lists -/

/-- The values of entries are those of the list of their expressions. -/
theorem evalEntries_eq (scope : Scope) (entries : List (String × Expr)) :
    evalEntries scope entries =
      (evalItems scope (entries.map Prod.snd)).map fun values =>
        (entries.map Prod.fst).zip values := by
  induction entries with
  | nil => rfl
  | cons entry rest ih =>
    obtain ⟨key, item⟩ := entry
    simp only [evalEntries, evalItems, List.map_cons, ih]
    cases item.eval scope with
    | error e => rfl
    | ok v => cases evalItems scope (rest.map Prod.snd) <;> rfl

/-- A list of expressions fails with the error of its first expression that fails. -/
theorem evalItems_eq_error_iff : evalItems scope items = .error err ↔
    ∃ front item rest, items = front ++ item :: rest ∧ (∃ values, evalItems scope front = .ok values) ∧
      item.eval scope = .error err := by
  induction items with
  | nil => simp [evalItems]
  | cons first others ih =>
    rw [evalItems, bind_eq_error_iff]
    constructor
    · rintro (h | ⟨v, hv, h⟩)
      · exact ⟨[], first, others, rfl, ⟨[], rfl⟩, h⟩
      · rcases bind_eq_error_iff.mp h with h | ⟨values, -, h⟩
        · obtain ⟨front, item, rest, rfl, ⟨values, hvalues⟩, hitem⟩ := ih.mp h
          refine ⟨first :: front, item, rest, rfl, ⟨v :: values, ?_⟩, hitem⟩
          rw [evalItems, hv, hvalues]
          rfl
        · exact absurd h pure_ne_error
    · rintro ⟨front, item, rest, heq, ⟨values, hvalues⟩, hitem⟩
      cases front with
      | nil =>
        obtain ⟨rfl, rfl⟩ := List.cons.inj heq
        exact Or.inl hitem
      | cons first' front =>
        obtain ⟨rfl, rfl⟩ := List.cons.inj heq
        obtain ⟨v, hv, hvalues⟩ := bind_eq_ok_iff.mp hvalues
        obtain ⟨values', hvalues', -⟩ := bind_eq_ok_iff.mp hvalues
        have hothers := ih.mpr ⟨front, item, rest, rfl, ⟨values', hvalues'⟩, hitem⟩
        exact Or.inr ⟨v, hv, bind_eq_error_iff.mpr (Or.inl hothers)⟩

/-- A search for an equal value fails with the error of the first expression that fails, if none
before it is equal. -/
theorem equalsSome_eq_error_iff {v : Value} : equalsSome scope v items = .error err ↔
    ∃ front item rest, items = front ++ item :: rest ∧ equalsSome scope v front = .ok false ∧
      item.eval scope = .error err := by
  induction items with
  | nil => simp [equalsSome]
  | cons first others ih =>
    rw [equalsSome, bind_eq_error_iff]
    constructor
    · rintro (h | ⟨w, hw, h⟩)
      · exact ⟨[], first, others, rfl, rfl, h⟩
      · by_cases hequal : (v.equal w).isTrue = true
        · rw [if_pos hequal] at h
          exact absurd h pure_ne_error
        · rw [if_neg hequal] at h
          obtain ⟨front, item, rest, rfl, hfront, hitem⟩ := ih.mp h
          refine ⟨first :: front, item, rest, rfl, ?_, hitem⟩
          rw [equalsSome, hw, ← hfront]
          simp only [bind, Except.bind, if_neg hequal]
    · rintro ⟨front, item, rest, heq, hfront, hitem⟩
      cases front with
      | nil =>
        obtain ⟨rfl, rfl⟩ := List.cons.inj heq
        exact Or.inl hitem
      | cons first' front =>
        obtain ⟨rfl, rfl⟩ := List.cons.inj heq
        obtain ⟨w, hw, hfront⟩ := bind_eq_ok_iff.mp hfront
        refine Or.inr ⟨w, hw, ?_⟩
        by_cases hequal : (v.equal w).isTrue = true
        · rw [if_pos hequal] at hfront
          exact absurd (pure_eq_ok_iff.mp hfront) (by decide)
        · rw [if_neg hequal] at hfront ⊢
          exact ih.mpr ⟨front, item, rest, rfl, hfront, hitem⟩

/-! ## Expressions that evaluate all their children -/

/-- Whether the value of an expression is made of the values of all its children. -/
def isStrict : Expr → Bool
  | .property base key => (Expr.property base key).path?.isNone
  | .conditional _ _ _ => false
  | .among _ _ => false
  | _ => true

/-- The value that the root of an expression makes of the values of the children. -/
def combine (scope : Scope) : Expr → List Value → Except QueryError Value
  | .literal v, _ => .ok v
  | .parameter name, _ => .ok ((scope.parameters.lookup name).getD .absent)
  | .identifier _, _ => .ok scope.document
  | .property _ _, [v, k] => .ok (v.at k)
  | .array _, values => .ok (.array values)
  | .object entries, values => .ok (.object ((entries.map Prod.fst).zip values))
  | .unary op _, [v] => .ok (op.apply v)
  | .binary op _ _, [a, b] => .ok (op.apply a b)
  | .between _ _ _, [v, l, h] => .ok (v.between l h)
  | .call name _, values =>
    match Builtin.ofName? name with
    | some f => .ok (f.call values)
    | none => .error (.unknownFunction name)
  | .userCall name _, values =>
    match scope.functions.get? name with
    | some f => .ok (f values)
    | none => .error (.unknownFunction name)
  | _, _ => .ok .absent

/-- A strict expression evaluates its children from left to right and puts their values
together. -/
theorem eval_of_isStrict (hstrict : e.isStrict = true) :
    e.eval scope = evalItems scope e.children >>= e.combine scope := by
  cases e with
  | property base key =>
    have hpath : (Expr.property base key).path? = none := Option.isNone_iff_eq_none.mp hstrict
    simp only [eval, hpath, children, evalItems]
    cases base.eval scope with
    | error e => rfl
    | ok v => cases key.eval scope <;> rfl
  | object entries =>
    simp only [eval, evalEntries_eq, children]
    cases evalItems scope (entries.map Prod.snd) <;> rfl
  | unary op operand =>
    simp only [eval, children, evalItems]
    cases operand.eval scope <;> rfl
  | binary op left right =>
    simp only [eval, children, evalItems]
    cases left.eval scope with
    | error e => rfl
    | ok v => cases right.eval scope <;> rfl
  | between value low high =>
    simp only [eval, children, evalItems]
    cases value.eval scope with
    | error e => rfl
    | ok v =>
      cases low.eval scope with
      | error e => rfl
      | ok l => cases high.eval scope <;> rfl
  | conditional test consequent alternate => cases hstrict
  | among needle choices => cases hstrict
  | _ => rfl

/-! ## Demand -/

/-- The evaluation of an expression gets to a child: what comes before the child has values and does
not settle the value of the expression. -/
inductive Demands (scope : Scope) : Expr → Expr → Prop
  | ofStrict {e child : Expr} {front rest : List Expr} {values : List Value}
    (hstrict : e.isStrict = true) (hchildren : e.children = front ++ child :: rest)
    (hfront : evalItems scope front = .ok values) : Demands scope e child
  | test {test consequent alternate : Expr} :
    Demands scope (.conditional test consequent alternate) test
  | consequent {test consequent alternate : Expr} (htest : test.test scope = .ok true) :
    Demands scope (.conditional test consequent alternate) consequent
  | alternate {test consequent alternate : Expr} (htest : test.test scope = .ok false) :
    Demands scope (.conditional test consequent alternate) alternate
  | needle {needle : Expr} {choices : List Expr} : Demands scope (.among needle choices) needle
  | choice {needle choice : Expr} {front rest : List Expr} {v : Value}
    (hneedle : needle.eval scope = .ok v) (hpresent : v.isAbsent = false)
    (hfront : equalsSome scope v front = .ok false) :
    Demands scope (.among needle (front ++ choice :: rest)) choice

/-- The evaluation of an expression gets to a part of it. -/
inductive Reaches (scope : Scope) : Expr → Expr → Prop
  | here {e : Expr} : Reaches scope e e
  | within {e child part : Expr} (hchild : Demands scope e child)
    (hpart : Reaches scope child part) : Reaches scope e part

/-- An expression occurs in another. -/
inductive Contains : Expr → Expr → Prop
  | here {e : Expr} : Contains e e
  | within {e child part : Expr} (hchild : child ∈ e.children) (hpart : Contains child part) :
    Contains e part

/-- A call of a function that the caller does not provide, with arguments that have values. -/
def Missing (scope : Scope) (name : String) (e : Expr) : Prop :=
  ∃ args values, e = .userCall name args ∧ evalItems scope args = .ok values ∧
    scope.functions.get? name = none

/-- The evaluation of an expression gets to a call of a function that the caller does not provide,
and the error names that function. -/
def Misses (scope : Scope) (e : Expr) (err : QueryError) : Prop :=
  ∃ name call, Reaches scope e call ∧ call.Missing scope name ∧ err = .unknownFunction name

/-- Evaluation gets to children only. -/
theorem Demands.mem_children {child : Expr} (h : Demands scope e child) : child ∈ e.children := by
  cases h with
  | ofStrict _ hchildren _ => simp [hchildren]
  | _ => simp [children]

/-- Evaluation gets to what occurs in an expression only. -/
theorem Reaches.contains {part : Expr} (h : Reaches scope e part) : e.Contains part := by
  induction h with
  | here => exact .here
  | within hchild _ ih => exact .within hchild.mem_children ih

/-- The error of a child that evaluation gets to is the error of the expression. -/
theorem Demands.eval_eq_error {child : Expr} (h : Demands scope e child)
    (herror : child.eval scope = .error err) : e.eval scope = .error err := by
  cases h with
  | ofStrict hstrict hchildren hfront =>
    rw [eval_of_isStrict hstrict]
    exact bind_eq_error_iff.mpr
      (Or.inl (evalItems_eq_error_iff.mpr ⟨_, _, _, hchildren, ⟨_, hfront⟩, herror⟩))
  | test =>
    rw [eval, herror]
    rfl
  | consequent htest =>
    obtain ⟨t, ht, htrue⟩ := bind_eq_ok_iff.mp htest
    rw [eval, ht]
    simp only [bind, Except.bind, if_pos (pure_eq_ok_iff.mp htrue), herror]
  | alternate htest =>
    obtain ⟨t, ht, hfalse⟩ := bind_eq_ok_iff.mp htest
    rw [eval, ht]
    simp only [bind, Except.bind, pure_eq_ok_iff.mp hfalse, herror]
    rfl
  | needle =>
    rw [eval, herror]
    rfl
  | @choice needle choice front rest v hneedle hpresent hfront =>
    have hsearch : equalsSome scope v (front ++ child :: rest) = .error err :=
      equalsSome_eq_error_iff.mpr ⟨front, child, rest, rfl, hfront, herror⟩
    rw [eval, hneedle]
    simp only [bind, Except.bind, hpresent, hsearch]
    rfl

/-- The error of a part that evaluation gets to is the error of the expression. -/
theorem Reaches.eval_eq_error {part : Expr} (h : Reaches scope e part)
    (herror : part.eval scope = .error err) : e.eval scope = .error err := by
  induction h with
  | here => exact herror
  | within hchild _ ih => exact hchild.eval_eq_error (ih herror)

/-- A call of a function that the caller does not provide fails. -/
theorem Missing.eval_eq_error {name : String} (h : e.Missing scope name) :
    e.eval scope = .error (.unknownFunction name) := by
  obtain ⟨args, values, rfl, hvalues, hnone⟩ := h
  rw [eval, hvalues]
  simp only [bind, Except.bind, hnone]

/-- The root of an expression whose names resolve fails only if it calls a function that the caller
does not provide. -/
theorem missing_of_combine_eq_error {values : List Value} (hresolved : e.Resolved binding)
    (hvalues : evalItems scope e.children = .ok values)
    (h : e.combine scope values = .error err) :
    ∃ name, e.Missing scope name ∧ err = .unknownFunction name := by
  cases e with
  | call name args =>
    obtain ⟨f, hf⟩ := exists_builtin_of_resolved hresolved
    simp only [combine, hf] at h
    cases h
  | userCall name args =>
    simp only [combine] at h
    cases hfunction : scope.functions.get? name with
    | some f =>
      rw [hfunction] at h
      cases h
    | none =>
      rw [hfunction] at h
      exact ⟨name, ⟨args, values, rfl, hvalues, hfunction⟩, (Except.error.inj h).symm⟩
  | _ =>
    unfold combine at h
    split at h <;> contradiction

/-- An expression that fails calls a function that the caller does not provide, or evaluation gets
to a child that fails. -/
theorem missing_or_demands_of_eval_eq_error (hresolved : e.Resolved binding)
    (h : e.eval scope = .error err) :
    (∃ name, e.Missing scope name ∧ err = .unknownFunction name) ∨
      ∃ child, Demands scope e child ∧ child.eval scope = .error err := by
  by_cases hstrict : e.isStrict = true
  · rw [eval_of_isStrict hstrict] at h
    rcases bind_eq_error_iff.mp h with h | ⟨values, hvalues, h⟩
    · obtain ⟨front, item, rest, hchildren, ⟨values, hfront⟩, hitem⟩ := evalItems_eq_error_iff.mp h
      exact Or.inr ⟨item, .ofStrict hstrict hchildren hfront, hitem⟩
    · exact Or.inl (missing_of_combine_eq_error hresolved hvalues h)
  · right
    cases e with
    | property base key =>
      cases hpath : (Expr.property base key).path? with
      | none => simp [isStrict, hpath] at hstrict
      | some path => simp [eval, hpath] at h
    | conditional test consequent alternate =>
      rcases bind_eq_error_iff.mp h with h | ⟨t, ht, h⟩
      · exact ⟨test, .test, h⟩
      · have htest : test.test scope = .ok (Truth.ofValue t).isTrue := by
          rw [Expr.test, ht]
          rfl
        split at h
        next htrue => exact ⟨consequent, .consequent (htrue ▸ htest), h⟩
        next hfalse =>
          exact ⟨alternate, .alternate ((Bool.eq_false_iff.mpr hfalse) ▸ htest), h⟩
    | among needle choices =>
      rcases bind_eq_error_iff.mp h with h | ⟨v, hv, h⟩
      · exact ⟨needle, .needle, h⟩
      · by_cases habsent : v.isAbsent = true
        · simp only [habsent, if_true] at h
          exact absurd h pure_ne_error
        · simp only [habsent, Bool.false_eq_true, if_false] at h
          rcases bind_eq_error_iff.mp h with h | ⟨found, -, h⟩
          · obtain ⟨front, item, rest, rfl, hfront, hitem⟩ := equalsSome_eq_error_iff.mp h
            exact ⟨item, .choice hv (Bool.eq_false_iff.mpr habsent) hfront, hitem⟩
          · exact absurd h pure_ne_error
    | _ => exact absurd rfl hstrict

/-- **Errors of evaluation.** An expression whose names resolve fails exactly if evaluation gets to a
call of a function that the caller does not provide; the error names that function. -/
theorem eval_eq_error_iff (hresolved : e.Resolved binding) :
    e.eval scope = .error err ↔ e.Misses scope err := by
  constructor
  · intro h
    induction e using induction_children with
    | step e ih =>
      rcases missing_or_demands_of_eval_eq_error hresolved h with ⟨name, hmissing, rfl⟩ |
        ⟨child, hchild, hfails⟩
      · exact ⟨name, e, .here, hmissing, rfl⟩
      · have hmem := hchild.mem_children
        obtain ⟨name, call, hreaches, hmissing⟩ :=
          ih child hmem ((resolved_iff.mp hresolved).2 child hmem) hfails
        exact ⟨name, call, .within hchild hreaches, hmissing⟩
  · rintro ⟨name, call, hreaches, hmissing, rfl⟩
    exact hreaches.eval_eq_error hmissing.eval_eq_error

/-- A condition fails exactly if its expression does. -/
theorem test_eq_error_iff : e.test scope = .error err ↔ e.eval scope = .error err := by
  unfold test
  rw [bind_eq_error_iff]
  exact ⟨fun h => h.resolve_right fun ⟨_, _, h⟩ => pure_ne_error h, Or.inl⟩

/-- An expression that has a value holds or not as a condition. -/
theorem exists_test_eq_ok {v : Value} (h : e.eval scope = .ok v) :
    ∃ holds, e.test scope = .ok holds := by
  refine ⟨(Truth.ofValue v).isTrue, ?_⟩
  rw [test, h]
  rfl

/-- **Evaluation without errors.** An expression whose names resolve has a value if the caller
provides every function that is called in it. -/
theorem exists_eval_eq_ok (hresolved : e.Resolved binding)
    (hprovided : ∀ name args, e.Contains (.userCall name args) →
      (scope.functions.get? name).isSome) : ∃ v, e.eval scope = .ok v := by
  cases heval : e.eval scope with
  | ok v => exact ⟨v, rfl⟩
  | error err =>
    obtain ⟨name, _, hreaches, ⟨args, _, rfl, -, hnone⟩, -⟩ := (eval_eq_error_iff hresolved).mp heval
    have hsome := hprovided name args hreaches.contains
    rw [hnone] at hsome
    cases hsome

end Folio.Expr
