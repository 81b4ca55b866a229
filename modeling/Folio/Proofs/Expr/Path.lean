import Folio.Expr.Evaluation
import Folio.Proofs.Sequence

/-!
# Evaluation of accesses

A property path is evaluated in one walk through the document. The walk passes the values that the
accesses of the path would have one by one, so a path is an access like any other: the value of the
base is looked up under the value of the key.
-/

namespace Folio

namespace Value

/-- The last key of a path is looked up in what the keys before it lead to. -/
theorem resolve_concat (v : Value) (path : List String) (key : String) :
    v.resolve (path ++ [key]) = (v.resolve path).child key := by
  induction path generalizing v with
  | nil =>
    rw [List.nil_append, resolve, resolve, child]
    cases v.child? key <;> rfl
  | cons first rest ih =>
    rw [List.cons_append, resolve, resolve]
    cases v.child? first with
    | none => rfl
    | some next => exact ih next

end Value

namespace Expr

variable {scope : Scope} {base key e : Expr} {root : String} {keys : List String}

/-- An access is a path if its base is one and its key is a literal one. -/
theorem path?_property_eq_some_iff : (property base key).path? = some (root, keys) ↔
    ∃ front last, base.path? = some (root, front) ∧ key.literalKey? = some last ∧
      keys = front ++ [last] := by
  rw [path?]
  cases base.path? with
  | none => simp
  | some found =>
    cases key.literalKey? with
    | none => simp
    | some last =>
      obtain ⟨name, front⟩ := found
      simp only [Option.some.injEq, Prod.mk.injEq]
      constructor
      · rintro ⟨rfl, rfl⟩
        exact ⟨front, last, ⟨rfl, rfl⟩, rfl, rfl⟩
      · rintro ⟨_, _, ⟨rfl, rfl⟩, rfl, rfl⟩
        exact ⟨rfl, rfl⟩

/-- A path has the value that it leads to in the document. -/
theorem eval_of_path? (h : e.path? = some (root, keys)) :
    e.eval scope = .ok (scope.document.resolve keys) := by
  cases e with
  | identifier name =>
    obtain ⟨-, rfl⟩ := Prod.mk.inj (Option.some.inj h)
    rfl
  | property base key => rw [eval, h]
  | _ => cases h

/-- A literal key has a value, and an access takes that value for the key. -/
theorem exists_eval_of_literalKey? {last : String} (h : key.literalKey? = some last) :
    ∃ k, key.eval scope = .ok k ∧ ∀ v : Value, v.at k = v.child last := by
  cases key with
  | literal k =>
    cases k with
    | string s =>
      obtain rfl := Option.some.inj h
      exact ⟨_, rfl, fun v => rfl⟩
    | number n =>
      obtain rfl := Option.some.inj h
      exact ⟨_, rfl, fun v => rfl⟩
    | _ => cases h
  | _ => cases h

/-- **Accesses.** Whether or not an access is a path, its value is what the value of the base has
under the value of the key. -/
theorem eval_property (scope : Scope) (base key : Expr) :
    (property base key).eval scope = (do
      let v ← base.eval scope
      let k ← key.eval scope
      return v.at k) := by
  cases hpath : (property base key).path? with
  | none => rw [eval, hpath]
  | some found =>
    obtain ⟨root, keys⟩ := found
    obtain ⟨front, last, hbase, hkey, rfl⟩ := path?_property_eq_some_iff.mp hpath
    obtain ⟨k, hk : key.eval scope = .ok k, hat⟩ := exists_eval_of_literalKey? hkey
    rw [eval_of_path? hpath, eval_of_path? hbase, hk, Value.resolve_concat, ← hat]
    rfl

/-- An access has the value that the value of its base has under that of its key. -/
theorem eval_property_of_eval {v k : Value} (hbase : base.eval scope = .ok v)
    (hkey : key.eval scope = .ok k) : (property base key).eval scope = .ok (v.at k) := by
  rw [eval_property, hbase, hkey]
  rfl

/-! ## Chains taken step by step -/

/-- What a chain of accesses with literal keys finds in a document if its steps are taken one by
one: an identifier finds the document, an access finds what its base has under its key, and nothing
if its base has nothing there. -/
inductive Finds (document : Value) : Expr → Value → Prop
  | identifier (name : String) : Finds document (.identifier name) document
  | found {base key : Expr} {last : String} {v w : Value} (hbase : Finds document base v)
    (hkey : key.literalKey? = some last) (hstep : v.child? last = some w) :
    Finds document (.property base key) w
  | lost {base key : Expr} {last : String} {v : Value} (hbase : Finds document base v)
    (hkey : key.literalKey? = some last) (hstep : v.child? last = none) :
    Finds document (.property base key) .absent

/-- Where a path leads from a document, the step under a literal key leads on. -/
theorem exists_path?_property {base key : Expr} {last : String} {document v : Value}
    (hbase : ∃ root keys, base.path? = some (root, keys) ∧ v = document.resolve keys)
    (hkey : key.literalKey? = some last) :
    ∃ root keys, (property base key).path? = some (root, keys) ∧
      v.child last = document.resolve keys := by
  obtain ⟨root, front, hpath, rfl⟩ := hbase
  exact ⟨root, front ++ [last], path?_property_eq_some_iff.mpr ⟨front, last, hpath, hkey, rfl⟩,
    (Value.resolve_concat ..).symm⟩

/-- **Chains and paths.** The steps of a path end where the path leads. -/
theorem finds_iff {document v : Value} :
    Finds document e v ↔ ∃ root keys, e.path? = some (root, keys) ∧ v = document.resolve keys := by
  constructor
  · intro h
    induction h with
    | identifier name => exact ⟨name, [], rfl, rfl⟩
    | @found base key last v w _ hkey hstep ih =>
      have hchild : v.child last = w := by rw [Value.child, hstep, Option.getD_some]
      exact hchild ▸ exists_path?_property ih hkey
    | @lost base key last v _ hkey hstep ih =>
      have hchild : v.child last = .absent := by rw [Value.child, hstep, Option.getD_none]
      exact hchild ▸ exists_path?_property ih hkey
  · rintro ⟨root, keys, hpath, rfl⟩
    fun_induction path? e generalizing root keys with
    | case1 name =>
      obtain ⟨-, rfl⟩ := Prod.mk.inj (Option.some.inj hpath)
      exact .identifier name
    | case2 base key root' front last hkey hbase ih =>
      obtain ⟨-, rfl⟩ := Prod.mk.inj (Option.some.inj hpath)
      have hfinds := ih root' front hbase
      rw [Value.resolve_concat, Value.child]
      cases hstep : (document.resolve front).child? last with
      | none => exact .lost hfinds hkey hstep
      | some w => exact .found hfinds hkey hstep
    | case3 => cases hpath
    | case4 => cases hpath

end Expr

end Folio
