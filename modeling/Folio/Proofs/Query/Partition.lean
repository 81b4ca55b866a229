import Folio.Proofs.Expr.Disjunction
import Folio.Proofs.Expr.Path
import Folio.Proofs.Query.Literals
import Folio.Proofs.Value.Finite
import Folio.Query.Execution
import Folio.Query.Partition

/-!
# Pinned paths

A filter is true only if both parts of a conjunction and one part of a disjunction are. So if it pins
a path, it is true only of documents in which the path leads to a value equal to one of the constants
that the filter compares with the path, and these values are finitely many.
-/

namespace Folio

namespace Expr

variable {scope : Scope} {binding : String} {keys : List String} {e left right : Expr}

/-! ## Equations -/

/-- The equations that conjunctions and disjunctions join. -/
def equations : Expr → List (Expr × Expr)
  | .binary .and left right => equations left ++ equations right
  | .binary .or left right => equations left ++ equations right
  | .binary .equal left right => [(left, right)]
  | _ => []

/-- The value is equal, in the written order, to that of a constant with which the expression
compares the path with these keys. -/
def Fixes (scope : Scope) (binding : String) (keys : List String) (e : Expr) (v : Value) : Prop :=
  ∃ path constant w, path.path? = some (binding, keys) ∧ constant.isConstant = true ∧
    constant.eval scope = .ok w ∧
    ((path, constant) ∈ e.equations ∧ v.equal w = .true ∨
      (constant, path) ∈ e.equations ∧ w.equal v = .true)

/-- A value that an expression fixes is fixed by an expression with more equations. -/
theorem Fixes.mono {e' : Expr} {v : Value} (h : e.Fixes scope binding keys v)
    (hsubset : e.equations ⊆ e'.equations) : e'.Fixes scope binding keys v := by
  obtain ⟨path, constant, w, hpath, hconstant, hw, hequal⟩ := h
  exact ⟨path, constant, w, hpath, hconstant, hw,
    hequal.imp (fun h => ⟨hsubset h.1, h.2⟩) fun h => ⟨hsubset h.1, h.2⟩⟩

/-- A fixed value is present. -/
theorem Fixes.present {v : Value} (h : e.Fixes scope binding keys v) : v.isAbsent = false := by
  obtain ⟨path, constant, w, -, -, -, hequal⟩ := h
  rcases hequal with ⟨-, hequal⟩ | ⟨-, hequal⟩
  · exact (Value.equal_eq_true_iff.mp hequal).1
  · exact (Value.equal_eq_true_iff.mp hequal).2.1

/-- A path is one with the given keys below the document. -/
theorem path?_of_isPathOf (h : e.isPathOf binding keys = true) : e.path? = some (binding, keys) := by
  unfold isPathOf at h
  split at h
  next root path hpath =>
    simp only [Bool.and_eq_true, beq_iff_eq] at h
    rw [hpath, h.1.1, h.2]
  next => cases h

/-- A document of which an expression is true has, where a pinned path leads, a value that the
expression fixes. -/
theorem fixes_of_pins (hpins : e.pins binding keys = true) (htest : e.test scope = .ok true) :
    e.Fixes scope binding keys (scope.document.resolve keys) := by
  obtain ⟨v, hv, htrue⟩ := test_eq_ok_true_iff.mp htest
  fun_induction pins binding keys e generalizing v with
  | case1 left right ihleft ihright =>
    obtain ⟨a, ha, b, hb, rfl⟩ := eval_binary_eq_ok_iff.mp hv
    rw [BinaryOp.apply, Truth.ofValue_toValue, Truth.and_eq_true_iff] at htrue
    rcases Bool.or_eq_true_iff.mp hpins with hleft | hright
    · exact (ihleft hleft (test_eq_ok_true_iff.mpr ⟨a, ha, htrue.1⟩) a ha htrue.1).mono
        (List.subset_append_left _ _)
    · exact (ihright hright (test_eq_ok_true_iff.mpr ⟨b, hb, htrue.2⟩) b hb htrue.2).mono
        (List.subset_append_right _ _)
  | case2 left right ihleft ihright =>
    obtain ⟨a, ha, b, hb, rfl⟩ := eval_binary_eq_ok_iff.mp hv
    rw [BinaryOp.apply, Truth.ofValue_toValue, Truth.or_eq_true_iff] at htrue
    obtain ⟨hleft, hright⟩ := Bool.and_eq_true_iff.mp hpins
    rcases htrue with htrue | htrue
    · exact (ihleft hleft (test_eq_ok_true_iff.mpr ⟨a, ha, htrue⟩) a ha htrue).mono
        (List.subset_append_left _ _)
    · exact (ihright hright (test_eq_ok_true_iff.mpr ⟨b, hb, htrue⟩) b hb htrue).mono
        (List.subset_append_right _ _)
  | case3 left right =>
    obtain ⟨a, ha, b, hb, rfl⟩ := eval_binary_eq_ok_iff.mp hv
    rw [BinaryOp.apply, Truth.ofValue_toValue] at htrue
    simp only [Bool.or_eq_true, Bool.and_eq_true] at hpins
    rcases hpins with ⟨hpath, hconstant⟩ | ⟨hpath, hconstant⟩
    · have hkeys := path?_of_isPathOf hpath
      obtain rfl := Except.ok.inj ((eval_of_path? hkeys).symm.trans ha)
      exact ⟨left, right, b, hkeys, hconstant, hb, .inl ⟨List.mem_singleton_self _, htrue⟩⟩
    · have hkeys := path?_of_isPathOf hpath
      obtain rfl := Except.ok.inj ((eval_of_path? hkeys).symm.trans hb)
      exact ⟨right, left, a, hkeys, hconstant, ha, .inr ⟨List.mem_singleton_self _, htrue⟩⟩
  | case4 => cases hpins

/-- The operands of equations are plain in a plain expression. -/
theorem plain_of_mem_equations (h : e.Plain) {sides : Expr × Expr} (hsides : sides ∈ e.equations) :
    sides.1.Plain ∧ sides.2.Plain := by
  fun_induction equations e with
  | case1 left right ihleft ihright =>
    rcases List.mem_append.mp hsides with hsides | hsides
    · exact ihleft (h.child (by simp [children])) hsides
    · exact ihright (h.child (by simp [children])) hsides
  | case2 left right ihleft ihright =>
    rcases List.mem_append.mp hsides with hsides | hsides
    · exact ihleft (h.child (by simp [children])) hsides
    · exact ihright (h.child (by simp [children])) hsides
  | case3 left right =>
    obtain rfl := List.mem_singleton.mp hsides
    exact ⟨h.child (by simp [children]), h.child (by simp [children])⟩
  | case4 => cases hsides

end Expr

/-! ## Finitely many values -/

/-- The parameters of a request have each key of an object once, as in a JSON object. -/
def Request.Keyed (request : Request) : Prop :=
  ∀ parameter ∈ request.parameters, (Value.ofJson parameter.2).Keyed

namespace Expr

variable {request : Request} {e constant : Expr} {w : Value}

/-- A constant has one value whatever the document. -/
theorem eval_constant_eq (h : constant.isConstant = true) (document document' : Value) :
    constant.eval (request.scope document) = constant.eval (request.scope document') := by
  cases constant with
  | literal v => rfl
  | parameter name => rfl
  | _ => cases h

/-- The value of a plain constant is absent, or complete with each key once. -/
theorem complete_keyed_of_constant (hrequest : request.Keyed) (hplain : constant.Plain)
    (hconstant : constant.isConstant = true) (h : constant.eval (request.scope .absent) = .ok w)
    (hpresent : w.isAbsent = false) : w.Complete ∧ w.Keyed := by
  cases constant with
  | literal v =>
    obtain rfl := Except.ok.inj h
    exact ⟨Value.complete_of_plain hplain.literal hpresent, Value.keyed_of_plain hplain.literal⟩
  | parameter name =>
    obtain rfl := Except.ok.inj h
    cases hlookup : (request.scope .absent).parameters.lookup name with
    | none =>
      rw [hlookup] at hpresent
      cases hpresent
    | some v =>
      obtain ⟨⟨given, j⟩, hmem, hj⟩ := List.mem_map.mp (Entries.mem_of_lookup_eq_some hlookup)
      obtain ⟨rfl, rfl⟩ := Prod.mk.inj hj
      exact ⟨Value.complete_ofJson j, hrequest _ hmem⟩
  | _ => cases hconstant

/-- The complete values that a plain expression fixes are finitely many, over all documents. -/
theorem finite_fixes (hrequest : request.Keyed) (hplain : e.Plain) (binding : String)
    (keys : List String) : {v : Value | v.Complete ∧
      ∃ document, e.Fixes (request.scope document) binding keys v}.Finite := by
  let onRight (sides : Expr × Expr) : Set Value := {v | v.Complete ∧ ∃ w,
    sides.2.eval (request.scope .absent) = .ok w ∧ v.equal w = .true}
  let onLeft (sides : Expr × Expr) : Set Value := {v | sides.1.isConstant = true ∧ ∃ w,
    sides.1.eval (request.scope .absent) = .ok w ∧ w.equal v = .true}
  have hright (sides : Expr × Expr) : (onRight sides).Finite := by
    cases heval : sides.2.eval (request.scope .absent) with
    | error err => simp [onRight, heval]
    | ok w =>
      refine (Value.finite_complete_deepEqual w).subset ?_
      rintro v ⟨hcomplete, w', hw', hequal⟩
      obtain rfl := Except.ok.inj (heval.symm.trans hw')
      exact ⟨hcomplete, (Value.equal_eq_true_iff.mp hequal).2.2⟩
  have hleft (sides : Expr × Expr) (hsides : sides ∈ e.equations) : (onLeft sides).Finite := by
    by_cases hconstant : sides.1.isConstant = true
    · cases heval : sides.1.eval (request.scope .absent) with
      | error err => simp [onLeft, heval]
      | ok w =>
        cases hpresent : w.isAbsent with
        | true => simp [onLeft, heval, Value.equal_eq_true_iff, hpresent]
        | false =>
          obtain ⟨hcomplete, hkeyed⟩ := complete_keyed_of_constant hrequest
            (plain_of_mem_equations hplain hsides).1 hconstant heval hpresent
          refine (Value.finite_deepEqual hcomplete hkeyed).subset ?_
          rintro v ⟨-, w', hw', hequal⟩
          obtain rfl := Except.ok.inj (heval.symm.trans hw')
          exact (Value.equal_eq_true_iff.mp hequal).2.2
    · simp [onLeft, hconstant]
  refine (e.equations.finite_toSet.biUnion fun sides hsides =>
    (hright sides).union (hleft sides hsides)).subset ?_
  rintro v ⟨hcomplete, document, path, constant, w, -, hconstant, hw, hequal⟩
  rw [eval_constant_eq hconstant document .absent] at hw
  rcases hequal with ⟨hmem, hequal⟩ | ⟨hmem, hequal⟩
  · exact Set.mem_biUnion hmem (.inl ⟨hcomplete, w, hw, hequal⟩)
  · exact Set.mem_biUnion hmem (.inr ⟨hconstant, w, hw, hequal⟩)

end Expr

namespace Statement

/-- **Pinned paths.** If a statement pins paths, its filter is true only of documents in which each
path leads to a present value that is equal, in the written order, to that of a literal or parameter
which the filter compares with the path. If the statement was parsed, then for one request the
documents of which the filter is true have finitely many values there. -/
theorem pinsAll_sound {s : Statement} {paths : List String} (hpins : s.pinsAll paths = true)
    {path : String} (hpath : path ∈ paths) : ∃ filter, s.filter = some filter ∧
      (∀ scope, filter.test scope = .ok true →
        (scope.document.resolve (slashedKeys path)).isAbsent = false ∧
          filter.Fixes scope s.binding (slashedKeys path)
            (scope.document.resolve (slashedKeys path))) ∧
      ∀ (text : String) (request : Request), Query.parse text = .ok s → request.Keyed →
        {v | ∃ document, filter.test (request.scope (.ofJson document)) = .ok true ∧
          (Value.ofJson document).resolve (slashedKeys path) = v}.Finite := by
  have hpinned := List.all_eq_true.mp hpins path hpath
  cases hfilter : s.filter with
  | none =>
    rw [hfilter] at hpinned
    cases hpinned
  | some filter =>
    rw [hfilter] at hpinned
    have hfixes (scope : Scope) (htest : filter.test scope = .ok true) :=
      Expr.fixes_of_pins hpinned htest
    refine ⟨filter, rfl, fun scope htest => ⟨(hfixes scope htest).present, hfixes scope htest⟩, ?_⟩
    intro text request hparse hrequest
    have hplain := Query.plain_of_parse hparse filter hfilter
    refine (Expr.finite_fixes hrequest hplain s.binding (slashedKeys path)).subset ?_
    rintro _ ⟨document, htest, rfl⟩
    have hfixed := hfixes _ htest
    exact ⟨Value.complete_resolve (Value.complete_ofJson document) _ hfixed.present, _, hfixed⟩

/-- A key is compared with a number on its right or with a parameter on its left, and a document has
the parameter under the key. -/
theorem pinsAll_sound_number_or_parameter :
    ∃ s filter, Query.parse "SELECT * FROM c WHERE c.k = 1 OR @p = c.k" = .ok s ∧
      s.pinsAll ["/k"] = true ∧ s.filter = some filter ∧
      let request : Request := { Request.plain with parameters := [("@p", .string "x")] }
      let scope := request.scope (.ofJson (.object [("k", .string "x")]))
      request.Keyed ∧ filter.test scope = .ok true ∧
        filter.Fixes scope s.binding ["k"] (scope.document.resolve ["k"]) ∧
        {v | ∃ document, filter.test (request.scope (.ofJson document)) = .ok true ∧
          (Value.ofJson document).resolve ["k"] = v}.Finite := by
  let request : Request := { Request.plain with parameters := [("@p", .string "x")] }
  let scope := request.scope (.ofJson (.object [("k", .string "x")]))
  have hcheck : (do
      let s ← (Query.parse "SELECT * FROM c WHERE c.k = 1 OR @p = c.k").toOption
      let filter ← s.filter
      return s.pinsAll ["/k"] && (filter.test scope).toOption == some true) = some true := by
    decide +kernel
  obtain ⟨s, hparse, hcheck⟩ := Option.bind_eq_some_iff.mp hcheck
  obtain ⟨filter, hfilter, hcheck⟩ := Option.bind_eq_some_iff.mp hcheck
  have hparse := toOption_eq_some_iff.mp hparse
  obtain ⟨hpins, htest⟩ := Bool.and_eq_true_iff.mp (Option.some.inj hcheck)
  have htest := toOption_eq_some_iff.mp (beq_iff_eq.mp htest)
  have hkeyed : request.Keyed := by
    intro parameter hparameter
    obtain rfl := List.mem_singleton.mp hparameter
    exact Value.keyed_of_plain rfl
  have hkeys : slashedKeys "/k" = ["k"] := by decide
  obtain ⟨filter', hfilter', hsound, hfinite⟩ := pinsAll_sound hpins (List.mem_singleton_self "/k")
  obtain rfl := Option.some.inj (hfilter.symm.trans hfilter')
  rw [hkeys] at hsound hfinite
  exact ⟨s, filter, hparse, hpins, hfilter, hkeyed, htest, (hsound scope htest).2,
    hfinite _ request hparse hkeyed⟩

end Statement

end Folio
