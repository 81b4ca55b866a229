import Folio.Expr.Evaluation
import Folio.Proofs.Sequence
import Folio.Proofs.Value.SameTree

/-!
# Membership

There are two tests of membership. One searches an array for an element that equals a value, the
other a list of expressions for a value that it equals: the two pass the sides of equality in
opposite order. On values of JSON documents equality does not depend on the order of its sides, so
the tests agree.
-/

namespace Folio

namespace Value

/-- Equality by content of proper values works both ways. -/
theorem deepEqual_comm {a b : Value} (ha : a.Proper) (hb : b.Proper) :
    a.deepEqual b = b.deepEqual a := by
  rw [Bool.eq_iff_iff, deepEqual_iff_sameTree ha hb, deepEqual_iff_sameTree hb ha]
  exact ⟨SameTree.symm, SameTree.symm⟩

/-- Filters know whether proper values are equal. -/
theorem equal_of_proper {a b : Value} (ha : a.Proper) (hb : b.Proper) :
    a.equal b = .ofBool (a.deepEqual b) :=
  equal_of_present ha.complete.present hb.complete.present

/-- Filters find proper values equal if they are one tree up to the order of entries. -/
theorem equal_eq_true_iff_sameTree {a b : Value} (ha : a.Proper) (hb : b.Proper) :
    a.equal b = .true ↔ a.SameTree b := by
  rw [equal_eq_true_iff, deepEqual_iff_sameTree ha hb]
  simp [ha.complete.present, hb.complete.present]

/-- Some element equals a proper value if some is one tree with it. -/
theorem any_equal_iff {a : Value} {items : List Value} (ha : a.Proper)
    (hitems : (array items).Proper) :
    (items.any fun item => (item.equal a).isTrue) = true ↔ ∃ item ∈ items, a.SameTree item := by
  simp only [List.any_eq_true, Truth.isTrue, beq_iff_eq]
  refine exists_congr fun item => and_congr_right fun hitem => ?_
  rw [equal_eq_true_iff_sameTree (hitems.part hitem) ha]
  exact ⟨SameTree.symm, SameTree.symm⟩

/-- A proper value equals some element if it is one tree with some. -/
theorem equal_any_iff {a : Value} {items : List Value} (ha : a.Proper)
    (hitems : (array items).Proper) :
    (items.any fun item => (a.equal item).isTrue) = true ↔ ∃ item ∈ items, a.SameTree item := by
  simp only [List.any_eq_true, Truth.isTrue, beq_iff_eq]
  exact exists_congr fun item => and_congr_right fun hitem =>
    equal_eq_true_iff_sameTree ha (hitems.part hitem)

end Value

namespace Expr

variable {scope : Scope} {array needle : Expr} {choices : List Expr} {items : List Value}
  {a : Value}

/-- The search among expressions that all have a value is one among their values. -/
theorem equalsSome_of_evalItems (h : evalItems scope choices = .ok items) :
    equalsSome scope a choices = .ok (items.any fun item => (a.equal item).isTrue) := by
  induction choices generalizing items with
  | nil =>
    obtain rfl := Except.ok.inj h
    rfl
  | cons choice rest ih =>
    obtain ⟨v, hv, h⟩ := bind_eq_ok_iff.mp h
    obtain ⟨values, hvalues, h⟩ := bind_eq_ok_iff.mp h
    obtain rfl := pure_eq_ok_iff.mp h
    rw [equalsSome, hv, ih hvalues, List.any_cons]
    simp only [bind, Except.bind, pure, Except.pure]
    by_cases hequal : (a.equal v).isTrue = true <;> simp [hequal]

/-- A present value is searched for among the choices. -/
theorem eval_among (hneedle : needle.eval scope = .ok a) (hpresent : a.isAbsent = false)
    (hchoices : evalItems scope choices = .ok items) :
    (among needle choices).eval scope =
      .ok (.bool (items.any fun item => (a.equal item).isTrue)) := by
  rw [eval, hneedle]
  simp only [bind, Except.bind, hpresent, Bool.false_eq_true, if_false,
    equalsSome_of_evalItems hchoices]
  rfl

/-- An array is searched for a value. -/
theorem eval_arrayContains (harray : array.eval scope = .ok (.array items))
    (hneedle : needle.eval scope = .ok a) :
    (call "ARRAY_CONTAINS" [array, needle]).eval scope =
      .ok (.bool (items.any fun item => (item.equal a).isTrue)) := by
  rw [eval, evalItems, evalItems, evalItems, harray, hneedle]
  rfl

end Expr

open Value in
/-- **Equality of JSON data.** On values in which nothing is absent and no object repeats a key,
equality by content holds exactly of one tree up to the order of entries. There it is symmetric and
transitive, and reflexive exactly where not-a-number does not occur; the same is true of equality
as filters see it. Searching an array for such a value therefore has the outcome of searching for it
among expressions with the values of the elements. -/
theorem deepEqual_laws {a b c : Value} (ha : a.Proper) (hb : b.Proper) (hc : c.Proper) :
    (a.deepEqual b = true ↔ a.SameTree b) ∧
    a.equal b = .ofBool (a.deepEqual b) ∧
    (a.deepEqual b = b.deepEqual a ∧ a.equal b = b.equal a) ∧
    ((a.deepEqual b = true → b.deepEqual c = true → a.deepEqual c = true) ∧
      (a.equal b = .true → b.equal c = .true → a.equal c = .true)) ∧
    ((a.deepEqual a = true ↔ ∀ n ∈ a.numbers, n.isNaN = false) ∧
      (a.equal a = .true ↔ ∀ n ∈ a.numbers, n.isNaN = false)) ∧
    ∀ (scope : Scope) (array needle : Expr) (choices : List Expr) (items : List Value),
      (Value.array items).Proper → array.eval scope = .ok (.array items) →
      needle.eval scope = .ok a → Expr.evalItems scope choices = .ok items →
      ∃ found : Bool,
        (Expr.call "ARRAY_CONTAINS" [array, needle]).eval scope = .ok (.bool found) ∧
        (Expr.among needle choices).eval scope = .ok (.bool found) ∧
        (found = true ↔ ∃ item ∈ items, a.SameTree item) := by
  refine ⟨deepEqual_iff_sameTree ha hb, equal_of_proper ha hb, ⟨deepEqual_comm ha hb, ?_⟩, ⟨?_, ?_⟩,
    ⟨?_, ?_⟩, ?_⟩
  · rw [equal_of_proper ha hb, equal_of_proper hb ha, deepEqual_comm ha hb]
  · rw [deepEqual_iff_sameTree ha hb, deepEqual_iff_sameTree hb hc, deepEqual_iff_sameTree ha hc]
    exact SameTree.trans
  · rw [equal_eq_true_iff_sameTree ha hb, equal_eq_true_iff_sameTree hb hc,
      equal_eq_true_iff_sameTree ha hc]
    exact SameTree.trans
  · rw [deepEqual_iff_sameTree ha ha, sameTree_self_iff ha]
  · rw [equal_eq_true_iff_sameTree ha ha, sameTree_self_iff ha]
  · intro scope array needle choices items hitems harray hneedle hchoices
    have hsides : (items.any fun item => (item.equal a).isTrue) =
        items.any fun item => (a.equal item).isTrue := by
      rw [Bool.eq_iff_iff, any_equal_iff ha hitems, equal_any_iff ha hitems]
    refine ⟨_, Expr.eval_arrayContains harray hneedle, ?_, any_equal_iff ha hitems⟩
    rw [Expr.eval_among hneedle ha.complete.present hchoices, hsides]

open Value in
/-- Two objects with the same entries in different orders are equal either way, and either is found
in an array of the other. -/
theorem deepEqual_laws_two_orders :
    let a : Value := .object [("x", .null), ("y", .array [.bool true])]
    let b : Value := .object [("y", .array [.bool true]), ("x", .null)]
    let scope : Scope := ⟨.null, [], .empty⟩
    (a.Proper ∧ b.Proper ∧ (Value.array [b]).Proper) ∧
    a.SameTree b ∧ a.equal b = b.equal a ∧
    ∃ found : Bool,
      (Expr.call "ARRAY_CONTAINS" [.literal (.array [b]), .literal a]).eval scope =
        .ok (.bool found) ∧
      (Expr.among (.literal a) [.literal b]).eval scope = .ok (.bool found) ∧
      (found = true ↔ ∃ item ∈ [b], a.SameTree item) := by
  intro a b scope
  have hnull : Value.null.Proper := proper_of_plain rfl rfl
  have htrue : (Value.array [.bool true]).Proper :=
    proper_array (List.forall_mem_singleton.mpr (proper_of_plain rfl rfl))
  have ha : a.Proper := proper_object (by decide) (by simp [hnull, htrue])
  have hb : b.Proper := proper_object (by decide) (by simp [hnull, htrue])
  have hitems : (Value.array [b]).Proper := proper_array (List.forall_mem_singleton.mpr hb)
  obtain ⟨htree, -, ⟨-, hsides⟩, -, -, hmember⟩ := deepEqual_laws ha hb hb
  exact ⟨⟨ha, hb, hitems⟩, htree.mp (by decide +kernel), hsides,
    hmember scope (.literal (.array [b])) (.literal a) [.literal b] [b] hitems rfl rfl rfl⟩

end Folio
