import Folio.Value.Truth

/-!
# Known outcomes

A logical operator is told by its known outcomes: when it is true and when it is false. A row of
disjunctions is true if one of its members is, and false if all are.
-/

namespace Folio.Truth

/-- A truth is that of its value. -/
@[simp] theorem ofValue_toValue (t : Truth) : ofValue t.toValue = t := by
  cases t <;> rfl

/-- Different truths have different values. -/
theorem toValue_inj {s t : Truth} : s.toValue = t.toValue ↔ s = t :=
  Function.LeftInverse.injective ofValue_toValue |>.eq_iff

/-- A truth is known by when it is true and when it is false. -/
theorem eq_iff {s t : Truth} :
    s = t ↔ (s = .true ↔ t = .true) ∧ (s = .false ↔ t = .false) := by
  cases s <;> cases t <;> decide

/-- The truth of a condition is true if the condition is. -/
theorem ofBool_eq_true_iff {b : Bool} : ofBool b = .true ↔ b = Bool.true := by
  cases b <;> decide

/-- The truth of a condition is false unless the condition is true. -/
theorem ofBool_eq_false_iff {b : Bool} : ofBool b = .false ↔ b = Bool.false := by
  cases b <;> decide

/-- Different truths have different negations. -/
theorem not_inj {s t : Truth} : s.not = t.not ↔ s = t := by
  cases s <;> cases t <;> decide

/-- A negation is true only of what is false. -/
theorem not_eq_true_iff {t : Truth} : t.not = .true ↔ t = .false := by
  cases t <;> decide

/-- A conjunction is true only if both parts are. -/
theorem and_eq_true_iff {s t : Truth} : s.and t = .true ↔ s = .true ∧ t = .true := by
  cases s <;> cases t <;> decide

/-- A disjunction is true only if one part is. -/
theorem or_eq_true_iff {s t : Truth} : s.or t = .true ↔ s = .true ∨ t = .true := by
  cases s <;> cases t <;> decide

/-- A disjunction is false only if both parts are. -/
theorem or_eq_false_iff {s t : Truth} : s.or t = .false ↔ s = .false ∧ t = .false := by
  cases s <;> cases t <;> decide

/-- A row of disjunctions from the left is true only if one member is. -/
theorem foldl_or_eq_true_iff {t : Truth} {ts : List Truth} :
    ts.foldl or t = .true ↔ .true ∈ t :: ts := by
  induction ts generalizing t with
  | nil => simp [eq_comm]
  | cons s ts ih =>
    rw [List.foldl_cons, ih]
    simp only [List.mem_cons, @eq_comm _ Truth.true, or_eq_true_iff, or_assoc]

/-- A row of disjunctions from the left is false only if all members are. -/
theorem foldl_or_eq_false_iff {t : Truth} {ts : List Truth} :
    ts.foldl or t = .false ↔ ∀ s ∈ t :: ts, s = .false := by
  induction ts generalizing t with
  | nil => simp
  | cons s ts ih =>
    rw [List.foldl_cons, ih]
    simp only [List.forall_mem_cons, or_eq_false_iff, and_assoc]

end Folio.Truth
