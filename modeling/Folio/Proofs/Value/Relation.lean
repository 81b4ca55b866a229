import Folio.Proofs.Value.Order

/-!
# Filters and sorting agree

Two values of one kind without parts, neither of them not-a-number, are related as sorting orders
them: exactly one of *less*, *equal* and *greater* is true of them. Of other values filters know no
relation, and not-a-number is in no relation to a number, although sorting orders it.
-/

namespace Folio.Value

/-- Whether the value is not-a-number. -/
def isNaN (v : Value) : Bool := v.number?.any Number.isNaN

/-- Two values are of one kind, and that is a kind without parts. -/
def Comparable (a b : Value) : Prop :=
  a.kind = b.kind ∧ a.kind ∈ [Kind.null, .boolean, .number, .string]

variable {a b : Value}

/-- Filters know how two values are related if the values are comparable. -/
theorem comparable_iff : a.Comparable b ↔ (a.sameKind b && !a.isComposite) = true := by
  cases a <;> cases b <;> simp [Comparable, sameKind, kind, isComposite]

/-- Comparable values are related by the order that filters see, if they have one. -/
theorem relate_of_comparable (h : a.Comparable b) (relation : Relation) :
    a.relate relation b = .ofBool ((primitiveCompare? a b).any relation.holds) :=
  if_pos (comparable_iff.mp h)

/-- Other values are in no known relation. -/
theorem relate_of_not_comparable (h : ¬ a.Comparable b) (relation : Relation) :
    a.relate relation b = .unknown :=
  if_neg fun hknown => h (comparable_iff.mpr hknown)

/-- The order that filters see is that of sorting. -/
theorem primitiveCompare?_of_comparable (h : a.Comparable b) (ha : a.isNaN = false)
    (hb : b.isNaN = false) : primitiveCompare? a b = some (a.totalCompare b) := by
  obtain ⟨hkind, hplain⟩ := h
  cases a <;> cases b <;> simp_all [kind, primitiveCompare?, totalCompare, compareWithin]
  case number.number x y =>
    have hcompare : x.compare? y = some (compare x.rank y.rank) := by
      simp_all [Number.compare?, isNaN, number?]
    rw [Number.totalCompare, hcompare]

/-- Comparable values are equal by content if they tie when sorted. -/
theorem deepEqual_of_comparable (h : a.Comparable b) (ha : a.isNaN = false)
    (hb : b.isNaN = false) : a.deepEqual b = (a.totalCompare b == .eq) := by
  obtain ⟨hkind, hplain⟩ := h
  rw [Bool.eq_iff_iff, beq_iff_eq]
  refine ⟨totalCompare_eq_of_deepEqual, fun htie => ?_⟩
  simp only [totalCompare_eq_then, Ordering.then_eq_eq, Std.LawfulEqOrd.compare_eq_iff_eq] at htie
  obtain ⟨-, hflag, hplace, hletters⟩ := htie
  cases a <;> cases b <;>
    simp_all [kind, flag, place, letters, deepEqual, Number.equal, isNaN, number?]
  exact Text.eq_of_units_eq hletters

/-- Comparable values are present. -/
theorem Comparable.present (h : a.Comparable b) : a.isAbsent = false ∧ b.isAbsent = false := by
  obtain ⟨hkind, hplain⟩ := h
  cases a <;> cases b <;> simp_all [kind, isAbsent]

/-- Not-a-number has no place in the order that filters see. -/
theorem primitiveCompare?_of_isNaN (h : a.isNaN = true ∨ b.isNaN = true) :
    primitiveCompare? a b = none := by
  cases a <;> cases b <;> simp_all [primitiveCompare?, Number.compare?, isNaN, number?]

/-- Sorting puts not-a-number after the other numbers. -/
theorem totalCompare_of_isNaN (hkind : a.kind = b.kind) (h : a.isNaN = true ∨ b.isNaN = true) :
    a.totalCompare b = compare a.isNaN b.isNaN := by
  cases a <;> cases b <;> simp_all [kind, isNaN, number?]
  case number.number x y =>
    have hcompare : x.compare? y = none := by simp_all [Number.compare?]
    simp [totalCompare, compareWithin, kind, Number.totalCompare, hcompare]

/-- **Filters and sorting.** For any two values:

* if they are comparable and neither is not-a-number, then *less*, *equal* and *greater* are true
  exactly where sorting finds the values in that order, and false elsewhere; *at most* and
  *at least* are disjunctions of these, and *not equal* is a negation;
* if they are not comparable, then each of the four relations is unknown;
* if they are comparable and one is not-a-number, then each relation is false, and sorting puts
  not-a-number after the other numbers and lets it tie with itself. -/
theorem relate_eq_totalCompare (a b : Value) :
    (a.Comparable b → a.isNaN = false → b.isNaN = false →
      a.relate .less b = .ofBool (a.totalCompare b == .lt) ∧
      a.equal b = .ofBool (a.totalCompare b == .eq) ∧
      a.relate .greater b = .ofBool (a.totalCompare b == .gt) ∧
      a.relate .atMost b = (a.relate .less b).or (a.equal b) ∧
      a.relate .atLeast b = (a.relate .greater b).or (a.equal b) ∧
      a.notEqual b = (a.equal b).not) ∧
    (¬ a.Comparable b → ∀ relation, a.relate relation b = .unknown) ∧
    (a.Comparable b → (a.isNaN = true ∨ b.isNaN = true) →
      (∀ relation, a.relate relation b = .false) ∧
      a.totalCompare b = compare a.isNaN b.isNaN) := by
  refine ⟨fun h ha hb => ?_, relate_of_not_comparable, fun h hnan => ⟨fun relation => ?_, ?_⟩⟩
  · have hrelate (relation : Relation) :
        a.relate relation b = .ofBool (relation.holds (a.totalCompare b)) := by
      rw [relate_of_comparable h, primitiveCompare?_of_comparable h ha hb, Option.any_some]
    have hequal : a.equal b = .ofBool (a.totalCompare b == .eq) := by
      rw [equal_of_present h.present.1 h.present.2, deepEqual_of_comparable h ha hb]
    simp only [hrelate, hequal, notEqual]
    cases a.totalCompare b <;> decide
  · rw [relate_of_comparable h, primitiveCompare?_of_isNaN hnan]
    rfl
  · exact totalCompare_of_isNaN h.1 hnan

/-- A character above `U+FFFF` is less than one near the end of the first plane; a number and a text
are in no known relation; not-a-number is in no relation to a number and is sorted after it. -/
theorem relate_eq_totalCompare_three_pairs :
    let high : Value := .string "😀"
    let last : Value := .string "\ufffd"
    let zero : Value := .number .zero
    let nan : Value := .number .nan
    (high.Comparable last ∧ high.isNaN = false ∧ last.isNaN = false ∧
      high.totalCompare last = .lt ∧ high.relate .less last = .true) ∧
    (¬ zero.Comparable high ∧ zero.relate .less high = .unknown) ∧
    (nan.Comparable zero ∧ nan.isNaN = true ∧ nan.relate .atLeast zero = .false ∧
      nan.totalCompare zero = .gt) := by
  intro high last zero nan
  have hplain : high.Comparable last := ⟨rfl, by decide⟩
  have horder : high.totalCompare last = .lt := by decide +kernel
  have hother : ¬ zero.Comparable high := fun h => nomatch h.1
  have hnan : nan.Comparable zero := ⟨rfl, by decide⟩
  refine ⟨⟨hplain, rfl, rfl, horder, ?_⟩, ⟨hother, ?_⟩, hnan, rfl, ?_⟩
  · have hless := ((relate_eq_totalCompare high last).1 hplain rfl rfl).1
    rw [hless, horder]
    rfl
  · exact (relate_eq_totalCompare zero high).2.1 hother .less
  · obtain ⟨hfalse, hafter⟩ := (relate_eq_totalCompare nan zero).2.2 hnan (.inl rfl)
    exact ⟨hfalse .atLeast, hafter⟩

end Folio.Value
