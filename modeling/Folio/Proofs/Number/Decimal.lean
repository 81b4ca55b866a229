import Folio.Number.Decimal

/-!
# The decimals that numbers are written by

The decimal of a nonzero magnitude lies in the interval that rounds to the magnitude. That interval
does not hold zero, so the decimal has a leading digit other than zero.
-/

namespace Folio

attribute [ext] Decimal

/-- A nonzero magnitude has at least one step of its own grid. -/
theorem gridStep_le {units : Nat} (h : 0 < units) : gridStep units ≤ units := by
  unfold gridStep
  exact Nat.le_trans (Nat.pow_le_pow_right (by decide) (Nat.sub_le _ _))
    (Nat.log2_self_le (Nat.ne_of_gt h))

namespace Decimal

/-- Both numbers of a power of ten are positive. -/
theorem power_pos (exponent : Int) : 0 < (power exponent).1 ∧ 0 < (power exponent).2 := by
  have hten (n : Nat) : 0 < Nat.pow 10 n := Nat.pow_pos (by decide)
  unfold power
  split
  · exact ⟨hten _, Nat.one_pos⟩
  · exact ⟨Nat.one_pos, hten _⟩

/-- A number other than zero is written with a first digit other than zero. -/
theorem head?_digitChars_ne_zero {n : Nat} (h : 0 < n) : (digitChars n).head? ≠ some '0' := by
  induction n using Nat.strongRecOn with
  | ind n ih =>
    unfold digitChars
    by_cases hsmall : n < 10
    · rw [Nat.toDigits_of_lt_base hsmall]
      simp only [List.head?_cons, ne_eq, Option.some.injEq, Nat.digitChar_eq_zero]
      omega
    · have hfirst := ih (n / 10) (by omega) (by omega)
      rw [Nat.toDigits_of_base_le (by decide) (by omega), ← digitChars]
      cases hdigits : digitChars (n / 10) with
      | nil => exact absurd hdigits Nat.toDigits_ne_nil
      | cons c cs =>
        rw [hdigits] at hfirst
        simpa using hfirst

/-- The digits of a number are digits. -/
theorem isDigit_of_mem_digitChars {n : Nat} {c : Char} (h : c ∈ digitChars n) :
    c.isDigit = true :=
  Nat.isDigit_of_mem_toDigits (by decide) (by decide) h

end Decimal

namespace Number

/-- The interval of a nonzero magnitude lies above zero. -/
theorem RoundingInterval.low_pos {units : Nat} (h : 0 < units) :
    0 < (RoundingInterval.ofUnits units).low := by
  have hstep := gridStep_le h
  unfold RoundingInterval.ofUnits
  simp only
  split <;> omega

/-- The interval of a nonzero magnitude does not hold zero. -/
theorem RoundingInterval.pos_of_contains {units c : Nat} {exponent : Int} (h : 0 < units)
    (hcontains : (RoundingInterval.ofUnits units).contains exponent c = true) : 0 < c := by
  have hlow := Nat.mul_pos (RoundingInterval.low_pos h) (Decimal.power_pos exponent).2
  rcases Nat.eq_zero_or_pos c with rfl | hpos
  · unfold RoundingInterval.contains at hcontains
    simp only [Nat.mul_zero, Nat.zero_mul] at hcontains
    split at hcontains
    · simp only [Bool.and_eq_true, decide_eq_true_eq] at hcontains
      omega
    · simp only [Bool.and_eq_true, decide_eq_true_eq] at hcontains
      omega
  · exact hpos

/-- What is chosen on a decimal grid lies in the interval of the magnitude. -/
theorem contains_of_onGrid? {tie : Tie} {units c : Nat} {exponent : Int}
    (h : onGrid? tie units exponent = some c) :
    (RoundingInterval.ofUnits units).contains exponent c = true := by
  unfold onGrid? at h
  simp only at h
  split at h
  · next hbelow habove =>
    rw [← Option.some.inj h]
    split
    · exact habove
    · exact hbelow
  · next hbelow _ =>
    rw [← Option.some.inj h]
    exact hbelow
  · next _ habove =>
    rw [← Option.some.inj h]
    exact habove
  · cases h

/-- The search ends with a decimal other than zero, on whatever grid it ends. -/
theorem firstOnGrid_digits_pos (tie : Tie) {units : Nat} (h : 0 < units) (grids : Nat)
    (exponent : Int) : 0 < (firstOnGrid tie units grids exponent).digits := by
  induction grids generalizing exponent with
  | zero =>
    simp only [firstOnGrid]
    generalize 1074 = places
    exact Nat.mul_pos h (Nat.pow_pos (by decide))
  | succ grids ih =>
    rw [firstOnGrid]
    split
    · next c hc => exact RoundingInterval.pos_of_contains h (contains_of_onGrid? hc)
    · exact ih (exponent - 1)

/-- A nonzero magnitude is written by a decimal other than zero. -/
theorem shortest_digits_pos (tie : Tie) {units : Nat} (h : 0 < units) :
    0 < (shortest tie units).digits :=
  firstOnGrid_digits_pos tie h 40 (exponentAbove units)

end Number

end Folio
