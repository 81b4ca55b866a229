import Folio.Number.Rounding
import Mathlib.Tactic.Linarith

/-!
# Rounding to the nearest double

A ratio that lies within half a step of a magnitude on the grid is rounded to that magnitude. What
is a double already is its own rounding, and the rounding depends on the ratio alone.
-/

namespace Folio

/-- A ratio within one half of a whole number is rounded to it, at a distance of one half if the
whole number is even. -/
theorem roundQuotient_eq {n d k : Nat} (hd : 0 < d) (hlow : 2 * (k * d) ≤ 2 * n + d)
    (hhigh : 2 * n ≤ 2 * (k * d) + d)
    (htie : k % 2 = 0 ∨ (2 * (k * d) < 2 * n + d ∧ 2 * n < 2 * (k * d) + d)) :
    roundQuotient n d = k := by
  have hsplit : n / d * d + n % d = n := Nat.div_add_mod' n d
  have hrest : n % d < d := Nat.mod_lt n hd
  have hle : n / d ≤ k := by
    by_contra hgt
    have hmul : (k + 1) * d ≤ n / d * d := Nat.mul_le_mul_right d (by omega)
    rw [Nat.add_one_mul] at hmul
    omega
  have hge : k ≤ n / d + 1 := by
    by_contra hlt
    have hmul : (n / d + 2) * d ≤ k * d := Nat.mul_le_mul_right d (by omega)
    rw [Nat.add_mul] at hmul
    omega
  have hcases : k = n / d ∨ k = n / d + 1 := by omega
  unfold roundQuotient
  simp only
  rcases hcases with hk | hk
  · have hprod : k * d = n / d * d := by rw [hk]
    rw [if_pos (by omega)]
    exact hk.symm
  · have hprod : k * d = n / d * d + d := by rw [hk, Nat.add_one_mul]
    rw [if_neg (by omega)]
    exact hk.symm

/-- A common factor does not change the rounding of a quotient. -/
theorem roundQuotient_mul {c : Nat} (hc : 0 < c) (n d : Nat) :
    roundQuotient (n * c) (d * c) = roundQuotient n d := by
  unfold roundQuotient
  simp only
  rw [Nat.mul_div_mul_right _ _ hc, Nat.mul_mod_mul_right, ← Nat.mul_assoc]
  simp only [Nat.mul_lt_mul_right hc, Nat.mul_left_inj (Nat.ne_of_gt hc)]

/-- A common factor does not change the nearest magnitude. -/
theorem nearest_mul {c : Nat} (hc : 0 < c) (n d : Nat) : nearest (n * c) (d * c) = nearest n d := by
  unfold nearest
  simp only
  rw [Nat.mul_div_mul_right _ _ hc, Nat.mul_right_comm d c, roundQuotient_mul hc]

/-! ## Steps of the grid -/

/-- The grid has a step of one unit up to `2 ^ 53` units. -/
theorem gridStep_of_lt {m : Nat} (h : m < 2 ^ 53) : gridStep m = 1 := by
  have hlog : m.log2 ≤ 52 := by
    rcases Nat.eq_zero_or_pos m with rfl | hpos
    · decide
    · have hlt := (Nat.log2_lt (Nat.ne_of_gt hpos)).mpr h
      omega
  rw [gridStep, Nat.pow_eq, Nat.sub_eq_zero_of_le hlog, Nat.pow_zero]

/-- Between neighbouring powers of two the grid has one step. -/
theorem gridStep_of_le_of_lt {m k : Nat} (hlow : 2 ^ 52 * 2 ^ k ≤ m) (hhigh : m < 2 ^ 53 * 2 ^ k) :
    gridStep m = 2 ^ k := by
  have hpos : m ≠ 0 := by
    have hpow : 0 < 2 ^ 52 * 2 ^ k := by positivity
    omega
  have hlog : m.log2 = 52 + k := by
    rw [Nat.log2_eq_iff hpos]
    rw [← Nat.pow_add] at hlow hhigh
    exact ⟨hlow, by rwa [Nat.add_right_comm]⟩
  rw [gridStep, Nat.pow_eq, hlog, Nat.add_sub_cancel_left]

/-- A magnitude is below `2 ^ 53` units, with a step of one unit, or a number of steps with 53
binary digits. -/
theorem gridStep_cases (m : Nat) :
    (m < 2 ^ 53 ∧ gridStep m = 1) ∨
      ∃ k, 1 ≤ k ∧ gridStep m = 2 ^ k ∧ 2 ^ 52 * 2 ^ k ≤ m ∧ m < 2 ^ 53 * 2 ^ k := by
  by_cases hsmall : m < 2 ^ 53
  · exact Or.inl ⟨hsmall, gridStep_of_lt hsmall⟩
  · have hpos : m ≠ 0 := by
      rintro rfl
      exact hsmall (by decide)
    have hlog : 53 ≤ m.log2 := (Nat.le_log2 hpos).mpr (by omega)
    obtain ⟨k, hk⟩ := Nat.exists_eq_add_of_le (show 52 ≤ m.log2 by omega)
    refine Or.inr ⟨k, by omega, ?_, ?_, ?_⟩
    · rw [gridStep, Nat.pow_eq, hk, Nat.add_sub_cancel_left]
    · rw [← Nat.pow_add, ← hk]
      exact Nat.log2_self_le hpos
    · rw [← Nat.pow_add, show 53 + k = m.log2 + 1 by omega]
      exact Nat.lt_log2_self

/-! ## Rounding -/

/-- A ratio is rounded to a number of steps of its grid if it lies within half a step. -/
theorem nearest_eq {n d s k : Nat} (hd : 0 < d) (hs : 0 < s) (hstep : gridStep (n / d) = s)
    (hlow : 2 * (k * s * d) ≤ 2 * n + s * d) (hhigh : 2 * n ≤ 2 * (k * s * d) + s * d)
    (htie : k % 2 = 0 ∨ (2 * (k * s * d) < 2 * n + s * d ∧ 2 * n < 2 * (k * s * d) + s * d)) :
    nearest n d = k * s := by
  unfold nearest
  simp only
  rw [hstep]
  have hprod : k * (d * s) = k * s * d := by rw [Nat.mul_comm d s, Nat.mul_assoc]
  rw [roundQuotient_eq (k := k) (Nat.mul_pos hd hs)]
  · rw [hprod, Nat.mul_comm d s]
    exact hlow
  · rw [hprod, Nat.mul_comm d s]
    exact hhigh
  · rw [hprod, Nat.mul_comm d s]
    exact htie

/-- A magnitude on the grid is its own rounding. -/
theorem nearest_of_dvd {units d : Nat} (hd : 0 < d) (h : gridStep units ∣ units) :
    nearest (units * d) d = units := by
  obtain ⟨k, hk⟩ := h
  have hs : 0 < gridStep units := Nat.two_pow_pos _
  have hstep : gridStep (units * d / d) = gridStep units := by rw [Nat.mul_div_cancel _ hd]
  have hk' : units = k * gridStep units := by rw [Nat.mul_comm]; exact hk
  have hsd : 0 < gridStep units * d := Nat.mul_pos hs hd
  have hnearest := nearest_eq (k := k) hd hs hstep (by rw [← hk']; omega) (by rw [← hk']; omega)
    (Or.inr (by rw [← hk']; omega))
  rw [hnearest]
  exact hk'.symm

end Folio
