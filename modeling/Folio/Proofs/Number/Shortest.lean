import Folio.Proofs.Number.Decimal
import Folio.Proofs.Number.Rounding

/-!
# The shortest decimal reads back

The interval of a magnitude holds the ratios that are rounded to it, so what is found on a decimal
grid is rounded to the magnitude that was looked for.
-/

namespace Folio

namespace Number

/-- A ratio of units lies in a rounding interval, at its ends if these belong to it. -/
def RoundingInterval.Holds (i : RoundingInterval) (n d : Nat) : Prop :=
  i.low * d ≤ 4 * n ∧ 4 * n ≤ i.high * d ∧
    (i.closed = true ∨ (i.low * d < 4 * n ∧ 4 * n < i.high * d))

/-- What the interval of a magnitude contains lies in it, in units. -/
theorem RoundingInterval.holds_of_contains {i : RoundingInterval} {exponent : Int} {c : Nat}
    (h : i.contains exponent c = true) :
    i.Holds (c * (Decimal.power exponent).1 * unitsPerOne) (Decimal.power exponent).2 := by
  have hplace : 4 * (c * (Decimal.power exponent).1 * unitsPerOne) =
      4 * c * (Decimal.power exponent).1 * unitsPerOne := by
    rw [← Nat.mul_assoc, ← Nat.mul_assoc]
  unfold Holds
  rw [hplace]
  unfold contains at h
  simp only at h
  split at h
  next hclosed =>
    simp only [Bool.and_eq_true, decide_eq_true_eq] at h
    exact ⟨h.1, h.2, Or.inl hclosed⟩
  next =>
    simp only [Bool.and_eq_true, decide_eq_true_eq] at h
    exact ⟨Nat.le_of_lt h.1, Nat.le_of_lt h.2, Or.inr h⟩

/-- A ratio in the interval of a magnitude lies within half a step of it; where the step below is
half as long, within a quarter of a step if it lies below; and only at an even number of steps at
the ends. -/
theorem RoundingInterval.Holds.spec {units n d : Nat} (hpos : 0 < units)
    (h : (ofUnits units).Holds n d) :
    2 * n ≤ 2 * (units * d) + gridStep units * d ∧
    2 * (units * d) ≤ 2 * n + gridStep units * d ∧
    (units = 2 ^ 52 * gridStep units → 1 < gridStep units →
      4 * (units * d) ≤ 4 * n + gridStep units * d) ∧
    (units / gridStep units % 2 = 0 ∨ 2 * n < 2 * (units * d) + gridStep units * d ∧
      2 * (units * d) < 2 * n + gridStep units * d) := by
  obtain ⟨hlow, hhigh, htie⟩ := h
  rw [ofUnits] at hlow hhigh htie
  simp only [Nat.pow_eq, Nat.sub_mul, Nat.add_mul, Nat.mul_assoc, beq_iff_eq] at hlow hhigh htie
  have hstep : gridStep units * d ≤ units * d := Nat.mul_le_mul_right d (gridStep_le hpos)
  by_cases hedge : units = 2 ^ 52 * gridStep units ∧ 1 < gridStep units
  · rw [if_pos hedge] at hlow htie
    refine ⟨by omega, by omega, fun _ _ => by omega, htie.imp id fun hstrict => ?_⟩
    exact ⟨by omega, by omega⟩
  · rw [if_neg hedge, Nat.mul_assoc] at hlow htie
    refine ⟨by omega, by omega, fun heq hlt => absurd ⟨heq, hlt⟩ hedge,
      htie.imp id fun hstrict => ?_⟩
    exact ⟨by omega, by omega⟩

/-- A ratio up to a quarter of a step below a power of two, where steps of half the length begin, is
rounded to the power of two. -/
theorem nearest_eq_of_edge {n d i : Nat} (hd : 0 < d) (hbelow : n < 2 ^ 53 * 2 ^ i * d)
    (hquarter : 4 * (2 ^ 53 * 2 ^ i * d) ≤ 4 * n + 2 * 2 ^ i * d) :
    nearest n d = 2 ^ 53 * 2 ^ i := by
  have hstep : gridStep (n / d) = 2 ^ i := by
    refine gridStep_of_le_of_lt ?_ ((Nat.div_lt_iff_lt_mul hd).mpr hbelow)
    rw [Nat.le_div_iff_mul_le hd]
    rw [Nat.mul_assoc] at hquarter ⊢
    rw [Nat.mul_assoc 2] at hquarter
    omega
  refine nearest_eq hd (Nat.two_pow_pos i) hstep ?_ (by omega) (Or.inl (by decide))
  rw [Nat.mul_assoc 2] at hquarter
  omega

/-- **Rounding intervals.** A ratio in the interval of a magnitude is rounded to the magnitude. -/
theorem RoundingInterval.nearest_eq_of_holds {units n d : Nat} (hpos : 0 < units) (hd : 0 < d)
    (hgrid : gridStep units ∣ units) (h : (ofUnits units).Holds n d) : nearest n d = units := by
  obtain ⟨hhigh, hlow, hedge, htie⟩ := Holds.spec hpos h
  have hs : 0 < gridStep units := Nat.two_pow_pos _
  have hsd : 0 < gridStep units * d := Nat.mul_pos hs hd
  have hk : units / gridStep units * gridStep units = units := Nat.div_mul_cancel hgrid
  have hfloor {a : Nat} (ha : a * d ≤ n) : a ≤ n / d := (Nat.le_div_iff_mul_le hd).mpr ha
  have hceil {b : Nat} (hb : n < b * d) : n / d < b := (Nat.div_lt_iff_lt_mul hd).mpr hb
  -- where the ratio has the step of the magnitude, half a step to either side is left
  have hsame (hstep : gridStep (n / d) = gridStep units) : nearest n d = units := by
    have hnearest := nearest_eq (k := units / gridStep units) hd hs hstep
    rw [hk] at hnearest
    exact hnearest hlow hhigh (htie.imp id And.symm)
  rcases gridStep_cases units with ⟨hsmall, hone⟩ | ⟨j, hj, hpow, hfrom, hto⟩
  · refine hsame ?_
    rw [hone] at hhigh
    have hlt : n < (units + 1) * d := by
      rw [Nat.add_mul]
      omega
    rw [hone]
    exact gridStep_of_lt (Nat.lt_of_lt_of_le (hceil hlt) hsmall)
  · have hlt : n < 2 ^ 53 * 2 ^ j * d := by
      have hnext : units / gridStep units + 1 ≤ 2 ^ 53 := by
        rw [Nat.succ_le_iff, Nat.div_lt_iff_lt_mul hs, hpow]
        exact hto
      have hbound : (units / gridStep units + 1) * gridStep units * d ≤ 2 ^ 53 * 2 ^ j * d := by
        rw [hpow] at hnext ⊢
        exact Nat.mul_le_mul_right d (Nat.mul_le_mul_right _ hnext)
      rw [Nat.add_mul, hk, Nat.one_mul, Nat.add_mul] at hbound
      omega
    have hge : 2 ^ 52 * 2 ^ j * d ≤ units * d := Nat.mul_le_mul_right d hfrom
    by_cases hbelow : 2 ^ 52 * 2 ^ j * d ≤ n
    · refine hsame ?_
      rw [hpow]
      exact gridStep_of_le_of_lt (hfloor hbelow) (hceil hlt)
    · -- below a power of two the ratio has half the step of the magnitude
      have hfirst : units = 2 ^ 52 * gridStep units := by
        rcases Nat.lt_or_eq_of_le (Nat.mul_le_mul_right (gridStep units)
          (show 2 ^ 52 ≤ units / gridStep units from (Nat.le_div_iff_mul_le hs).mpr (hpow ▸ hfrom)))
          with hmore | heq
        · have hnext : 2 ^ 52 + 1 ≤ units / gridStep units := Nat.lt_of_mul_lt_mul_right hmore
          have hbound := Nat.mul_le_mul_right d (Nat.mul_le_mul_right (gridStep units) hnext)
          rw [hk, Nat.add_mul, Nat.one_mul, Nat.add_mul, hpow] at hbound
          rw [hpow] at hlow
          omega
        · rw [hk] at heq
          exact heq.symm
      obtain ⟨i, rfl⟩ := Nat.exists_eq_add_of_le hj
      have hhalf : gridStep units = 2 * 2 ^ i := by rw [hpow, Nat.pow_add, Nat.pow_one]
      have hone : 0 < 2 ^ i := Nat.two_pow_pos i
      have hunits : units = 2 ^ 53 * 2 ^ i := by omega
      have hquarter := hedge hfirst (by omega)
      rw [hhalf, hunits] at hquarter
      have hless : n < 2 ^ 53 * 2 ^ i * d := by
        rw [← hunits]
        omega
      rw [hunits]
      exact nearest_eq_of_edge hd hless hquarter

end Number

namespace Decimal

/-- The magnitude nearest to a decimal. -/
def roundedUnits (d : Decimal) : Nat :=
  nearest (d.digits * (power d.exponent).1 * unitsPerOne) (power d.exponent).2

/-- A power of ten with a negative exponent is one over a whole number. -/
theorem power_neg {places : Nat} (h : 0 < places) :
    power (-(places : Int)) = (1, Nat.pow 10 places) := by
  rw [power, if_neg (by omega), Int.neg_neg, Int.toNat_natCast]

/-- Halves are tenths: a magnitude is a decimal with as many places as it has binary ones. -/
theorem roundedUnits_exact {units : Nat} (hgrid : gridStep units ∣ units) :
    roundedUnits ⟨units * Nat.pow 5 1074, -1074⟩ = units := by
  obtain ⟨places, hplaces, hpos⟩ : ∃ places, places = 1074 ∧ 0 < places := ⟨1074, rfl, by decide⟩
  have hexponent : (-1074 : Int) = -(places : Int) := by rw [hplaces]; rfl
  unfold roundedUnits unitsPerOne
  rw [hexponent, power_neg hpos, ← hplaces]
  have hexact : units * Nat.pow 5 places * 1 * Nat.pow 2 places = units * Nat.pow 10 places := by
    rw [Nat.mul_one, Nat.mul_assoc, Nat.pow_eq, Nat.pow_eq, Nat.pow_eq, ← Nat.mul_pow]
  have hten : 0 < Nat.pow 10 places := Nat.pow_pos (by decide)
  simp only [hexact]
  exact nearest_of_dvd hten hgrid

end Decimal

namespace Number

/-- On whatever grid the search ends, the decimal found is rounded to the magnitude. -/
theorem roundedUnits_firstOnGrid (tie : Tie) {units : Nat} (hpos : 0 < units)
    (hgrid : gridStep units ∣ units) (grids : Nat) (exponent : Int) :
    (firstOnGrid tie units grids exponent).roundedUnits = units := by
  induction grids generalizing exponent with
  | zero => exact Decimal.roundedUnits_exact hgrid
  | succ grids ih =>
    rw [firstOnGrid]
    split
    · next c hc =>
      exact RoundingInterval.nearest_eq_of_holds hpos (Decimal.power_pos exponent).2 hgrid
        (RoundingInterval.holds_of_contains (contains_of_onGrid? hc))
    · exact ih (exponent - 1)

/-- **Shortest decimals.** A magnitude is written by a decimal that is rounded to it. -/
theorem roundedUnits_shortest (tie : Tie) {units : Nat} (hpos : 0 < units)
    (hgrid : gridStep units ∣ units) : (shortest tie units).roundedUnits = units :=
  roundedUnits_firstOnGrid tie hpos hgrid 40 (exponentAbove units)

end Number

end Folio
