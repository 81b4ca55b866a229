import Folio.Number.Word
import Folio.Proofs.Number.Exact

/-!
# Arithmetic of whole doubles

On doubles that are equal to whole numbers, sums, remainders and dropping the part below one are the
operations on the whole numbers: none of them rounds as long as the results have 53 bits.
-/

namespace Folio

/-- A smaller magnitude has a finer grid. -/
theorem gridStep_dvd_gridStep {m n : Nat} (h : m ≤ n) : gridStep m ∣ gridStep n := by
  have hlog : m.log2 ≤ n.log2 := by
    rcases Nat.eq_zero_or_pos m with rfl | hpos
    · exact Nat.zero_le _
    · have hself := Nat.log2_self_le (Nat.ne_of_gt hpos)
      exact (Nat.le_log2 (by omega)).mpr (Nat.le_trans hself h)
  exact Nat.pow_dvd_pow 2 (Nat.sub_le_sub_right hlog 52)

namespace Number

variable {x y : Number} {i j : Int}

/-- A whole number of ones is negative if the whole number is. -/
theorem mul_unitsPerOne_neg : i * unitsPerOne < 0 ↔ i < 0 := by
  have hpos := unitsPerOne_pos
  generalize unitsPerOne = one at hpos ⊢
  exact ⟨fun h => neg_of_mul_neg_left h (by omega), fun h => Int.mul_neg_of_neg_of_pos h (by omega)⟩

/-- The sign bit of a whole double is that of the whole number; zero has both signs. -/
theorem eq_zero_or_negative_iff {negative : Bool} {units : Nat}
    (h : signed negative units = i * unitsPerOne) : i = 0 ∨ (negative = true ↔ i < 0) := by
  have hpos := unitsPerOne_pos
  rw [← mul_unitsPerOne_neg, ← h]
  by_cases hzero : units = 0
  · have hproduct : i * unitsPerOne = 0 := by
      rw [← h, hzero]
      cases negative <;> rfl
    exact .inl ((Int.mul_eq_zero.mp hproduct).resolve_right
      (Int.natCast_ne_zero.mpr (Nat.ne_of_gt hpos)))
  · refine .inr ?_
    cases negative <;> simp [signed]
    omega

/-- A double that is equal to a whole number has the units of its magnitude, and its sign. -/
theorem Equals.exists_units (h : x.Equals i) : ∃ negative units hrep,
    x = .finite negative units hrep ∧ units = i.natAbs * unitsPerOne ∧
      signed negative units = i * unitsPerOne := by
  obtain ⟨hfinite, hrank⟩ := h
  cases x with
  | nan => cases hfinite
  | infinity => cases hfinite
  | finite negative units hrep =>
    refine ⟨negative, units, hrep, rfl, ?_, hrank⟩
    have hnat := congrArg Int.natAbs hrank
    rwa [rank, natAbs_signed, Int.natAbs_mul, Int.natAbs_natCast] at hnat

/-- A whole double stands before zero if the whole number is negative. -/
theorem Equals.compare?_zero_eq_lt (h : x.Equals i) : x.compare? .zero = some .lt ↔ i < 0 := by
  obtain ⟨negative, units, hrep, rfl, -, hrank⟩ := h.exists_units
  have hcompare : compare? (.finite negative units hrep) .zero =
      some (compare (i * unitsPerOne) 0) := congrArg (fun r => some (compare r 0)) hrank
  rw [hcompare, Option.some.injEq, Int.compare_eq_lt]
  exact mul_unitsPerOne_neg

/-- The magnitude of a whole double is that of the whole number. -/
theorem Equals.abs (h : x.Equals i) : x.abs.Equals i.natAbs := by
  obtain ⟨negative, units, hrep, rfl, hunits, -⟩ := h.exists_units
  exact ⟨rfl, (congrArg Nat.cast hunits).trans (Int.natCast_mul _ _)⟩

/-! ## Sums and remainders -/

/-- The sum of whole doubles is exact if it has 53 bits. -/
theorem Equals.add (hx : x.Equals i) (hy : y.Equals j) (hbound : (i + j).natAbs ≤ 2 ^ 53) :
    (x.add y).Equals (i + j) := by
  obtain ⟨s, m, hm, rfl, -, hs⟩ := hx.exists_units
  obtain ⟨t, n, hn, rfl, -, ht⟩ := hy.exists_units
  have hsum : signed s m + signed t n = (i + j) * unitsPerOne := by rw [hs, ht, Int.add_mul]
  have hexact (negative : Bool) (hsign : i + j = 0 ∨ (negative = true ↔ i + j < 0)) :
      (ofUnits negative ((i + j).natAbs * unitsPerOne) 1).Equals (i + j) := by
    have h := equals_ofUnits negative hbound
    rwa [signed_natAbs hsign] at h
  simp only [Number.add, hsum, Int.natAbs_mul, Int.natAbs_natCast]
  by_cases hzero : i + j = 0
  · exact hexact _ (.inl hzero)
  · have hunits : (i + j) * (unitsPerOne : Int) ≠ 0 :=
      Int.mul_ne_zero hzero (Int.natCast_ne_zero.mpr (Nat.ne_of_gt unitsPerOne_pos))
    rw [if_neg hunits]
    exact hexact _ (.inr (by rw [decide_eq_true_iff, mul_unitsPerOne_neg]))

/-- The remainder of whole doubles is exact if the divisor has 53 bits. -/
theorem Equals.rem (hx : x.Equals i) (hy : y.Equals j) (hne : j ≠ 0)
    (hbound : j.natAbs ≤ 2 ^ 53) : (x.rem y).Equals (i.tmod j) := by
  obtain ⟨s, m, hm, rfl, hmunits, hs⟩ := hx.exists_units
  obtain ⟨t, n, hn, rfl, hnunits, -⟩ := hy.exists_units
  have hpos : 0 < j.natAbs := Int.natAbs_pos.mpr hne
  have hnonzero : n ≠ 0 := by
    rw [hnunits]
    exact Nat.mul_ne_zero (Nat.ne_of_gt hpos) (Nat.ne_of_gt unitsPerOne_pos)
  have hunits : m % n = (i.tmod j).natAbs * unitsPerOne := by
    rw [hmunits, hnunits, Nat.mul_mod_mul_right, Int.natAbs_tmod]
  have hsmall : (i.tmod j).natAbs ≤ 2 ^ 53 := by
    have hlt : i.natAbs % j.natAbs < j.natAbs := Nat.mod_lt _ hpos
    rw [Int.natAbs_tmod]
    omega
  have hsign : i.tmod j = 0 ∨ (s = true ↔ i.tmod j < 0) := by
    rcases eq_zero_or_negative_iff hs with rfl | hs
    · exact .inl (Int.zero_tmod j)
    · rw [hs]
      have hnonneg : 0 ≤ i → 0 ≤ i.tmod j := Int.tmod_nonneg j
      have hnonpos : 0 ≤ -i → 0 ≤ (-i).tmod j := Int.tmod_nonneg j
      rw [Int.neg_tmod] at hnonpos
      omega
  have h := equals_ofUnits s hsmall
  rw [signed_natAbs hsign] at h
  simpa only [Number.rem, if_neg hnonzero, hunits] using h

/-- The remainder that is not negative is exact if the divisor has 53 bits. -/
theorem Equals.remEuclid (hx : x.Equals i) (hy : y.Equals j) (hpos : 0 < j) (hbound : j ≤ 2 ^ 53) :
    (x.remEuclid y).Equals (i % j) := by
  have hleft := hx.rem hy (Int.ne_of_gt hpos) (by omega)
  have hlow := Int.emod_nonneg i (Int.ne_of_gt hpos)
  have hhigh := Int.emod_lt_of_pos i hpos
  have hcases : i.tmod j = i % j ∨ i.tmod j = i % j - j := by
    rw [Int.tmod_eq_emod]
    split <;> omega
  unfold Number.remEuclid
  simp only [hleft.compare?_zero_eq_lt]
  by_cases hnegative : i.tmod j < 0
  · have hsum : i.tmod j + (j.natAbs : Int) = i % j := by omega
    rw [if_pos hnegative, ← hsum]
    exact hleft.add hy.abs (by omega)
  · have hsame : i.tmod j = i % j := by omega
    rw [if_neg hnegative, ← hsame]
    exact hleft

/-- A whole double in the range of the words is cut to its word. -/
theorem Equals.saturated (h : x.Equals i) (hlow : 0 ≤ i) (hhigh : i < 2 ^ 32) :
    (x.saturated : Int) = i := by
  obtain ⟨k, rfl⟩ := Int.eq_ofNat_of_zero_le hlow
  have hcount : Nat.pow 2 32 = 2 ^ 32 := rfl
  have hunits : x.rank.toNat = k * unitsPerOne := by
    rw [h.2, ← Int.natCast_mul, Int.toNat_natCast]
  rw [Number.saturated, hunits, wholePart, Nat.mul_div_cancel k unitsPerOne_pos, hcount]
  omega

/-! ## Dropping the part below one -/

/-- What is left of a magnitude without its part below one is the magnitude of a double. -/
theorem representable_wholePart {units : Nat} (h : Representable units) :
    Representable (wholePart units * unitsPerOne) := by
  have hle : wholePart units * unitsPerOne ≤ units := Nat.div_mul_le_self _ _
  have hgrid : gridStep units ∣ wholePart units * unitsPerOne := by
    have hdvd := h.2
    unfold wholePart unitsPerOne
    generalize 1074 = places
    rcases Nat.le_total (units.log2 - 52) places with hfine | hcoarse
    · exact Nat.dvd_trans (Nat.pow_dvd_pow 2 hfine) (Nat.dvd_mul_left _ _)
    · -- the grid has no place below one
      have hwhole : Nat.pow 2 places ∣ units :=
        Nat.dvd_trans (Nat.pow_dvd_pow 2 hcoarse) hdvd
      rwa [Nat.div_mul_cancel hwhole]
  exact ⟨Nat.lt_of_le_of_lt hle h.1, Nat.dvd_trans (gridStep_dvd_gridStep hle) hgrid⟩

/-- Dropping the part below one gives the truncation. -/
theorem equals_dropFraction (h : x.isFinite = true) : x.dropFraction.Equals x.truncate := by
  cases x with
  | nan => cases h
  | infinity => cases h
  | finite negative units hrep =>
    have hwhole := representable_wholePart hrep
    have hexact := nearest_of_dvd Nat.one_pos hwhole.2
    rw [Nat.mul_one] at hexact
    rw [dropFraction, ofRatio, ofUnits_eq hexact hwhole]
    exact ⟨rfl, signed_mul negative _ unitsPerOne⟩

end Number

end Folio
