import Folio.Proofs.Number.Whole

/-!
# Whole numbers without rounding

Whole numbers up to `2 ^ 53` are doubles, so reading one as a double and cutting the double gives it
back. A whole double is read from the whole number that it is equal to, but zero is always positive
then.
-/

namespace Folio

namespace Number

variable {n : Number} {i : Int}

/-- The number, with the positive zero for both zeros. -/
def mergeZero (n : Number) : Number := if n.isZero then .zero else n

/-- A number is numerically equal to itself with the positive zero for both zeros. -/
theorem equal_mergeZero (h : n.isNaN = false) : n.equal n.mergeZero = true := by
  unfold mergeZero
  split
  next hzero =>
    cases n with
    | finite negative units hunits =>
      have hunits : units = 0 := beq_iff_eq.mp hzero
      subst hunits
      cases negative <;> rfl
    | _ => cases hzero
  next => simp [equal, h]

/-- A whole number that is a double is read without rounding; zero is positive. -/
theorem ofInt_eq {units : Nat} (hunits : i.natAbs * unitsPerOne = units) (h : Representable units) :
    ofInt i = .finite (i < 0) units h := by
  have hexact := nearest_of_dvd Nat.one_pos h.2
  rw [Nat.mul_one] at hexact
  unfold ofInt ofRatio
  rw [hunits]
  exact ofUnits_eq hexact h

/-- The ones of 64 bits, and of one bit more, are far from the limit. -/
theorem ones_lt_magnitudeLimit : 2 ^ 65 * unitsPerOne < magnitudeLimit := by decide +kernel

/-- Whole numbers up to `2 ^ 53` are doubles. -/
theorem representable_ones {k : Nat} (h : k ≤ 2 ^ 53) : Representable (k * unitsPerOne) := by
  have hgrid : gridStep (k * unitsPerOne) ∣ k * unitsPerOne := by
    unfold unitsPerOne
    generalize 1074 = places
    exact gridStep_dvd_of_le (by rwa [Nat.pow_eq])
  refine ⟨?_, hgrid⟩
  have hones : k * unitsPerOne ≤ 2 ^ 65 * unitsPerOne :=
    Nat.mul_le_mul_right _ (Nat.le_trans h (by decide))
  exact Nat.lt_of_le_of_lt hones ones_lt_magnitudeLimit

/-- A magnitude with the sign of a number is the number; zero has both signs. -/
theorem signed_natAbs {negative : Bool} (h : i = 0 ∨ (negative = true ↔ i < 0)) :
    signed negative i.natAbs = i := by
  cases negative with
  | false =>
    rw [signed, if_neg (by decide)]
    simp only [Bool.false_eq_true, false_iff] at h
    omega
  | true =>
    rw [signed, if_pos rfl]
    simp only [true_iff] at h
    omega

/-- Whole numbers of ones are not rounded up to `2 ^ 53` ones. -/
theorem equals_ofUnits (negative : Bool) {k : Nat} (h : k ≤ 2 ^ 53) :
    (ofUnits negative (k * unitsPerOne) 1).Equals (signed negative k) := by
  have hrep := representable_ones h
  have hexact := nearest_of_dvd Nat.one_pos hrep.2
  rw [Nat.mul_one] at hexact
  rw [ofUnits_eq hexact hrep]
  exact ⟨rfl, signed_mul negative k unitsPerOne⟩

/-- Natural numbers up to `2 ^ 53` are equal to the doubles that are read from them. -/
theorem equals_ofNat {k : Nat} (h : k ≤ 2 ^ 53) : (ofNat k).Equals k := by
  have hexact := equals_ofUnits false h
  rwa [signed, if_neg (by decide)] at hexact

/-- Whole numbers up to `2 ^ 53` are equal to the doubles that are read from them. -/
theorem equals_ofInt (h : i.natAbs ≤ 2 ^ 53) : (ofInt i).Equals i := by
  have hexact := equals_ofUnits (i < 0) h
  rwa [signed_natAbs (.inr decide_eq_true_iff)] at hexact

/-- A positive magnitude with a sign has the sign. -/
theorem decide_signed_neg (negative : Bool) {k : Nat} (h : 0 < k) :
    decide (signed negative k < 0) = negative := by
  cases negative <;> simp [signed, h]

/-- A whole double is read from the whole number that it is equal to. -/
theorem ofInt_truncate (h : n.isWhole = true) : ofInt n.truncate = n.mergeZero := by
  cases n with
  | nan => cases h
  | infinity => cases h
  | finite negative units hrep =>
    have hwhole : units / unitsPerOne * unitsPerOne = units :=
      Nat.div_mul_cancel (Nat.dvd_of_mod_eq_zero (beq_iff_eq.mp h))
    have hunits : (truncate (.finite negative units hrep)).natAbs * unitsPerOne = units := by
      rw [truncate, natAbs_signed, wholePart, hwhole]
    rw [ofInt_eq hunits hrep, mergeZero]
    split
    next hzero =>
      have hnone : units = 0 := beq_iff_eq.mp hzero
      subst hnone
      have hcut : truncate (.finite negative 0 hrep) = 0 := by
        cases negative <;> simp [truncate, signed, wholePart]
      rw [hcut]
      rfl
    next hzero =>
      have hpos : 0 < units / unitsPerOne := by
        refine Nat.pos_of_ne_zero fun hnone => hzero (beq_iff_eq.mpr ?_)
        rw [← hwhole, hnone, Nat.zero_mul]
      have hsign : decide (truncate (.finite negative units hrep) < 0) = negative :=
        decide_signed_neg negative hpos
      rw [hsign]

/-- Numbers of 64 bits are read as finite doubles. -/
theorem isFinite_ofInt (h : i.natAbs ≤ 2 ^ 64) : (ofInt i).isFinite = true := by
  have hbound : nearest (i.natAbs * unitsPerOne) 1 < magnitudeLimit := by
    refine Nat.lt_of_le_of_lt ?_ ones_lt_magnitudeLimit
    rcases Nat.eq_zero_or_pos i.natAbs with hzero | hpos
    · rw [hzero, Nat.zero_mul]
      exact Nat.zero_le _
    · refine Nat.le_trans (nearest_le_two_mul (Nat.mul_pos hpos unitsPerOne_pos)) ?_
      rw [← Nat.mul_assoc]
      exact Nat.mul_le_mul_right _ (by omega)
  unfold ofInt ofRatio ofUnits
  rw [dif_pos hbound]
  rfl

end Number

end Folio
