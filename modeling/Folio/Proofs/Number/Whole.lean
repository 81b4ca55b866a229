import Folio.Number.Numeral
import Folio.Proofs.Number.Scaling
import Folio.Proofs.Text.Numeral

/-!
# Whole numbers among the doubles

A double is whole if it is equal to a whole number. Whole numbers are rounded to whole doubles, so
the shortest decimal of a double with a part below one has a part below one as well, and its plain
text has a point. Where the plain text is a numeral, it stands for a number that is not much smaller
than the double.
-/

namespace Folio

namespace Number

variable {n : Number} {i j : Int}

/-- The magnitude of a whole number with a sign. -/
theorem natAbs_signed (negative : Bool) (k : Nat) : (signed negative k).natAbs = k := by
  cases negative <;> simp [signed]

/-- A sign goes over to a product with a magnitude. -/
theorem signed_mul (negative : Bool) (k one : Nat) :
    signed negative (k * one) = signed negative k * one := by
  cases negative <;> simp [signed]

/-- The number is equal to a whole number. Zero of either sign is equal to zero. -/
def Equals (n : Number) (i : Int) : Prop := n.isFinite = true ∧ n.rank = i * unitsPerOne

/-- A number is equal to at most one whole number. -/
theorem Equals.unique (hi : n.Equals i) (hj : n.Equals j) : i = j := by
  have hunits : (unitsPerOne : Int) ≠ 0 := by
    have hpos := unitsPerOne_pos
    omega
  exact Int.eq_of_mul_eq_mul_right hunits (hi.2.symm.trans hj.2)

/-- A number is equal to a whole number if it has no part below one and is cut to that number. -/
theorem equals_iff : n.Equals i ↔ n.isWhole = true ∧ n.truncate = i := by
  cases n with
  | nan => exact iff_of_false (fun h => nomatch h.1) (fun h => nomatch h.1)
  | infinity => exact iff_of_false (fun h => nomatch h.1) (fun h => nomatch h.1)
  | finite negative units hunits =>
    have hpos := unitsPerOne_pos
    simp only [Equals, isFinite, rank, isWhole, truncate, wholePart, beq_iff_eq, true_and]
    generalize unitsPerOne = one at hpos ⊢
    constructor
    · intro h
      have hmul : units = i.natAbs * one := by
        have hnat := congrArg Int.natAbs h
        rwa [natAbs_signed, Int.natAbs_mul, Int.natAbs_natCast] at hnat
      refine ⟨by rw [hmul, Nat.mul_mod_left], ?_⟩
      rw [hmul, signed_mul] at h
      rw [hmul, Nat.mul_div_cancel _ hpos]
      exact Int.eq_of_mul_eq_mul_right (by omega) h
    · rintro ⟨hmod, rfl⟩
      rw [← signed_mul, Nat.div_mul_cancel (Nat.dvd_of_mod_eq_zero hmod)]

end Number

/-! ## Rounding whole numbers -/

/-- A rounded magnitude is at most twice the magnitude. -/
theorem nearest_le_two_mul {units : Nat} (h : 0 < units) : nearest units 1 ≤ 2 * units := by
  have hstep : 0 < gridStep units := Nat.two_pow_pos _
  have hround : nearest units 1 ≤ (units / gridStep units + 1) * gridStep units := by
    unfold nearest
    simp only [Nat.div_one, Nat.one_mul]
    exact Nat.mul_le_mul_right _ (roundQuotient_le _ _)
  have hdown : units / gridStep units * gridStep units ≤ units := Nat.div_mul_le_self _ _
  rw [Nat.add_mul, Nat.one_mul] at hround
  have hle := gridStep_le h
  omega

/-- A whole number is rounded to a whole number. -/
theorem unitsPerOne_dvd_nearest (k : Nat) : unitsPerOne ∣ nearest (k * unitsPerOne) 1 := by
  unfold unitsPerOne
  generalize 1074 = places
  rw [Nat.pow_eq]
  rcases Nat.le_total ((k * 2 ^ places).log2 - 52) places with hfine | hcoarse
  · -- the number lies on its own grid
    have hgrid : gridStep (k * 2 ^ places) ∣ k * 2 ^ places :=
      Nat.dvd_trans (Nat.pow_dvd_pow 2 hfine) (Nat.dvd_mul_left _ _)
    have hexact := nearest_of_dvd Nat.one_pos hgrid
    rw [Nat.mul_one] at hexact
    rw [hexact]
    exact Nat.dvd_mul_left _ _
  · have hstep : 2 ^ places ∣ gridStep (k * 2 ^ places) := Nat.pow_dvd_pow 2 hcoarse
    unfold nearest
    simp only [Nat.div_one]
    exact Nat.dvd_trans hstep (Nat.dvd_mul_left _ _)

namespace Decimal

/-! ## Positional notation -/

/-- A decimal with a negative exponent has a point. -/
theorem point_mem_positional {d : Decimal} (h : d.exponent < 0) : '.' ∈ d.positional [] := by
  unfold positional
  simp only
  split
  · simp
  · rw [if_neg (by omega)]
    simp

/-- A decimal that is a whole number is written with the digits of that number. -/
theorem positional_of_exponent_nonneg {d : Decimal} (hdigits : 0 < d.digits)
    (h : 0 ≤ d.exponent) : d.positional [] = digitChars (d.digits * 10 ^ d.exponent.toNat) := by
  have hplace : 0 < d.pointPlace := by
    have hlength : 0 < (digitChars d.digits).length := Nat.length_toDigits_pos
    unfold pointPlace
    omega
  unfold positional
  simp only
  rw [if_neg (by omega), if_pos h, List.append_nil, zeros, digitChars,
    toDigits_append hdigits (fun c hc => by rw [List.eq_of_mem_replicate hc]; rfl),
    Nat.ofDigitChars_replicate_zero, Nat.mul_comm]
  rfl

end Decimal

namespace Number

/-- The plain text of a nonzero magnitude has a point, or it is the text of a natural number of at
least half the magnitude, and the magnitude is a whole number. -/
theorem positional_shortest {units : Nat} (hpos : 0 < units) (hgrid : gridStep units ∣ units) :
    '.' ∈ (shortest .up units).positional [] ∨ ∃ k,
      (shortest .up units).positional [] = Decimal.digitChars k ∧ unitsPerOne ∣ units ∧
        units ≤ 2 * (k * unitsPerOne) := by
  have hround := roundedUnits_shortest .up hpos hgrid
  have hdigits := shortest_digits_pos .up hpos
  generalize shortest .up units = d at hround hdigits ⊢
  rcases Int.lt_or_le d.exponent 0 with hnegative | hnonneg
  · exact .inl (Decimal.point_mem_positional hnegative)
  · have hpower : Decimal.power d.exponent = (10 ^ d.exponent.toNat, 1) := by
      rw [Decimal.power, if_pos hnonneg, Nat.pow_eq]
    rw [Decimal.roundedUnits, hpower] at hround
    simp only at hround
    refine .inr ⟨_, Decimal.positional_of_exponent_nonneg hdigits hnonneg, ?_, ?_⟩
    · rw [← hround]
      exact unitsPerOne_dvd_nearest _
    · rw [← hround]
      exact nearest_le_two_mul
        (Nat.mul_pos (Nat.mul_pos hdigits (Nat.pow_pos (by decide))) unitsPerOne_pos)

/-- A text with a character that is no digit and no minus sign is no numeral. -/
theorem not_isNumeral_of_mem {text : String} {i : Int} {c : Char} (hc : c ∈ text.toList)
    (hminus : c ≠ '-') (hdigit : c.isDigit = false) : ¬ IsNumeral text i := by
  intro h
  rcases h.isDigit_or_minus hc with heq | hisDigit
  · exact hminus heq
  · rw [hdigit] at hisDigit
    cases hisDigit

/-- The digits of a positive number after its sign are a numeral. -/
theorem isNumeral_withSign (negative : Bool) {k : Nat} (h : 0 < k) :
    IsNumeral (withSign negative (Decimal.digitChars k)) (signed negative k) := by
  refine ⟨Decimal.digitChars k, numeralDigits_iff.mpr (by rw [natAbs_signed]), ?_⟩
  rw [withSign, String.toList_ofList]
  cases negative with
  | true =>
    have hsign : signed true k < 0 := by simp [signed, h]
    rw [if_pos hsign, if_pos rfl]
  | false =>
    have hsign : ¬ signed false k < 0 := by simp [signed]
    rw [if_neg hsign, if_neg (by decide)]

/-- **Plain numerals.** If the plain text of a number is a numeral, the number is whole, and at most
twice as large as what the numeral stands for. -/
theorem isWhole_of_isNumeral_plain {n : Number} {i : Int} (h : IsNumeral n.plain i) :
    n.isWhole = true ∧ n.truncate.natAbs ≤ 2 * i.natAbs := by
  cases n with
  | nan => exact absurd h (not_isNumeral_of_mem (c := 'N') (by decide) (by decide) (by decide))
  | infinity negative =>
    refine absurd h (not_isNumeral_of_mem (c := 'i') ?_ (by decide) (by decide))
    cases negative <;> decide
  | finite negative units hunits =>
    simp only [isWhole, truncate, wholePart, natAbs_signed, beq_iff_eq]
    rcases Nat.eq_zero_or_pos units with rfl | hpos
    · simp
    rw [plain, if_neg (Nat.ne_of_gt hpos)] at h
    rcases positional_shortest hpos hunits.2 with hpoint | ⟨k, htext, hwhole, hle⟩
    · refine absurd h (not_isNumeral_of_mem (c := '.') ?_ (by decide) (by decide))
      rw [withSign, String.toList_ofList]
      split
      · exact List.mem_cons_of_mem _ hpoint
      · exact hpoint
    · have hk : 0 < k := by
        refine Nat.pos_of_ne_zero fun hzero => ?_
        rw [hzero, Nat.zero_mul] at hle
        omega
      rw [htext] at h
      rw [h.unique (isNumeral_withSign negative hk), natAbs_signed]
      refine ⟨Nat.mod_eq_zero_of_dvd hwhole, Nat.div_le_of_le_mul ?_⟩
      rwa [Nat.mul_comm, Nat.mul_assoc]

end Number

end Folio
