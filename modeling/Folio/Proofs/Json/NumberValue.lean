import Folio.Proofs.Json.NumberText
import Folio.Proofs.Number.Scaling

/-!
# Values of written numbers

The reader of numbers takes the digits as one whole number and scales it by one power of ten. It
hits the double that was written if both are doubles themselves: if the digits, as they are written,
are one, and the power of ten is small. This holds of numbers with up to fifteen digits that are
neither huge nor tiny.
-/

namespace Folio

namespace Json.NumberText

/-- Digits that fit 64 bits are taken as a whole. -/
theorem leading_eq {digits : List Char} {value : Nat} (count : Nat)
    (h : Nat.ofDigitChars 10 digits value < UInt64.size) :
    leading value count digits = (Nat.ofDigitChars 10 digits value, count + digits.length) := by
  induction digits generalizing value count with
  | nil => simp [leading]
  | cons c rest ih =>
    rw [Nat.ofDigitChars_cons] at h ⊢
    have hfits : 10 * value + (c.toNat - '0'.toNat) < UInt64.size := by
      rw [Nat.ofDigitChars_eq_ofDigitChars_zero] at h
      have hten : 1 ≤ 10 ^ rest.length := Nat.one_le_pow _ _ (by decide)
      have hmul := Nat.mul_le_mul_right (10 * value + (c.toNat - '0'.toNat)) hten
      omega
    rw [leading]
    simp only [if_pos hfits, ih (count + 1) h, List.length_cons, Prod.mk.injEq, true_and]
    omega

/-- A written number whose digits fit 64 bits is its decimal scaled, with its sign. -/
theorem number?_eq {n : NumberText} (h : n.decimal.digits < UInt64.size) :
    n.number? = ((Number.ofNat n.decimal.digits).scale? n.decimal.exponent).map fun x =>
      if n.negative then x.neg else x := by
  have hleading : leading 0 0 (n.whole ++ n.fraction) =
      (n.decimal.digits, 0 + (n.whole ++ n.fraction).length) := leading_eq 0 h
  have hexponent : n.exponent.getD 0 + n.whole.length -
      ((0 + (n.whole ++ n.fraction).length : Nat) : Int) = n.decimal.exponent := by
    simp only [decimal, List.length_append]
    omega
  unfold number?
  rw [hleading]
  simp only [hexponent]

end Json.NumberText

/-- A whole decimal with its point at a place is below that power of ten. -/
theorem Decimal.mul_pow_lt {d : Decimal} {places : Nat} (hsign : 0 ≤ d.exponent)
    (hplace : d.pointPlace ≤ places) : d.digits * 10 ^ d.exponent.toNat < 10 ^ places := by
  have hlength : (Decimal.digitChars d.digits).length + d.exponent = d.pointPlace := rfl
  have hdigits : d.digits < 10 ^ (Decimal.digitChars d.digits).length :=
    (Nat.length_toDigits_le_iff (by decide) Nat.length_toDigits_pos).mp (Nat.le_refl _)
  calc d.digits * 10 ^ d.exponent.toNat
      < 10 ^ (Decimal.digitChars d.digits).length * 10 ^ d.exponent.toNat :=
        Nat.mul_lt_mul_of_pos_right hdigits (Nat.pow_pos (by decide))
    _ = 10 ^ ((Decimal.digitChars d.digits).length + d.exponent.toNat) := (Nat.pow_add ..).symm
    _ ≤ 10 ^ places := Nat.pow_le_pow_right (by decide) (by omega)

namespace Number

/-- Whether the digits that a number is written by are a double that fits 64 bits, and their power
of ten is a small one. -/
def writtenExactly : Number → Bool
  | .finite _ units _ =>
    let d := writtenDecimal units
    decide (Representable (d.digits * unitsPerOne)) && d.digits < UInt64.size &&
      -(exactPower : Int) ≤ d.exponent && d.exponent ≤ exactPower
  | _ => false

/-- The decimal with tenths is rounded as the one without. -/
theorem roundedUnits_withTenths (d : Decimal) : d.withTenths.roundedUnits = d.roundedUnits := by
  unfold Decimal.withTenths
  split
  next h =>
    have hten : Decimal.power (-1) = (1, 10) := rfl
    have hpower : Decimal.power d.exponent = (10 ^ d.exponent.toNat, 1) := by
      rw [Decimal.power, if_pos h.2, Nat.pow_eq]
    have hdigits : d.digits * 10 ^ (d.exponent.toNat + 1) * 1 * unitsPerOne =
        d.digits * 10 ^ d.exponent.toNat * unitsPerOne * 10 := by
      rw [Nat.mul_one, Nat.pow_succ, ← Nat.mul_assoc, Nat.mul_right_comm]
    unfold Decimal.roundedUnits
    simp only [hten, hpower, hdigits]
    have hfactor := nearest_mul (show 0 < 10 by decide)
      (d.digits * 10 ^ d.exponent.toNat * unitsPerOne) 1
    rwa [Nat.one_mul] at hfactor
  next => rfl

/-- The digits that a magnitude is written by are rounded to it. -/
theorem roundedUnits_writtenDecimal {units : Nat} (hgrid : gridStep units ∣ units) :
    (writtenDecimal units).roundedUnits = units := by
  unfold writtenDecimal
  split
  next hzero =>
    rw [hzero]
    decide +kernel
  next hzero =>
    have hshortest := roundedUnits_shortest .toEven (Nat.pos_of_ne_zero hzero) hgrid
    simp only
    split
    · rw [roundedUnits_withTenths, hshortest]
    · exact hshortest

/-- **Numbers that read back.** A number that is written exactly is read as itself. -/
theorem number?_json_of_writtenExactly {x : Number} (h : x.writtenExactly = true) :
    (Json.NumberText.ofChars? x.json.toList).bind Json.NumberText.number? = some x := by
  cases x with
  | nan => cases h
  | infinity => cases h
  | finite negative units hunits =>
    simp only [writtenExactly, Bool.and_eq_true, decide_eq_true_eq] at h
    obtain ⟨⟨⟨hdigits, hfits⟩, hlow⟩, hhigh⟩ := h
    obtain ⟨n, hn, hsign, hdecimal⟩ := Json.NumberText.ofChars?_finite negative hunits
    have hscaled := scale?_ofNat hdigits hlow hhigh hunits (roundedUnits_writtenDecimal hunits.2)
    rw [hn, Option.bind_some, Json.NumberText.number?_eq (hdecimal ▸ hfits), hdecimal, hscaled,
      hsign]
    cases negative <;> rfl

/-- A whole number with at most 53 binary digits, or twice one, is a double. -/
theorem representable_of_le {m j : Nat} (hm : m ≤ 2 ^ 53) (hj : j ≤ 1) :
    Representable (m * 2 ^ j * unitsPerOne) := by
  have hlimit : Representable (2 ^ 54 * unitsPerOne) := by decide +kernel
  constructor
  · have htwice : m * 2 ^ j ≤ 2 ^ 54 :=
      Nat.le_trans (Nat.mul_le_mul hm (Nat.pow_le_pow_right (by decide) hj)) (by decide)
    exact Nat.lt_of_le_of_lt (Nat.mul_le_mul_right unitsPerOne htwice) hlimit.1
  · unfold unitsPerOne
    generalize 1074 = places
    have hgrid := gridStep_dvd_of_le (k := j + places) (show m ≤ Nat.pow 2 53 from hm)
    rw [Nat.pow_eq, Nat.pow_add, ← Nat.mul_assoc] at hgrid
    exact hgrid

/-- Whether the shortest decimal of a number has at most fifteen digits and a small power of ten,
and is no whole number of sixteen places. -/
def isShort : Number → Bool
  | .finite _ units _ =>
    let d := shortest .toEven units
    d.digits < 10 ^ 15 && -(exactPower : Int) ≤ d.exponent && d.exponent ≤ exactPower &&
      (d.exponent < 0 || d.pointPlace != 16)
  | _ => false

/-- **Numbers of fifteen digits.** A short number is written exactly. A whole number of sixteen
places is written with a zero more, which may be one digit too many for a double. -/
theorem writtenExactly_of_isShort {x : Number} (h : x.isShort = true) :
    x.writtenExactly = true := by
  cases x with
  | nan => cases h
  | infinity => cases h
  | finite negative units hunits =>
  simp only [isShort, Bool.and_eq_true, Bool.or_eq_true, decide_eq_true_eq, bne_iff_ne] at h
  obtain ⟨⟨⟨hdigits, hlow⟩, hhigh⟩, hplace⟩ := h
  have hexact : exactPower = 22 := rfl
  have hsize : UInt64.size = 2 ^ 64 := rfl
  have hfits {m : Nat} (hm : m < 10 ^ 15) : Representable (m * unitsPerOne) := by
    simpa using representable_of_le (m := m) (j := 0) (by omega) (by decide)
  simp only [writtenExactly, Bool.and_eq_true, decide_eq_true_eq]
  unfold writtenDecimal
  split
  · exact ⟨⟨⟨hfits (by decide), by decide⟩, by decide⟩, by decide⟩
  simp only
  split
  next hrange =>
    unfold Decimal.withTenths
    split
    next hwhole =>
      -- a point and a zero follow the digits of a whole number
      have hvalue : (shortest .toEven units).digits * 10 ^ (shortest .toEven units).exponent.toNat <
          10 ^ 15 := Decimal.mul_pow_lt hwhole.2 (by omega)
      have htenths : (shortest .toEven units).digits *
          10 ^ ((shortest .toEven units).exponent.toNat + 1) = (shortest .toEven units).digits *
            10 ^ (shortest .toEven units).exponent.toNat * 5 * 2 ^ 1 := by
        rw [Nat.pow_succ, ← Nat.mul_assoc]
        omega
      simp only [htenths]
      exact ⟨⟨⟨representable_of_le (by omega) (by decide), by omega⟩, by omega⟩, by omega⟩
    next => exact ⟨⟨⟨hfits hdigits, by omega⟩, hlow⟩, hhigh⟩
  next => exact ⟨⟨⟨hfits hdigits, by omega⟩, hlow⟩, hhigh⟩

end Number

end Folio
