import Folio.Json.NumberValue
import Folio.Proofs.Number.Shortest

/-!
# Scaling by small powers of ten

Up to `10 ^ 22` the powers of ten are doubles. Where the digits of a decimal are a double as well,
one product or one quotient of doubles gives the double nearest to the decimal.
-/

namespace Folio

namespace Number

/-- The greatest exponent of a power of ten that is a double without rounding. -/
def exactPower : Nat := 22

/-- A ratio whose nearest magnitude is a double's is read as that double. -/
theorem ofUnits_eq {negative : Bool} {n d units : Nat} (h : nearest n d = units)
    (hrep : Representable units) : ofUnits negative n d = .finite negative units hrep := by
  subst h
  rw [ofUnits, dif_pos hrep.1]

/-- A whole number that is a double is read without rounding. -/
theorem ofNat_eq {n : Nat} (h : Representable (n * unitsPerOne)) :
    ofNat n = .finite false (n * unitsPerOne) h := by
  have hexact := nearest_of_dvd Nat.one_pos h.2
  rw [Nat.mul_one] at hexact
  unfold ofNat ofRatio
  exact ofUnits_eq hexact h

/-- One has at least one unit. -/
theorem unitsPerOne_pos : 0 < unitsPerOne := by
  unfold unitsPerOne
  generalize 1074 = places
  exact Nat.two_pow_pos places

/-- Small powers of ten are doubles. -/
theorem representable_power {k : Nat} (h : k ≤ exactPower) :
    Representable (Nat.pow 10 k * unitsPerOne) := by
  have hall : ∀ i : Fin (exactPower + 1), Representable (Nat.pow 10 i * unitsPerOne) := by
    decide +kernel
  exact hall ⟨k, Nat.lt_succ_of_le h⟩

/-- A product of whole numbers that are doubles is rounded once. -/
theorem mul_ofNat {a b units : Nat} (ha : Representable (a * unitsPerOne))
    (hb : Representable (b * unitsPerOne)) (hrep : Representable units)
    (h : nearest (a * b * unitsPerOne) 1 = units) :
    (ofNat a).mul (ofNat b) = .finite false units hrep := by
  have hproduct : a * unitsPerOne * (b * unitsPerOne) = a * b * unitsPerOne * unitsPerOne := by
    rw [Nat.mul_mul_mul_comm, Nat.mul_assoc (a * b)]
  have hnearest : nearest (a * unitsPerOne * (b * unitsPerOne)) unitsPerOne = units := by
    have hfactor := nearest_mul unitsPerOne_pos (a * b * unitsPerOne) 1
    rw [Nat.one_mul, h] at hfactor
    rw [hproduct, hfactor]
  rw [ofNat_eq ha, ofNat_eq hb]
  exact ofUnits_eq hnearest hrep

/-- A quotient of whole numbers that are doubles is rounded once. -/
theorem div_ofNat {a b units : Nat} (ha : Representable (a * unitsPerOne))
    (hb : Representable (b * unitsPerOne)) (hpos : 0 < b) (hrep : Representable units)
    (h : nearest (a * unitsPerOne) b = units) :
    (ofNat a).div (ofNat b) = .finite false units hrep := by
  have hquotient : nearest (a * unitsPerOne * unitsPerOne) (b * unitsPerOne) = units := by
    rw [nearest_mul unitsPerOne_pos, h]
  rw [ofNat_eq ha, ofNat_eq hb]
  simp only [div, if_neg (Nat.ne_of_gt (Nat.mul_pos hpos unitsPerOne_pos))]
  exact ofUnits_eq hquotient hrep

/-- **Scaling.** Digits that are a double, scaled by a small power of ten, give the double nearest to
the decimal. -/
theorem scale?_ofNat {d : Decimal} {units : Nat} (hdigits : Representable (d.digits * unitsPerOne))
    (hlow : -(exactPower : Int) ≤ d.exponent) (hhigh : d.exponent ≤ exactPower)
    (hrep : Representable units) (h : d.roundedUnits = units) :
    (ofNat d.digits).scale? d.exponent = some (.finite false units hrep) := by
  have hexact : exactPower = 22 := rfl
  have hgreatest : greatestPower = 308 := rfl
  unfold Decimal.roundedUnits Decimal.power at h
  unfold scale?
  rw [if_neg (by omega)]
  by_cases hsign : 0 ≤ d.exponent
  · rw [if_pos hsign] at h ⊢
    have hpower := representable_power (show d.exponent.toNat ≤ exactPower by omega)
    rw [powerOfTen, mul_ofNat hdigits hpower hrep h]
    rfl
  · rw [if_neg hsign, if_pos (by omega)]
    rw [if_neg hsign] at h
    simp only [Nat.mul_one] at h
    have hpower := representable_power (show (-d.exponent).toNat ≤ exactPower by omega)
    have hten : 0 < Nat.pow 10 (-d.exponent).toNat := Nat.pow_pos (by decide)
    rw [powerOfTen, div_ofNat hdigits hpower hten hrep h]

end Number

end Folio
