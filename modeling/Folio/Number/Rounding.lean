import Folio.Number.Basic

/-!
# Rounding and arithmetic

Every arithmetic result is the exact result, a ratio of whole numbers of units, rounded once to
the nearest double. A tie goes to the neighbour whose place on the grid is even. Rounding is by
whole steps of the grid, and `representable_nearest` says that it ends on a double.
-/

namespace Folio

/-- The whole number nearest to `n / d`; a tie goes to the even one. -/
def roundQuotient (n d : Nat) : Nat :=
  let below := n / d
  let twiceLeft := 2 * (n % d)
  if twiceLeft < d ∨ (twiceLeft = d ∧ below % 2 = 0) then below else below + 1

/-- The magnitude on the grid nearest to `n / d` units; it may reach `magnitudeLimit`. -/
def nearest (n d : Nat) : Nat :=
  let step := gridStep (n / d)
  roundQuotient n (d * step) * step

/-- Rounding a quotient adds at most one to it. -/
theorem roundQuotient_le (n d : Nat) : roundQuotient n d ≤ n / d + 1 := by
  unfold roundQuotient
  simp only
  split <;> omega

/-- A magnitude has fewer than `2 ^ 53` steps of its own grid. -/
theorem div_gridStep_lt (units : Nat) : units / gridStep units < Nat.pow 2 53 := by
  simp only [gridStep, Nat.pow_eq]
  rw [Nat.div_lt_iff_lt_mul (Nat.two_pow_pos _), ← Nat.pow_add]
  exact Nat.lt_of_lt_of_le Nat.lt_log2_self (Nat.pow_le_pow_right (by decide) (by omega))

/-- A whole number of at most `2 ^ 53` steps of `2 ^ k` lies on its own grid. -/
theorem gridStep_dvd_of_le {m k : Nat} (hm : m ≤ Nat.pow 2 53) :
    gridStep (m * Nat.pow 2 k) ∣ m * Nat.pow 2 k := by
  rw [Nat.pow_eq] at hm
  simp only [gridStep, Nat.pow_eq]
  by_cases hzero : m = 0
  · simp [hzero]
  rcases Nat.lt_or_eq_of_le hm with hlt | heq
  · have hlog : (m * 2 ^ k).log2 < 53 + k := by
      rw [Nat.log2_lt (Nat.mul_ne_zero hzero (Nat.ne_of_gt (Nat.two_pow_pos k))), Nat.pow_add]
      exact Nat.mul_lt_mul_of_pos_right hlt (Nat.two_pow_pos k)
    exact Nat.dvd_trans (Nat.pow_dvd_pow 2 (by omega)) (Nat.dvd_mul_left _ _)
  · subst heq
    rw [← Nat.pow_add, Nat.log2_two_pow]
    exact Nat.pow_dvd_pow 2 (by omega)

/-- Rounding ends on the grid. -/
theorem gridStep_nearest_dvd (n d : Nat) : gridStep (nearest n d) ∣ nearest n d := by
  apply gridStep_dvd_of_le
  refine Nat.le_trans (roundQuotient_le _ _) ?_
  rw [← Nat.div_div_eq_div_mul]
  exact div_gridStep_lt _

/-- A rounded magnitude below the limit is a double's. -/
theorem representable_nearest {n d : Nat} (h : nearest n d < magnitudeLimit) :
    Representable (nearest n d) :=
  ⟨h, gridStep_nearest_dvd n d⟩

namespace Number

/-- The double nearest to `n / d` units with the given sign, infinite from `magnitudeLimit` on. -/
def ofUnits (negative : Bool) (n d : Nat) : Number :=
  if h : nearest n d < magnitudeLimit then .finite negative (nearest n d) (representable_nearest h)
  else .infinity negative

/-- The double nearest to a ratio of whole numbers with the given sign. -/
def ofRatio (negative : Bool) (n d : Nat) : Number := ofUnits negative (n * unitsPerOne) d

/-- The double nearest to a whole number; zero is positive. -/
def ofInt (i : Int) : Number := ofRatio (i < 0) i.natAbs 1

/-- The double nearest to a natural number. -/
def ofNat (n : Nat) : Number := ofRatio false n 1

/-- Sum. Opposite infinities have none; a zero sum is negative only if both terms are. -/
def add : Number → Number → Number
  | .nan, _ => .nan
  | _, .nan => .nan
  | .infinity s, .infinity t => if s == t then .infinity s else .nan
  | .infinity s, .finite .. => .infinity s
  | .finite .., .infinity t => .infinity t
  | .finite s m _, .finite t n _ =>
    let sum := signed s m + signed t n
    ofUnits (if sum = 0 then s && t else sum < 0) sum.natAbs 1

/-- Difference. -/
def sub (x y : Number) : Number := x.add y.neg

/-- Product. Zero times infinity has none. -/
def mul : Number → Number → Number
  | .nan, _ => .nan
  | _, .nan => .nan
  | .infinity s, .infinity t => .infinity (s != t)
  | .infinity s, .finite t n _ => if n = 0 then .nan else .infinity (s != t)
  | .finite s m _, .infinity t => if m = 0 then .nan else .infinity (s != t)
  | .finite s m _, .finite t n _ => ofUnits (s != t) (m * n) unitsPerOne

/-- Quotient. A nonzero number over zero is infinite; zero over zero has none. -/
def div : Number → Number → Number
  | .nan, _ => .nan
  | _, .nan => .nan
  | .infinity _, .infinity _ => .nan
  | .infinity s, .finite t _ _ => .infinity (s != t)
  | .finite s _ _, .infinity t => signedZero (s != t)
  | .finite s m _, .finite t n _ =>
    if n = 0 then (if m = 0 then .nan else .infinity (s != t))
    else ofRatio (s != t) m n

/-- Remainder of the division that truncates; it has the sign of the dividend. -/
def rem : Number → Number → Number
  | .nan, _ => .nan
  | _, .nan => .nan
  | .infinity _, _ => .nan
  | .finite s m h, .infinity _ => .finite s m h
  | .finite s m _, .finite _ n _ => if n = 0 then .nan else ofUnits s (m % n) 1

/-- The magnitude in whole ones, without the part below one. -/
def wholePart (units : Nat) : Nat := units / unitsPerOne

/-- The whole number reached by dropping the part below one; zero if there is none. -/
def truncate : Number → Int
  | .finite negative units _ => signed negative (wholePart units)
  | _ => 0

/-- Whether the number is a whole number of ones. -/
def isWhole : Number → Bool
  | .finite _ units _ => units % unitsPerOne == 0
  | _ => false

/-- The nearest whole number away from zero. -/
def awayFromZero (units : Nat) : Nat := (units + (unitsPerOne - 1)) / unitsPerOne

/-- The greatest whole number that is not above; a zero keeps its sign. -/
def floor : Number → Number
  | .finite negative units _ =>
    ofRatio negative (if negative then awayFromZero units else wholePart units) 1
  | x => x

/-- The least whole number that is not below; a zero keeps its sign. -/
def ceiling : Number → Number
  | .finite negative units _ =>
    ofRatio negative (if negative then wholePart units else awayFromZero units) 1
  | x => x

end Number

end Folio
