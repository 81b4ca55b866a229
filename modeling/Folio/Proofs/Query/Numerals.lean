import Folio.Proofs.Json.NumberText
import Folio.Proofs.Number.Scaling
import Folio.Query.Scan

/-!
# Number literals

A finite number without a sign is written plainly by digits, perhaps with a point among them. The
scanner takes them as one decimal, which is rounded to the number again; its leading digit lies well
within the places that the reader of decimals looks at.
-/

namespace Folio

/-! ## Decimals in range -/

/-- A rounded ratio is at least half of the ratio. -/
theorem le_two_mul_nearest (n d : Nat) : n / d ≤ 2 * nearest n d := by
  have hquotient : n / (d * gridStep (n / d)) = n / d / gridStep (n / d) :=
    (Nat.div_div_eq_div_mul ..).symm
  have hround : n / d / gridStep (n / d) * gridStep (n / d) ≤ nearest n d := by
    refine Nat.mul_le_mul_right _ ?_
    rw [← hquotient]
    unfold roundQuotient
    simp only
    split <;> omega
  rcases Nat.eq_zero_or_pos (n / d) with hzero | hpos
  · omega
  · have hstep := gridStep_le hpos
    have hs : 0 < gridStep (n / d) := Nat.two_pow_pos _
    have hone : gridStep (n / d) ≤ n / d / gridStep (n / d) * gridStep (n / d) :=
      Nat.le_mul_of_pos_left _ (Nat.div_pos hstep hs)
    have hsplit := Nat.div_add_mod' (n / d) (gridStep (n / d))
    have hmod := Nat.mod_lt (n / d) hs
    omega

/-- Less than half a unit is rounded to zero. -/
theorem nearest_eq_zero {n d : Nat} (h : 2 * n < d) : nearest n d = 0 := by
  have hzero : n / d = 0 := Nat.div_eq_of_lt (by omega)
  have hstep : gridStep 0 = 1 := by decide
  have hmod : n % d = n := Nat.mod_eq_of_lt (by omega)
  simp [nearest, roundQuotient, hzero, hstep, hmod, h]

namespace Decimal

/-- The digits of a decimal other than zero are as many as their number needs. -/
theorem digits_spec {d : Decimal} (h : 0 < d.digits) : ∃ places : Nat,
    d.pointPlace = places + 1 + d.exponent ∧ 10 ^ places ≤ d.digits ∧
      d.digits < 10 ^ (places + 1) := by
  obtain ⟨places, hplaces⟩ : ∃ places, (digitChars d.digits).length = places + 1 :=
    Nat.exists_eq_add_one.mpr Nat.length_toDigits_pos
  refine ⟨places, by rw [pointPlace, hplaces]; rfl, ?_, ?_⟩
  · cases places with
    | zero => exact h
    | succ places =>
      refine Nat.le_of_not_lt fun hlt => ?_
      have hlength : (digitChars d.digits).length ≤ places + 1 :=
        (Nat.length_toDigits_le_iff (by decide) (Nat.succ_pos places)).mpr hlt
      omega
  · exact (Nat.length_toDigits_le_iff (by decide) (Nat.succ_pos places)).mp (Nat.le_of_eq hplaces)

/-- A decimal from a large power of ten on is rounded to a magnitude that is no double's. -/
theorem magnitudeLimit_le_of_pointPlace {d : Decimal} {power : Nat} (hdigits : 0 < d.digits)
    (hpower : 2 * magnitudeLimit ≤ 10 ^ power * unitsPerOne) (h : power < d.pointPlace) :
    magnitudeLimit ≤ d.roundedUnits := by
  obtain ⟨places, hplace, hlow, -⟩ := digits_spec hdigits
  have hdown := (Decimal.power_pos d.exponent).2
  have hvalue : 10 ^ power * (Decimal.power d.exponent).2 ≤
      d.digits * (Decimal.power d.exponent).1 := by
    by_cases hsign : d.exponent < 0
    · obtain ⟨e, he⟩ : ∃ e : Nat, d.exponent = -e := ⟨(-d.exponent).toNat, by omega⟩
      rw [he, power_neg (by omega), Nat.mul_one, Nat.pow_eq, ← Nat.pow_add]
      exact Nat.le_trans (Nat.pow_le_pow_right (by decide) (by omega)) hlow
    · obtain ⟨e, he⟩ : ∃ e : Nat, d.exponent = e := ⟨d.exponent.toNat, by omega⟩
      have hten : Decimal.power d.exponent = (10 ^ e, 1) := by
        rw [Decimal.power, if_pos (by omega), he, Int.toNat_natCast, Nat.pow_eq]
      rw [hten, Nat.mul_one]
      calc 10 ^ power ≤ 10 ^ (places + e) := Nat.pow_le_pow_right (by decide) (by omega)
        _ = 10 ^ places * 10 ^ e := Nat.pow_add ..
        _ ≤ d.digits * 10 ^ e := Nat.mul_le_mul_right _ hlow
  have hratio : 2 * magnitudeLimit ≤
      d.digits * (Decimal.power d.exponent).1 * unitsPerOne / (Decimal.power d.exponent).2 := by
    rw [Nat.le_div_iff_mul_le hdown]
    calc 2 * magnitudeLimit * (Decimal.power d.exponent).2
        ≤ 10 ^ power * unitsPerOne * (Decimal.power d.exponent).2 := Nat.mul_le_mul_right _ hpower
      _ = 10 ^ power * (Decimal.power d.exponent).2 * unitsPerOne := Nat.mul_right_comm ..
      _ ≤ d.digits * (Decimal.power d.exponent).1 * unitsPerOne := Nat.mul_le_mul_right _ hvalue
  have hround := Nat.le_trans hratio (le_two_mul_nearest _ _)
  rw [roundedUnits]
  omega

/-- A decimal below a small power of ten is rounded to zero. -/
theorem roundedUnits_eq_zero_of_pointPlace {d : Decimal} {power : Nat} (hdigits : 0 < d.digits)
    (hpower : 2 * unitsPerOne < 10 ^ power) (h : d.pointPlace < -(power : Int)) :
    d.roundedUnits = 0 := by
  obtain ⟨places, hplace, -, hhigh⟩ := digits_spec hdigits
  obtain ⟨e, he⟩ : ∃ e : Nat, d.exponent = -e := ⟨(-d.exponent).toNat, by omega⟩
  rw [roundedUnits, he, power_neg (by omega)]
  refine nearest_eq_zero ?_
  calc 2 * (d.digits * 1 * unitsPerOne) = d.digits * (2 * unitsPerOne) := by
        rw [Nat.mul_one, Nat.mul_left_comm]
    _ ≤ 10 ^ (places + 1) * (2 * unitsPerOne) := Nat.mul_le_mul_right _ (Nat.le_of_lt hhigh)
    _ < 10 ^ (places + 1) * 10 ^ power :=
      Nat.mul_lt_mul_of_pos_left hpower (Nat.pow_pos (by decide))
    _ = 10 ^ (places + 1 + power) := (Nat.pow_add ..).symm
    _ ≤ 10 ^ e := Nat.pow_le_pow_right (by decide) (by omega)

/-- A decimal that is rounded to a finite magnitude other than zero has its point within the places
that the reader of decimals looks at. -/
theorem range_of_roundedUnits {d : Decimal} (hpos : 0 < d.roundedUnits)
    (hlimit : d.roundedUnits < magnitudeLimit) :
    d.digits ≠ 0 ∧ d.pointPlace ≤ 310 ∧ -330 ≤ d.pointPlace := by
  have hdigits : d.digits ≠ 0 := by
    intro hzero
    have hdown := (power_pos d.exponent).2
    rw [roundedUnits, hzero, nearest_eq_zero (by omega)] at hpos
    exact absurd hpos (by decide)
  refine ⟨hdigits, Int.not_lt.mp fun hlarge => ?_, Int.not_lt.mp fun hsmall => ?_⟩
  · have hbig : 2 * magnitudeLimit ≤ 10 ^ 310 * unitsPerOne := by decide +kernel
    have hbeyond := magnitudeLimit_le_of_pointPlace (Nat.pos_of_ne_zero hdigits) hbig hlarge
    omega
  · have htiny : 2 * unitsPerOne < 10 ^ 330 := by decide +kernel
    have hzero := roundedUnits_eq_zero_of_pointPlace (Nat.pos_of_ne_zero hdigits) htiny hsmall
    omega

end Decimal

/-- A decimal that is rounded to a magnitude other than zero is read as the double with it. -/
theorem Number.ofDecimal_eq {d : Decimal} {units : Nat} (negative : Bool) (hpos : 0 < units)
    (hrep : Representable units) (h : d.roundedUnits = units) :
    ofDecimal negative d = .finite negative units hrep := by
  obtain ⟨hdigits, hhigh, hlow⟩ :=
    Decimal.range_of_roundedUnits (h ▸ hpos) (h ▸ hrep.1)
  rw [ofDecimal, if_neg hdigits, if_neg (by omega), if_neg (by omega)]
  exact ofUnits_eq h hrep

namespace Query

/-! ## Reading digits -/

/-- The digits of a number stand for it in base ten, as in JSON. -/
theorem digitsValue_eq {digits : List Char} (h : ∀ c ∈ digits, c.isDigit = true) :
    digitsValue 10 digits = Json.NumberText.digitsValue digits := by
  unfold digitsValue Json.NumberText.digitsValue
  generalize 0 = start
  induction digits generalizing start with
  | nil => rfl
  | cons c rest ih =>
    obtain ⟨hc, hrest⟩ := List.forall_mem_cons.mp h
    rw [List.foldl_cons, List.foldl_cons, hexDigitValue, if_pos hc, ih hrest]

/-- A text is at its end or goes on with a space. -/
def AtSpace (rest : List Char) : Prop := rest = [] ∨ ∃ more, rest = ' ' :: more

/-- Nothing is taken from a text at a space by a test that fails of the space. -/
theorem AtSpace.takeWhile {p : Char → Bool} (hp : p ' ' = false) {rest : List Char}
    (h : AtSpace rest) : rest.takeWhile p = [] ∧ rest.dropWhile p = rest := by
  rcases h with rfl | ⟨more, rfl⟩
  · exact ⟨rfl, rfl⟩
  · simp [hp]

/-- No exponent stands where a text is at a space. -/
theorem exponent_of_atSpace {rest : List Char} (h : AtSpace rest) : exponent rest = (0, rest) := by
  rcases h with rfl | ⟨more, rfl⟩ <;> rfl

/-- Digits before a space are read as a whole number. -/
theorem decimal_whole (digits : List Char) {rest : List Char}
    (hdigits : ∀ c ∈ digits, c.isDigit = true) (hrest : AtSpace rest) :
    decimal (digits ++ rest) =
      (Number.ofDecimal false ⟨Json.NumberText.digitsValue digits, 0⟩, rest) := by
  obtain ⟨htake, hdrop⟩ :=
    Json.NumberText.takeWhile_isDigit_append hdigits (hrest.takeWhile (by decide)).1
  have hfraction : fractionDigits rest = ([], rest) := by
    rcases hrest with rfl | ⟨more, rfl⟩ <;> rfl
  simp [decimal, htake, hdrop, hfraction, exponent_of_atSpace hrest, digitsValue_eq hdigits]

/-- What is written by digits before and behind a point is read as its decimal, before a space. -/
theorem decimal_point {d : Decimal} {whole fraction : List Char}
    (h : Json.NumberText.Splits d whole fraction) {rest : List Char} (hrest : AtSpace rest) :
    decimal (whole ++ '.' :: (fraction ++ rest)) = (Number.ofDecimal false d, rest) := by
  obtain ⟨hwhole, hfraction⟩ := List.forall_mem_append.mp h.digits
  obtain ⟨htake, hdrop⟩ := Json.NumberText.takeWhile_isDigit_append hwhole
    (show ('.' :: (fraction ++ rest)).takeWhile Char.isDigit = [] from rfl)
  obtain ⟨htake', hdrop'⟩ :=
    Json.NumberText.takeWhile_isDigit_append hfraction (hrest.takeWhile (by decide)).1
  have hpoint : fractionDigits ('.' :: (fraction ++ rest)) = (fraction, rest) := by
    rw [fractionDigits, htake', hdrop']
  simp only [decimal, htake, hdrop, hpoint, exponent_of_atSpace hrest, digitsValue_eq h.digits,
    Int.zero_sub, h.value]

/-! ## Plain texts -/

/-- The decimal of the digits that plain positional notation writes: a whole number has no
exponent. -/
def wholeDecimal (d : Decimal) : Decimal :=
  if 0 < d.pointPlace ∧ 0 ≤ d.exponent then ⟨d.digits * 10 ^ d.exponent.toNat, 0⟩ else d

/-- Positional notation before a space is read as its decimal. -/
theorem decimal_positional (d : Decimal) {rest : List Char} (hrest : AtSpace rest) :
    decimal (d.positional [] ++ rest) = (Number.ofDecimal false (wholeDecimal d), rest) := by
  unfold Decimal.positional wholeDecimal
  simp only
  split
  next hplace =>
    have hread := decimal_point (Json.NumberText.splits_of_pointPlace_le hplace) hrest
    rw [if_neg (by omega), ← hread]
    simp
  next hplace =>
    split
    next hexponent =>
      have hread := decimal_whole (Decimal.digitChars d.digits ++ Decimal.zeros d.exponent)
        (fun c hc => (List.mem_append.mp hc).elim Decimal.isDigit_of_mem_digitChars
          Json.NumberText.isDigit_of_mem_zeros) hrest
      have hvalue := Json.NumberText.digitsValue_append d.digits (Decimal.zeros d.exponent)
      rw [Decimal.zeros, Nat.ofDigitChars_replicate_zero, Nat.mul_comm] at hvalue
      rw [Decimal.zeros, hvalue] at hread
      rw [if_pos ⟨by omega, hexponent⟩, List.append_nil, Decimal.zeros, hread]
    next hexponent =>
      have hsplits := Json.NumberText.splits_of_exponent_neg (Int.lt_of_not_ge hplace)
        (Int.lt_of_not_ge hexponent)
      rw [if_neg (by omega), ← decimal_point hsplits hrest]
      simp

/-- A decimal and the whole number that it is are rounded alike. -/
theorem roundedUnits_wholeDecimal (d : Decimal) :
    (wholeDecimal d).roundedUnits = d.roundedUnits := by
  unfold wholeDecimal
  split
  next h =>
    have hpower : Decimal.power d.exponent = (10 ^ d.exponent.toNat, 1) := by
      rw [Decimal.power, if_pos h.2, Nat.pow_eq]
    have hone : Decimal.power 0 = (1, 1) := rfl
    unfold Decimal.roundedUnits
    simp only [hpower, hone, Nat.mul_one]
  next => rfl

/-- A finite number without a sign is units above zero, and its plain text is their positional
notation, or a zero if there are none. -/
theorem exists_units_of_plain {n : Number} (hfinite : n.isFinite = true)
    (hsign : n.isNegative = false) :
    ∃ units h, n = .finite false units h ∧ n.plain.toList =
      if units = 0 then ['0'] else (Number.shortest .up units).positional [] := by
  cases n with
  | nan => cases hfinite
  | infinity => cases hfinite
  | finite negative units h =>
    obtain rfl : negative = false := hsign
    refine ⟨units, h, rfl, ?_⟩
    rw [Number.plain, Number.withSign, if_neg (by decide), String.toList_ofList]

/-- **Plain numbers read back.** A finite number that is not negative is read, before a space, from
its plain text. -/
theorem decimal_plain {n : Number} (hfinite : n.isFinite = true) (hsign : n.isNegative = false)
    {rest : List Char} (hrest : AtSpace rest) : decimal (n.plain.toList ++ rest) = (n, rest) := by
  obtain ⟨units, hunits, rfl, htext⟩ := exists_units_of_plain hfinite hsign
  rw [htext]
  by_cases hzero : units = 0
  · subst hzero
    rw [if_pos rfl, decimal_whole ['0'] (by simp) hrest]
    rfl
  · rw [if_neg hzero, decimal_positional _ hrest]
    have hround := Number.roundedUnits_shortest .up (Nat.pos_of_ne_zero hzero) hunits.2
    rw [Number.ofDecimal_eq false (Nat.pos_of_ne_zero hzero) hunits
      ((roundedUnits_wholeDecimal _).trans hround)]

/-- Positional notation begins with a digit. -/
theorem exists_digit_positional (d : Decimal) :
    ∃ c tail, d.positional [] = c :: tail ∧ c.isDigit = true := by
  unfold Decimal.positional
  simp only
  split
  · exact ⟨'0', _, rfl, rfl⟩
  · have hne : Decimal.digitChars d.digits ≠ [] := Nat.toDigits_ne_nil
    obtain ⟨c, cs, hchars⟩ := List.exists_cons_of_ne_nil hne
    have hc : c.isDigit = true := Decimal.isDigit_of_mem_digitChars (hchars ▸ List.mem_cons_self)
    rw [hchars]
    split
    · exact ⟨c, _, rfl, hc⟩
    · obtain ⟨place, hplace⟩ : ∃ place, d.pointPlace.toNat = place + 1 :=
        ⟨d.pointPlace.toNat - 1, by omega⟩
      rw [hplace]
      exact ⟨c, _, rfl, hc⟩

/-- The plain text of a finite number without a sign begins with a digit. -/
theorem exists_digit_plain {n : Number} (hfinite : n.isFinite = true)
    (hsign : n.isNegative = false) : ∃ c tail, n.plain.toList = c :: tail ∧ c.isDigit = true := by
  obtain ⟨units, -, -, htext⟩ := exists_units_of_plain hfinite hsign
  rw [htext]
  split
  · exact ⟨'0', [], rfl, rfl⟩
  · exact exists_digit_positional _

/-- The plain text of a finite number without a sign is a number literal. -/
theorem numberLexeme_plain {n : Number} (hfinite : n.isFinite = true) (hsign : n.isNegative = false)
    {rest : List Char} (hrest : AtSpace rest) :
    numberLexeme (n.plain.toList ++ rest) = .ok (.number n, rest) := by
  have hread := decimal_plain hfinite hsign hrest
  unfold numberLexeme
  split
  next x digits htext =>
    -- a hexadecimal literal would leave its letter unread
    have hx : ¬ (x = 'x' ∨ x = 'X') := by
      rintro (rfl | rfl)
      all_goals
        rw [htext] at hread
        obtain rfl := (Prod.mk.inj hread).2
        rcases hrest with hrest | ⟨more, hrest⟩
        · cases hrest
        · exact absurd (List.cons.inj hrest).1 (by decide)
    rw [if_neg hx, hread]
  next => rw [hread]

end Query

end Folio
