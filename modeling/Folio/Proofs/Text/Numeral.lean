import Folio.Proofs.Number.Decimal

/-!
# Decimal numerals

The canonical decimal numeral of a whole number has a minus sign exactly if the number is negative,
and then digits without a zero before others. So each whole number has one numeral, which is how it
is written, and each numeral stands for one number.
-/

namespace Folio

/-- The digits are those of a canonical numeral of a natural number: at least one digit, no zero
before others, and the number as their value. -/
structure NumeralDigits (n : Nat) (digits : List Char) : Prop where
  nonempty : digits ≠ []
  isDigit : ∀ c ∈ digits, c.isDigit = true
  leading : digits.head? = some '0' → digits = ['0']
  value : Nat.ofDigitChars 10 digits 0 = n

/-- The text is the canonical numeral of a whole number: its digits after a minus sign if it is
negative, and its digits alone if not. -/
def IsNumeral (text : String) (i : Int) : Prop :=
  ∃ digits, NumeralDigits i.natAbs digits ∧
    text.toList = if i < 0 then '-' :: digits else digits

/-- A digit is what its value is written as. -/
theorem digitChar_of_isDigit {c : Char} (h : c.isDigit = true) :
    c.toNat - '0'.toNat < 10 ∧ Nat.digitChar (c.toNat - '0'.toNat) = c := by
  have hbounds : 48 ≤ c.toNat ∧ c.toNat ≤ 57 := Char.isDigit_iff_toNat.mp h
  have hzero : '0'.toNat = 48 := rfl
  have hlt : c.toNat - '0'.toNat < 10 := by omega
  refine ⟨hlt, Char.toNat_inj.mp ?_⟩
  rw [Nat.toNat_digitChar_of_lt_ten hlt]
  omega

/-- More digits behind those of a positive number are the digits of the number that they go on to. -/
theorem toDigits_append {n : Nat} (hpos : 0 < n) {digits : List Char}
    (hdigits : ∀ c ∈ digits, c.isDigit = true) :
    Nat.toDigits 10 n ++ digits = Nat.toDigits 10 (Nat.ofDigitChars 10 digits n) := by
  induction digits generalizing n with
  | nil => exact List.append_nil _
  | cons c rest ih =>
    obtain ⟨hc, hrest⟩ := List.forall_mem_cons.mp hdigits
    obtain ⟨hlt, hchar⟩ := digitChar_of_isDigit hc
    have hone := Nat.toDigits_append_toDigits (show 1 < 10 by decide) hpos hlt
    rw [Nat.toDigits_of_lt_base hlt, hchar] at hone
    calc Nat.toDigits 10 n ++ c :: rest
        = (Nat.toDigits 10 n ++ [c]) ++ rest := by simp
      _ = Nat.toDigits 10 (10 * n + (c.toNat - '0'.toNat)) ++ rest := by rw [hone]
      _ = Nat.toDigits 10 (Nat.ofDigitChars 10 (c :: rest) n) := by
        rw [ih (by omega) hrest, Nat.ofDigitChars_cons]

/-- **Digits of numerals.** The digits of a canonical numeral are those that the number is written
with. -/
theorem numeralDigits_iff {n : Nat} {digits : List Char} :
    NumeralDigits n digits ↔ digits = Decimal.digitChars n := by
  constructor
  · rintro ⟨hne, hdigits, hleading, rfl⟩
    match digits with
    | [] => exact absurd rfl hne
    | c :: rest =>
      obtain ⟨hc, hrest⟩ := List.forall_mem_cons.mp hdigits
      obtain ⟨hlt, hchar⟩ := digitChar_of_isDigit hc
      by_cases hzero : c = '0'
      · subst hzero
        rw [hleading rfl]
        rfl
      · have hpos : 0 < c.toNat - '0'.toNat := by
          refine Nat.pos_of_ne_zero fun heq => hzero ?_
          rw [← hchar, heq]
          rfl
        have hgo := toDigits_append hpos hrest
        rw [Nat.toDigits_of_lt_base hlt, hchar, List.singleton_append] at hgo
        rw [Decimal.digitChars, Nat.ofDigitChars_cons, Nat.mul_zero, Nat.zero_add, ← hgo]
  · rintro rfl
    refine ⟨Nat.toDigits_ne_nil, fun c hc => Decimal.isDigit_of_mem_digitChars hc, ?_,
      Nat.ofDigitChars_ten_toDigits⟩
    rcases Nat.eq_zero_or_pos n with rfl | hpos
    · exact fun _ => rfl
    · exact fun hzero => absurd hzero (Decimal.head?_digitChars_ne_zero hpos)

/-- **Numerals.** The canonical numeral of a whole number is how it is written. -/
theorem isNumeral_iff {text : String} {i : Int} : IsNumeral text i ↔ text = toString i := by
  have hchars : (toString i).toList =
      if i < 0 then '-' :: Decimal.digitChars i.natAbs else Decimal.digitChars i.natAbs := by
    rw [Int.toString_eq_repr, Int.repr_eq_if]
    by_cases hsign : i < 0
    · rw [if_neg (by omega), if_pos hsign, show (-i).toNat = i.natAbs by omega]
      simp [Decimal.digitChars]
    · rw [if_pos (by omega), if_neg hsign, show i.toNat = i.natAbs by omega]
      simp [Decimal.digitChars]
  constructor
  · rintro ⟨digits, hdigits, htext⟩
    rw [numeralDigits_iff.mp hdigits, ← hchars] at htext
    exact String.toList_injective htext
  · rintro rfl
    exact ⟨_, numeralDigits_iff.mpr rfl, hchars⟩

/-- A whole number is written by its numeral. -/
theorem isNumeral_toString (i : Int) : IsNumeral (toString i) i := isNumeral_iff.mpr rfl

/-- A numeral of a number that is not negative consists of its digits. -/
theorem isNumeral_natCast_iff {text : String} {n : Nat} :
    IsNumeral text n ↔ NumeralDigits n text.toList := by
  constructor
  · rintro ⟨digits, hdigits, htext⟩
    rw [if_neg (by omega)] at htext
    rw [htext]
    exact hdigits
  · intro h
    exact ⟨text.toList, h, by rw [if_neg (by omega)]⟩

/-- The sign of a numeral tells whether the number is negative. -/
theorem IsNumeral.head?_eq_minus_iff {text : String} {i : Int} (h : IsNumeral text i) :
    text.toList.head? = some '-' ↔ i < 0 := by
  obtain ⟨digits, hdigits, htext⟩ := h
  by_cases hsign : i < 0
  · simp [htext, hsign]
  · rw [htext, if_neg hsign]
    refine iff_of_false (fun hhead => ?_) hsign
    have hdigit := hdigits.isDigit '-' (List.mem_of_head? hhead)
    exact absurd hdigit (by decide)

/-- A text is the numeral of one number at most. -/
theorem IsNumeral.unique {text : String} {i j : Int} (hi : IsNumeral text i)
    (hj : IsNumeral text j) : i = j := by
  have hsign : i < 0 ↔ j < 0 := hi.head?_eq_minus_iff.symm.trans hj.head?_eq_minus_iff
  obtain ⟨xs, hxs, htext⟩ := hi
  obtain ⟨ys, hys, htext'⟩ := hj
  have hsame : xs = ys := by
    rw [htext] at htext'
    by_cases hnegative : i < 0
    · rw [if_pos hnegative, if_pos (hsign.mp hnegative)] at htext'
      exact (List.cons.inj htext').2
    · rw [if_neg hnegative, if_neg (mt hsign.mpr hnegative)] at htext'
      exact htext'
  have habs : i.natAbs = j.natAbs := by rw [← hxs.value, ← hys.value, hsame]
  omega

/-- The characters of a numeral are a minus sign and digits. -/
theorem IsNumeral.isDigit_or_minus {text : String} {i : Int} (h : IsNumeral text i) {c : Char}
    (hc : c ∈ text.toList) : c = '-' ∨ c.isDigit = true := by
  obtain ⟨digits, hdigits, htext⟩ := h
  rw [htext] at hc
  split at hc
  · rcases List.mem_cons.mp hc with rfl | hc
    · exact .inl rfl
    · exact .inr (hdigits.isDigit c hc)
  · exact .inr (hdigits.isDigit c hc)

end Folio
