import Folio.Json.NumberValue
import Folio.Json.Text
import Folio.Proofs.Number.Decimal
import Mathlib.Algebra.Group.Nat.Defs
import Mathlib.Data.List.TakeWhile

/-!
# Written numbers read back

A number is written by digits, perhaps a point with more digits and perhaps an exponent. Reading
takes each run of digits as a whole, so integers and finite doubles are read as what is written. The
characters of anything that is read as a number can all occur in a number.
-/

namespace Folio

/-- The decimal of the digits that positional notation writes: a whole number has a zero behind its
point. -/
def Decimal.withTenths (d : Decimal) : Decimal :=
  if 0 < d.pointPlace ∧ 0 ≤ d.exponent then ⟨d.digits * 10 ^ (d.exponent.toNat + 1), -1⟩ else d

/-- The decimal of the digits that a magnitude is written by as JSON. -/
def Number.writtenDecimal (units : Nat) : Decimal :=
  if units = 0 then ⟨0, -1⟩
  else
    let d := shortest .toEven units
    if -5 < d.pointPlace ∧ d.pointPlace ≤ 16 then d.withTenths else d

namespace Json.NumberText

/-- The decimal of the digits of a written number. -/
def decimal (n : NumberText) : Decimal :=
  ⟨digitsValue (n.whole ++ n.fraction), n.exponent.getD 0 - n.fraction.length⟩

/-! ## Runs of digits -/

/-- A run of digits before something else is taken off the front. -/
theorem takeWhile_isDigit_append {digits rest : List Char} (hdigits : ∀ c ∈ digits, c.isDigit = true)
    (hrest : rest.takeWhile Char.isDigit = []) :
    (digits ++ rest).takeWhile Char.isDigit = digits ∧
      (digits ++ rest).dropWhile Char.isDigit = rest := by
  have hdrop : rest.dropWhile Char.isDigit = rest := by
    have hsplit := List.takeWhile_append_dropWhile (p := Char.isDigit) (l := rest)
    rwa [hrest, List.nil_append] at hsplit
  rw [List.takeWhile_append_of_pos hdigits, List.dropWhile_append_of_pos hdigits, hrest, hdrop,
    List.append_nil]
  exact ⟨rfl, rfl⟩

/-- Digits whose first one is not zero can stand before a point. -/
theorem isWhole_of_head? {digits : List Char} (hdigits : digits ≠ [])
    (hfirst : digits.head? ≠ some '0') : isWhole digits = true := by
  match digits with
  | [] => exact absurd rfl hdigits
  | first :: rest =>
    have hne : first ≠ '0' := by simpa using hfirst
    rw [isWhole]
    · simpa using hne
    · rintro rfl
      exact absurd rfl hne

/-- The digits of a number can stand before a point. -/
theorem isWhole_digitChars (n : Nat) : isWhole (Decimal.digitChars n) = true := by
  rcases Nat.eq_zero_or_pos n with rfl | hpos
  · decide
  · exact isWhole_of_head? Nat.toDigits_ne_nil (Decimal.head?_digitChars_ne_zero hpos)

/-- The digits of a number stand for the number. -/
theorem digitsValue_digitChars (n : Nat) : digitsValue (Decimal.digitChars n) = n := by
  have hvalue := Nat.ofDigitChars_ten_toDigits (n := n)
  rwa [Nat.ofDigitChars_eq_foldl] at hvalue

/-- More digits after those of a number go on from it. -/
theorem digitsValue_append (n : Nat) (digits : List Char) :
    digitsValue (Decimal.digitChars n ++ digits) = Nat.ofDigitChars 10 digits n := by
  have hvalue := Nat.ofDigitChars_append (b := 10) (l := Decimal.digitChars n) (m := digits) 0
  rwa [Decimal.digitChars, Nat.ofDigitChars_ten_toDigits, Nat.ofDigitChars_eq_foldl] at hvalue

/-- Zeros before digits do not count. -/
theorem digitsValue_zeros_append (count : Nat) (digits : List Char) :
    digitsValue (List.replicate count '0' ++ digits) = digitsValue digits := by
  have hvalue := Nat.ofDigitChars_append (b := 10) (l := List.replicate count '0') (m := digits) 0
  rwa [Nat.ofDigitChars_replicate_zero, Nat.mul_zero, Nat.ofDigitChars_eq_foldl,
    Nat.ofDigitChars_eq_foldl] at hvalue

/-- A number is read part by part. -/
theorem unsigned?_append {fraction rest : List Char} {exponent : Option Int} (negative : Bool)
    (whole tail : List Char) (hdigits : ∀ c ∈ whole, c.isDigit = true) (hwhole : isWhole whole = true)
    (htail : tail.takeWhile Char.isDigit = []) (hfraction : fractionOf? tail = some (fraction, rest))
    (hexponent : exponentOf? rest = some exponent) :
    unsigned? negative (whole ++ tail) = some ⟨negative, whole, fraction, exponent⟩ := by
  obtain ⟨htake, hdrop⟩ := takeWhile_isDigit_append hdigits htail
  simp [unsigned?, htake, hdrop, hwhole, hfraction, hexponent]

/-- Digits after a point are read as the fraction. -/
theorem fractionOf?_point (digits rest : List Char) (hne : digits ≠ [])
    (hdigits : ∀ c ∈ digits, c.isDigit = true) (hrest : rest.takeWhile Char.isDigit = []) :
    fractionOf? ('.' :: (digits ++ rest)) = some (digits, rest) := by
  obtain ⟨htake, hdrop⟩ := takeWhile_isDigit_append hdigits hrest
  simp [fractionOf?, htake, hdrop, hne]

/-- An exponent after its mark and a sign is read. -/
theorem exponentOf?_scientific (exponent : Int) :
    exponentOf? ('e' :: (if exponent < 0 then '-' else '+') :: Decimal.digitChars exponent.natAbs) =
      some (some exponent) := by
  obtain ⟨size, hsize⟩ : ∃ size, exponent.natAbs = size := ⟨_, rfl⟩
  have hne : Decimal.digitChars size ≠ [] := Nat.toDigits_ne_nil
  have hdigits : (Decimal.digitChars size).all Char.isDigit = true :=
    List.all_eq_true.mpr fun c hc => Decimal.isDigit_of_mem_digitChars hc
  rw [hsize]
  by_cases hnegative : exponent < 0
  · have hvalue : -(size : Int) = exponent := by omega
    simp only [hnegative, if_true]
    simp [exponentOf?, unsignedExponent?, hne, hdigits, digitsValue_digitChars, hvalue]
  · have hvalue : (size : Int) = exponent := by omega
    simp only [hnegative, if_false]
    simp [exponentOf?, unsignedExponent?, hne, hdigits, digitsValue_digitChars, hvalue]

/-- A number without its sign is read again after a sign. -/
theorem ofChars?_of_unsigned? {negative : Bool} {cs : List Char} {n : NumberText}
    (h : unsigned? negative cs = some n) :
    ofChars? (if negative then '-' :: cs else cs) = some n := by
  cases negative with
  | true => simpa [ofChars?] using h
  | false =>
    have hsign : cs.head? ≠ some '-' := by
      intro hhead
      cases cs with
      | nil => simp at hhead
      | cons c cs =>
        obtain rfl : c = '-' := by simpa using hhead
        have hnone : ('-' :: cs).takeWhile Char.isDigit = [] := rfl
        simp [unsigned?, hnone, isWhole] at h
    rw [if_neg (by decide), ofChars?]
    · exact h
    · rintro rest rfl
      exact hsign rfl

/-! ## Integers -/

/-- An integer is read as its sign and its digits. -/
theorem ofChars?_integerChars (i : Int) :
    ofChars? (integerChars i) = some ⟨i < 0, Decimal.digitChars i.natAbs, [], none⟩ := by
  have hdigits := unsigned?_append (decide (i < 0)) (Decimal.digitChars i.natAbs) []
    (fun c hc => Decimal.isDigit_of_mem_digitChars hc) (isWhole_digitChars i.natAbs) rfl rfl rfl
  rw [List.append_nil] at hdigits
  have hsigned := ofChars?_of_unsigned? hdigits
  by_cases hnegative : i < 0
  · simpa [integerChars, hnegative] using hsigned
  · simpa [integerChars, hnegative] using hsigned

/-- A natural number below `2 ^ 64` is read as itself. -/
theorem natural?_digitChars {n : Nat} (h : n < UInt64.size) :
    natural? ⟨false, Decimal.digitChars n, [], none⟩ = some n := by
  simp [natural?, digitsValue_digitChars, h]

/-! ## Doubles -/

/-- Digits with a point among them are read. -/
theorem unsigned?_point (negative : Bool) (whole fraction : List Char)
    (hwhole : isWhole whole = true) (hne : fraction ≠ [])
    (hdigits : ∀ c ∈ whole ++ fraction, c.isDigit = true) :
    unsigned? negative (whole ++ '.' :: fraction) = some ⟨negative, whole, fraction, none⟩ := by
  have hfraction := fractionOf?_point fraction [] hne
    (fun c hc => hdigits c (List.mem_append_right whole hc)) rfl
  rw [List.append_nil] at hfraction
  exact unsigned?_append negative whole _
    (fun c hc => hdigits c (List.mem_append_left fraction hc)) hwhole rfl hfraction rfl

/-- A text without its sign is read as a number with that sign and the digits of a decimal. -/
def Spells (negative : Bool) (cs : List Char) (d : Decimal) : Prop :=
  ∃ n, unsigned? negative cs = some n ∧ n.negative = negative ∧ n.decimal = d

/-- Zeros are digits. -/
theorem isDigit_of_mem_zeros {exponent : Int} {c : Char} (h : c ∈ Decimal.zeros exponent) :
    c.isDigit = true := by
  rw [List.eq_of_mem_replicate h]
  rfl

/-- A decimal is written by digits before and behind a point. -/
structure Splits (d : Decimal) (whole fraction : List Char) : Prop where
  digits : ∀ c ∈ whole ++ fraction, c.isDigit = true
  value : (⟨digitsValue (whole ++ fraction), -fraction.length⟩ : Decimal) = d

variable (negative : Bool) {d : Decimal}

/-- What is written by digits before and behind a point is read as its decimal. -/
theorem Splits.spells {whole fraction : List Char} (h : Splits d whole fraction)
    (hwhole : isWhole whole = true) (hne : fraction ≠ []) :
    Spells negative (whole ++ '.' :: fraction) d := by
  refine ⟨_, unsigned?_point negative whole fraction hwhole hne h.digits, rfl, ?_⟩
  rw [← h.value]
  simp only [decimal, Option.getD_none, Int.zero_sub]

/-- A zero stands before the point if no digit does. -/
theorem splits_of_pointPlace_le (hplace : d.pointPlace ≤ 0) :
    Splits d ['0'] (Decimal.zeros (-d.pointPlace) ++ Decimal.digitChars d.digits) := by
  have hlength : (Decimal.digitChars d.digits).length + d.exponent = d.pointPlace := rfl
  have hvalue := digitsValue_zeros_append ((-d.pointPlace).toNat + 1) (Decimal.digitChars d.digits)
  rw [digitsValue_digitChars, List.replicate_succ] at hvalue
  refine ⟨?_, Decimal.ext hvalue ?_⟩
  · simp only [List.cons_append, List.nil_append, List.mem_cons, List.mem_append]
    rintro c (rfl | hc | hc)
    · rfl
    · exact isDigit_of_mem_zeros hc
    · exact Decimal.isDigit_of_mem_digitChars hc
  · simp only [Decimal.zeros, List.length_append, List.length_replicate]
    omega

/-- A whole number has its digits and zeros before the point, and a zero behind it. -/
theorem splits_whole (d : Decimal) :
    Splits ⟨d.digits * 10 ^ (d.exponent.toNat + 1), -1⟩
      (Decimal.digitChars d.digits ++ Decimal.zeros d.exponent) ['0'] := by
  have hvalue := digitsValue_append d.digits (List.replicate (d.exponent.toNat + 1) '0')
  rw [Nat.ofDigitChars_replicate_zero, List.replicate_succ', ← List.append_assoc] at hvalue
  refine ⟨?_, Decimal.ext (hvalue.trans (Nat.mul_comm _ _)) rfl⟩
  simp only [List.mem_append, List.mem_cons, List.not_mem_nil, or_false]
  rintro c ((hc | hc) | rfl)
  · exact Decimal.isDigit_of_mem_digitChars hc
  · exact isDigit_of_mem_zeros hc
  · rfl

/-- Any other number has its point among its digits. -/
theorem splits_of_exponent_neg (hplace : 0 < d.pointPlace) (hexponent : d.exponent < 0) :
    Splits d ((Decimal.digitChars d.digits).take d.pointPlace.toNat)
      ((Decimal.digitChars d.digits).drop d.pointPlace.toNat) := by
  have hlength : (Decimal.digitChars d.digits).length + d.exponent = d.pointPlace := rfl
  constructor
  · rw [List.take_append_drop]
    exact fun c hc => Decimal.isDigit_of_mem_digitChars hc
  · rw [List.take_append_drop, digitsValue_digitChars]
    refine Decimal.ext rfl ?_
    simp only [List.length_drop]
    omega

/-- A number that is not zero can have its digits before a point, with more behind them. -/
theorem isWhole_digitChars_append (h : 0 < d.digits) (more : List Char) :
    isWhole (Decimal.digitChars d.digits ++ more) = true := by
  have hfirst := Decimal.head?_digitChars_ne_zero h
  obtain ⟨first, rest, hchars⟩ :=
    List.exists_cons_of_ne_nil (show Decimal.digitChars d.digits ≠ [] from Nat.toDigits_ne_nil)
  rw [hchars] at hfirst ⊢
  exact isWhole_of_head? (by simp) hfirst

/-- Positional notation is read as a number with the digits of its decimal. -/
theorem spells_positional (h : 0 < d.digits) :
    Spells negative (d.positional ['.', '0']) d.withTenths := by
  have hlength : (Decimal.digitChars d.digits).length + d.exponent = d.pointPlace := rfl
  have hne : Decimal.digitChars d.digits ≠ [] := Nat.toDigits_ne_nil
  unfold Decimal.positional Decimal.withTenths
  simp only
  split
  next hplace =>
    rw [if_neg (by omega)]
    exact (splits_of_pointPlace_le hplace).spells negative rfl (by simp [hne])
  next hplace =>
    split
    next hexponent =>
      rw [if_pos ⟨by omega, hexponent⟩]
      exact (splits_whole d).spells negative (isWhole_digitChars_append h _) (by simp)
    next hexponent =>
      have hinside : d.pointPlace.toNat < (Decimal.digitChars d.digits).length := by omega
      rw [if_neg (by omega)]
      refine (splits_of_exponent_neg (by omega) (by omega)).spells negative ?_ (by simpa using hinside)
      refine isWhole_of_head? (fun hnone => ?_) ?_
      · rcases List.take_eq_nil_iff.mp hnone with hzero | hnil
        · omega
        · exact hne hnil
      · rw [List.head?_take, if_neg (by omega)]
        exact Decimal.head?_digitChars_ne_zero h

/-- Scientific notation is read as a number with the digits of its decimal. -/
theorem spells_scientific (h : 0 < d.digits) : Spells negative d.scientific d := by
  have hfirst := Decimal.head?_digitChars_ne_zero h
  have hvalue := digitsValue_digitChars d.digits
  have hdigits {c : Char} (hc : c ∈ Decimal.digitChars d.digits) : c.isDigit = true :=
    Decimal.isDigit_of_mem_digitChars hc
  have hlength : (Decimal.digitChars d.digits).length + d.exponent = d.pointPlace := rfl
  have hexponent := exponentOf?_scientific (d.pointPlace - 1)
  unfold Decimal.scientific
  simp only
  match hchars : Decimal.digitChars d.digits with
  | [] => exact absurd hchars Nat.toDigits_ne_nil
  | [first] =>
    rw [hchars] at hfirst hdigits hvalue hlength
    refine ⟨_, unsigned?_append negative [first] _ (fun c hc => hdigits hc)
      (isWhole_of_head? (by simp) hfirst) rfl rfl hexponent, rfl, ?_⟩
    refine Decimal.ext hvalue ?_
    simp only [List.length_cons, List.length_nil] at hlength
    simp only [decimal, Option.getD_some, List.length_nil]
    omega
  | first :: second :: rest =>
    rw [hchars] at hfirst hdigits hvalue hlength
    refine ⟨_, unsigned?_append negative [first] _ (fun c hc => hdigits ?_)
      (isWhole_of_head? (by simp) (by simpa using hfirst)) rfl
      (fractionOf?_point (second :: rest) _ (by simp) (fun c hc => hdigits ?_) rfl)
      hexponent, rfl, ?_⟩
    · rw [List.mem_singleton.mp hc]
      exact List.mem_cons_self
    · exact List.mem_cons_of_mem first hc
    · refine Decimal.ext hvalue ?_
      simp only [List.length_cons] at hlength
      simp only [decimal, Option.getD_some, List.length_cons]
      omega

/-- What is read without its sign is read after the sign. -/
theorem ofChars?_withSign {negative : Bool} {cs : List Char} (h : Spells negative cs d) :
    ∃ n, ofChars? (Number.withSign negative cs).toList = some n ∧ n.negative = negative ∧
      n.decimal = d := by
  obtain ⟨n, hn, hsign, hdecimal⟩ := h
  refine ⟨n, ?_, hsign, hdecimal⟩
  rw [Number.withSign, String.toList_ofList]
  exact ofChars?_of_unsigned? hn

/-- A finite double is written as a number with its sign and the digits of its decimal. -/
theorem ofChars?_finite {units : Nat} (hunits : Representable units) :
    ∃ n, ofChars? (Number.finite negative units hunits).json.toList = some n ∧
      n.negative = negative ∧ n.decimal = Number.writtenDecimal units := by
  unfold Number.json Number.writtenDecimal
  simp only
  split
  · have hdigits : ∀ c ∈ ['0'] ++ ['0'], c.isDigit = true := by simp
    exact ofChars?_withSign
      ⟨_, unsigned?_point negative ['0'] ['0'] rfl (by simp) hdigits, rfl, rfl⟩
  · next hzero =>
    have hpos := Number.shortest_digits_pos .toEven (Nat.pos_of_ne_zero hzero)
    split
    · exact ofChars?_withSign (spells_positional negative hpos)
    · exact ofChars?_withSign (spells_scientific negative hpos)

/-- **Finite doubles are written as numbers.** -/
theorem ofChars?_json {x : Number} (h : x.isFinite = true) :
    ∃ n, ofChars? x.json.toList = some n := by
  cases x with
  | nan => cases h
  | infinity => cases h
  | finite negative units hunits =>
    obtain ⟨n, hn, -⟩ := ofChars?_finite negative hunits
    exact ⟨n, hn⟩

/-- What is not finite is written as null. -/
theorem json_eq_null {x : Number} (h : x.isFinite = false) : x.json = "null" := by
  cases x with
  | nan => rfl
  | infinity => rfl
  | finite => cases h

/-! ## Characters of numbers -/

/-- Digits can occur in a number. -/
theorem isPart_of_isDigit {c : Char} (h : c.isDigit = true) : isPart c = true := by
  simp [isPart, h]

/-- The characters of an exponent can occur in a number. -/
theorem isPart_of_exponentOf? {cs : List Char} {exponent : Option Int}
    (h : exponentOf? cs = some exponent) : ∀ c ∈ cs, isPart c = true := by
  have hdigits {negative : Bool} {digits : List Char} {found : Option Int}
      (hfound : unsignedExponent? negative digits = some found) :
      ∀ c ∈ digits, isPart c = true := by
    unfold unsignedExponent? at hfound
    split at hfound
    · next hall =>
      intro c hc
      simp only [Bool.and_eq_true, List.all_eq_true] at hall
      exact isPart_of_isDigit (hall.2 c hc)
    · cases hfound
  unfold exponentOf? at h
  split at h
  · simp
  · next mark rest =>
    split at h
    · next hmark =>
      have hpart : isPart mark = true := by
        rcases (by simpa using hmark : mark = 'e' ∨ mark = 'E') with rfl | rfl <;> decide
      split at h
      · simpa [hpart] using ⟨(by decide : isPart '-' = true), hdigits h⟩
      · simpa [hpart] using ⟨(by decide : isPart '+' = true), hdigits h⟩
      · simpa [hpart] using hdigits h
    · cases h

/-- The characters of a fraction can occur in a number if those after it can. -/
theorem isPart_of_fractionOf? {cs fraction rest : List Char}
    (h : fractionOf? cs = some (fraction, rest)) (hrest : ∀ c ∈ rest, isPart c = true) :
    ∀ c ∈ cs, isPart c = true := by
  unfold fractionOf? at h
  split at h
  · next tail =>
    simp only at h
    split at h
    · cases h
    · obtain ⟨-, rfl⟩ := Prod.mk.inj (Option.some.inj h)
      intro c hc
      rw [← List.takeWhile_append_dropWhile (p := Char.isDigit) (l := tail)] at hc
      rcases List.mem_cons.mp hc with rfl | hc
      · decide
      · rcases List.mem_append.mp hc with hc | hc
        · exact isPart_of_isDigit (List.mem_takeWhile_imp hc)
        · exact hrest c hc
  · obtain ⟨-, rfl⟩ := Prod.mk.inj (Option.some.inj h)
    exact hrest

/-- The characters of a number are such as can occur in a number, and there is at least one. -/
theorem isPart_of_ofChars? {cs : List Char} {n : NumberText} (h : ofChars? cs = some n) :
    cs ≠ [] ∧ ∀ c ∈ cs, isPart c = true := by
  have hunsigned {negative : Bool} {cs : List Char} (h : unsigned? negative cs = some n) :
      cs ≠ [] ∧ ∀ c ∈ cs, isPart c = true := by
    unfold unsigned? at h
    simp only at h
    split at h
    · next hwhole =>
      refine ⟨?_, ?_⟩
      · rintro rfl
        simp [isWhole] at hwhole
      · cases hfraction : fractionOf? (cs.dropWhile Char.isDigit) with
        | none => simp [hfraction] at h
        | some found =>
          obtain ⟨fraction, rest⟩ := found
          cases hexponent : exponentOf? rest with
          | none => simp [hfraction, hexponent] at h
          | some exponent =>
            have htail := isPart_of_fractionOf? hfraction (isPart_of_exponentOf? hexponent)
            intro c hc
            rw [← List.takeWhile_append_dropWhile (p := Char.isDigit) (l := cs)] at hc
            rcases List.mem_append.mp hc with hc | hc
            · exact isPart_of_isDigit (List.mem_takeWhile_imp hc)
            · exact htail c hc
    · cases h
  unfold ofChars? at h
  split at h
  · obtain ⟨-, hall⟩ := hunsigned h
    refine ⟨by simp, ?_⟩
    simpa using ⟨(by decide : isPart '-' = true), hall⟩
  · exact hunsigned h

end Json.NumberText

end Folio
