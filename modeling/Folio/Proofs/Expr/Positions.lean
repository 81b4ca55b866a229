import Folio.Proofs.Expr.NumericKeys

/-!
# Positions of array elements

A key names a position of an array exactly if it is the canonical numeral of that position. A number
is turned into a key first, and the key is the numeral of a position only if the number is equal to
that position, as long as the position is below the last 64-bit integer.
-/

namespace Folio

/-- A key names a position exactly if it is the numeral of it and the position is in range. -/
theorem arrayPosition?_eq_some_iff {key : String} {place : Nat} :
    arrayPosition? key = some place ↔ IsNumeral key place ∧ place < positionLimit := by
  have hvalue : key.toList.foldl (fun n c => 10 * n + (c.toNat - '0'.toNat)) 0 =
      Nat.ofDigitChars 10 key.toList 0 := Nat.ofDigitChars_eq_foldl.symm
  rw [isNumeral_natCast_iff, numeralDigits_iff]
  unfold arrayPosition?
  simp only [hvalue]
  constructor
  · intro h
    split at h
    · split at h
      next hcheck =>
        obtain rfl := Option.some.inj h
        simp only [Bool.and_eq_true, decide_eq_true_eq, beq_iff_eq] at hcheck
        exact ⟨hcheck.2.symm, hcheck.1⟩
      next => cases h
    · cases h
  · rintro ⟨hdigits, hlimit⟩
    have hall : key.toList.all Char.isDigit = true := by
      rw [hdigits]
      exact List.all_eq_true.mpr fun c hc => Decimal.isDigit_of_mem_digitChars hc
    have hne : key.toList ≠ [] := by
      rw [hdigits]
      exact Nat.toDigits_ne_nil
    have hplace : Nat.ofDigitChars 10 key.toList 0 = place := by
      rw [hdigits]
      exact Nat.ofDigitChars_ten_toDigits
    simp [hall, hne, hplace, hlimit, ← hdigits]

/-- A position below the last 64-bit integer is named by the key of a number exactly if the number
is equal to it. -/
theorem arrayPosition?_numberKey {n : Number} {place : Nat} (hplace : place < 2 ^ 63 - 1) :
    arrayPosition? (numberKey n) = some place ↔ n.Equals place := by
  have hlimit : positionLimit = 2 ^ 64 := rfl
  rw [arrayPosition?_eq_some_iff]
  by_cases hsmall : n.isWhole = true ∧ n.truncate.natAbs < 10 ^ 21
  · have hequals : n.Equals n.truncate := Number.equals_iff.mpr ⟨hsmall.1, rfl⟩
    have hnumeral := isNumeral_numberKey hequals hsmall.2
    constructor
    · rintro ⟨h, -⟩
      have hnearest : nearestInt64 n.truncate = place := hnumeral.unique h
      have hexact : n.truncate = place := by
        unfold nearestInt64 at hnearest
        omega
      rwa [hexact] at hequals
    · intro h
      rw [hequals.unique h, nearestInt64_eq_self_iff.mpr (by omega)] at hnumeral
      exact ⟨hnumeral, by omega⟩
  · have hkey : numberKey n = n.plain := by
      unfold numberKey
      rw [if_neg]
      simpa [Nat.pow_eq] using hsmall
    rw [hkey]
    constructor
    · rintro ⟨h, hin⟩
      obtain ⟨hwhole, hle⟩ := Number.isWhole_of_isNumeral_plain h
      rw [Int.natAbs_natCast] at hle
      exact absurd ⟨hwhole, by omega⟩ hsmall
    · intro h
      obtain ⟨hwhole, htruncate⟩ := Number.equals_iff.mp h
      exact absurd ⟨hwhole, by omega⟩ hsmall

namespace Value

variable {xs : List Value} {key : String} {v : Value}

/-- A key leads to an element of an array exactly if it is the numeral of its position. -/
theorem child?_array_eq_some_iff (hlength : xs.length < 2 ^ 63) :
    (array xs).child? key = some v ↔ ∃ place : Nat, IsNumeral key place ∧ xs[place]? = some v := by
  have hlimit : positionLimit = 2 ^ 64 := rfl
  rw [child?, Option.bind_eq_some_iff]
  constructor
  · rintro ⟨place, hplace, hv⟩
    exact ⟨place, (arrayPosition?_eq_some_iff.mp hplace).1, hv⟩
  · rintro ⟨place, hnumeral, hv⟩
    obtain ⟨hin, -⟩ := List.getElem?_eq_some_iff.mp hv
    exact ⟨place, arrayPosition?_eq_some_iff.mpr ⟨hnumeral, by omega⟩, hv⟩

/-- The key of a number leads to an element of an array exactly if the number is equal to its
position. -/
theorem child?_array_numberKey (hlength : xs.length < 2 ^ 63) {n : Number} :
    (array xs).child? (numberKey n) = some v ↔
      ∃ place : Nat, n.Equals place ∧ xs[place]? = some v := by
  rw [child?, Option.bind_eq_some_iff]
  refine exists_congr fun place => and_congr_left fun hv => ?_
  obtain ⟨hin, -⟩ := List.getElem?_eq_some_iff.mp hv
  exact arrayPosition?_numberKey (by omega)

/-- A key that leads to the elements at some positions leads nowhere if none of them is a position of
the array. -/
theorem child?_array_eq_none {names : Nat → Prop}
    (h : ∀ v, (array xs).child? key = some v ↔ ∃ place, names place ∧ xs[place]? = some v)
    (hno : ∀ place < xs.length, ¬ names place) : (array xs).child? key = none := by
  refine Option.eq_none_iff_forall_ne_some.mpr fun v hchild => ?_
  obtain ⟨place, hnames, hv⟩ := (h v).mp hchild
  exact hno place (List.getElem?_eq_some_iff.mp hv).1 hnames

/-- **Positions.** Take an array of less than `2 ^ 63` elements. An access by a number has the value
at the position that the number is equal to, and is absent if the number is equal to no position of
the array. A path whose first key is the canonical numeral of a position, digits without a sign, a
space, a point or a leading zero, goes on in the element there, and any other key leads nowhere. -/
theorem array_access_spec (hlength : xs.length < 2 ^ 63) :
    (∀ (scope : Scope) (base key : Expr) (n : Number), base.eval scope = .ok (array xs) →
      key.eval scope = .ok (.number n) →
      (∀ (place : Nat) v, n.Equals place → xs[place]? = some v →
        (Expr.property base key).eval scope = .ok v) ∧
      ((∀ place < xs.length, ¬ n.Equals (place : Nat)) →
        (Expr.property base key).eval scope = .ok .absent)) ∧
    (∀ (key : String) (v : Value), (array xs).child? key = some v ↔
      ∃ place : Nat, IsNumeral key place ∧ xs[place]? = some v) ∧
    ∀ (key : String) (path : List String),
      (∀ (place : Nat) v, IsNumeral key place → xs[place]? = some v →
        (array xs).resolve (key :: path) = v.resolve path) ∧
      ((∀ place < xs.length, ¬ IsNumeral key (place : Nat)) →
        (array xs).resolve (key :: path) = .absent) := by
  refine ⟨fun scope base key n hbase hkey => ?_, fun key v => child?_array_eq_some_iff hlength,
    fun key path => ?_⟩
  · have hchild (v : Value) := child?_array_numberKey hlength (v := v) (n := n)
    rw [Expr.eval_property_of_eval hbase hkey, Value.at, child]
    constructor
    · intro place v hequals hv
      rw [(hchild v).mpr ⟨place, hequals, hv⟩]
      rfl
    · intro hno
      rw [child?_array_eq_none hchild hno]
      rfl
  · have hchild (v : Value) : (array xs).child? key = some v ↔
        ∃ place : Nat, IsNumeral key place ∧ xs[place]? = some v := child?_array_eq_some_iff hlength
    rw [resolve]
    constructor
    · intro place v hnumeral hv
      rw [(hchild v).mpr ⟨place, hnumeral, hv⟩]
    · intro hno
      rw [child?_array_eq_none hchild hno]

/-- Negative zero, one and the numeral of one name positions of an array of two elements; one and a
half and a numeral with a leading zero do not. -/
theorem array_access_spec_two_elements :
    let xs : List Value := [.null, .bool true]
    let scope : Scope := ⟨.array xs, [], .empty⟩
    let access (n : Number) : Expr := .property (.identifier "c") (.literal (.number n))
    (access (.signedZero true)).eval scope = .ok .null ∧
      (access (.ofNat 1)).eval scope = .ok (.bool true) ∧
      (access (.ofRatio false 3 2)).eval scope = .ok .absent ∧
      (array xs).resolve ["1"] = .bool true ∧ (array xs).resolve ["01"] = .absent := by
  intro xs scope access
  obtain ⟨hnumbers, -, hpaths⟩ := @array_access_spec xs (by decide)
  have hnumber (n : Number) := hnumbers scope (.identifier "c") (.literal (.number n)) n rfl rfl
  have hzero : (Number.signedZero true).Equals (0 : Nat) := ⟨rfl, by decide +kernel⟩
  have hone : (Number.ofNat 1).Equals (1 : Nat) := ⟨by decide +kernel, by decide +kernel⟩
  have hhalf : (Number.ofRatio false 3 2).isWhole = false := by decide +kernel
  refine ⟨(hnumber _).1 0 _ hzero rfl, (hnumber _).1 1 _ hone rfl, (hnumber _).2 ?_,
    (hpaths "1" []).1 1 _ (isNumeral_iff.mpr (by decide)) rfl, (hpaths "01" []).2 ?_⟩
  · intro place _ hequals
    rw [(Number.equals_iff.mp hequals).1] at hhalf
    cases hhalf
  · intro place _ hnumeral
    exact absurd ((isNumeral_natCast_iff.mp hnumeral).leading (by decide)) (by decide)

end Value

end Folio
