import Folio.Proofs.Expr.Path
import Folio.Proofs.Number.Whole

/-!
# Numeric keys

A whole number of at most 21 digits is a key by the numeral of the nearest signed 64-bit integer.
That is its own numeral as long as it is such an integer itself. All whole numbers beyond the 64-bit
integers on one side share one key with the last integer on that side.
-/

namespace Folio

/-- The signed 64-bit integer nearest to a whole number. -/
def nearestInt64 (i : Int) : Int := max (-2 ^ 63) (min (2 ^ 63 - 1) i)

/-- Two whole numbers are one, or both lie at or beyond the last 64-bit integer on one side. -/
def SameInt64 (i j : Int) : Prop :=
  i = j ∨ (2 ^ 63 - 1 ≤ i ∧ 2 ^ 63 - 1 ≤ j) ∨ (i ≤ -2 ^ 63 ∧ j ≤ -2 ^ 63)

/-- The nearest 64-bit integers of two whole numbers are one exactly if the numbers are, or lie
beyond the same end. -/
theorem nearestInt64_eq_iff {i j : Int} : nearestInt64 i = nearestInt64 j ↔ SameInt64 i j := by
  unfold nearestInt64 SameInt64
  omega

/-- A whole number is its own nearest 64-bit integer exactly if it is one. -/
theorem nearestInt64_eq_self_iff {i : Int} : nearestInt64 i = i ↔ -2 ^ 63 ≤ i ∧ i < 2 ^ 63 := by
  unfold nearestInt64
  omega

variable {m n : Number} {i j : Int}

/-- A whole number of at most 21 digits has the numeral of the nearest 64-bit integer as its key. -/
theorem isNumeral_numberKey (h : n.Equals i) (hi : i.natAbs < 10 ^ 21) :
    IsNumeral (numberKey n) (nearestInt64 i) := by
  obtain ⟨hwhole, rfl⟩ := Number.equals_iff.mp h
  have hkey : numberKey n = toString (nearestInt64 n.truncate) := by
    unfold numberKey
    rw [hwhole, Nat.pow_eq, decide_eq_true hi]
    rfl
  rw [hkey]
  exact isNumeral_toString _

/-- Whole numbers of at most 21 digits have one key exactly if they have one nearest 64-bit
integer. -/
theorem numberKey_eq_iff (hm : m.Equals i) (hn : n.Equals j) (hi : i.natAbs < 10 ^ 21)
    (hj : j.natAbs < 10 ^ 21) : numberKey m = numberKey n ↔ SameInt64 i j := by
  have hkeym := isNumeral_numberKey hm hi
  have hkeyn := isNumeral_numberKey hn hj
  rw [← nearestInt64_eq_iff]
  constructor
  · intro h
    rw [h] at hkeym
    exact hkeym.unique hkeyn
  · intro h
    rw [h] at hkeym
    exact (isNumeral_iff.mp hkeym).trans (isNumeral_iff.mp hkeyn).symm

/-- Two keys lead to the same in every value exactly if they are one. -/
theorem Value.forall_child_eq_iff {key other : String} :
    (∀ v : Value, v.child key = v.child other) ↔ key = other := by
  constructor
  · intro h
    by_contra hne
    have hobject := h (.object [(key, .null)])
    have hother : (other == key) = false := beq_false_of_ne (Ne.symm hne)
    simp [Value.child, Value.child?, List.lookup_cons, hother] at hobject
  · rintro rfl v
    rfl

/-- **Numeric keys.** Take two numbers that are whole and below `10 ^ 21` in magnitude. The key of
such a number is its canonical numeral exactly if the number is a signed 64-bit integer. A literal key
adds its text to the path of its base, and any key of that value makes an access look it up. Two such
numbers have different keys, add different segments to paths and lead to different entries of some
object, unless they are equal or both lie at or beyond the same end of the 64-bit integers: then they
have one key, one path and lead to the same entry of every object. -/
theorem numberKey_spec (hm : m.Equals i) (hn : n.Equals j) (hi : i.natAbs < 10 ^ 21)
    (hj : j.natAbs < 10 ^ 21) :
    (IsNumeral (numberKey n) j ↔ -2 ^ 63 ≤ j ∧ j < 2 ^ 63) ∧
    (numberKey m = numberKey n ↔ SameInt64 i j) ∧
    (∀ (base : Expr) (root : String) (keys : List String), base.path? = some (root, keys) →
      (Expr.property base (.literal (.number n))).path? = some (root, keys ++ [numberKey n]) ∧
      ((Expr.property base (.literal (.number m))).path? =
        (Expr.property base (.literal (.number n))).path? ↔ SameInt64 i j)) ∧
    (∀ (scope : Scope) (base key : Expr) (v : Value), base.eval scope = .ok v →
      key.eval scope = .ok (.number n) →
      (Expr.property base key).eval scope = .ok (v.child (numberKey n))) ∧
    ((∀ v : Value, v.child (numberKey m) = v.child (numberKey n)) ↔ SameInt64 i j) := by
  have hsame := numberKey_eq_iff hm hn hi hj
  have hnumeral := isNumeral_numberKey hn hj
  refine ⟨?_, hsame, fun base root keys hpath => ?_,
    fun scope base key v hbase hkey => Expr.eval_property_of_eval hbase hkey,
    Value.forall_child_eq_iff.trans hsame⟩
  · rw [← nearestInt64_eq_self_iff]
    constructor
    · exact hnumeral.unique
    · intro hself
      rwa [hself] at hnumeral
  · have hsegment (x : Number) : (Expr.property base (.literal (.number x))).path? =
        some (root, keys ++ [numberKey x]) :=
      Expr.path?_property_eq_some_iff.mpr ⟨keys, numberKey x, hpath, rfl, rfl⟩
    rw [hsegment m, hsegment n, ← hsame]
    simp

/-- A hundred trillion millions and its double have one key, the last 64-bit integer. -/
theorem numberKey_spec_beyond :
    let m : Number := .ofNat (10 ^ 20)
    let n : Number := .ofNat (2 * 10 ^ 20)
    m.Equals (10 ^ 20) ∧ n.Equals (2 * 10 ^ 20) ∧ numberKey m = numberKey n ∧
      ¬ IsNumeral (numberKey n) (2 * 10 ^ 20) ∧
      (Expr.property (.identifier "c") (.literal (.number m))).path? =
        (Expr.property (.identifier "c") (.literal (.number n))).path? ∧
      ∀ v : Value, v.child (numberKey m) = v.child (numberKey n) := by
  intro m n
  have hm : m.Equals (10 ^ 20) := ⟨by decide +kernel, by decide +kernel⟩
  have hn : n.Equals (2 * 10 ^ 20) := ⟨by decide +kernel, by decide +kernel⟩
  obtain ⟨hexact, hkeys, hpaths, -, hentries⟩ := numberKey_spec hm hn (by decide) (by decide)
  have hsame : SameInt64 (10 ^ 20) (2 * 10 ^ 20) := .inr (.inl (by decide))
  exact ⟨hm, hn, hkeys.mpr hsame, fun h => absurd (hexact.mp h).2 (by decide),
    (hpaths (.identifier "c") "c" [] rfl).2.mpr hsame, hentries.mpr hsame⟩

end Folio
