import Folio.Proofs.Text.Units
import Folio.Proofs.Value.Truth
import Folio.Value.Order

/-!
# The order of values is lawful

Four measures of a value decide its place: the kind, a flag, a place on the number line and a list
of code units. Comparing values is comparing these one after another, so the order is transitive
and oriented. Values that are equal by content tie, and away from arrays and objects only those do.
-/

namespace Folio

namespace Number

/-- Numbers compare by whether they are numbers at all, then by their places. -/
theorem totalCompare_eq_then (x y : Number) :
    x.totalCompare y = (compare x.isNaN y.isNaN).then (compare x.rank y.rank) := by
  cases x <;> cases y <;> simp [totalCompare, compare?, isNaN, rank] <;> rfl

/-- The sign and the magnitude of a number that is not zero can be read off its place. -/
theorem signed_inj {s t : Bool} {m n : Nat} (h : signed s m = signed t n) :
    m = n ∧ (m = 0 ∨ s = t) := by
  cases s <;> cases t <;> simp [signed] at h ⊢ <;> omega

/-- Numbers that are equal have one label: two zeros are both written without a sign. -/
theorem label_eq_of_equal {x y : Number} (h : x.equal y = true) : x.label = y.label := by
  cases x with
  | nan => simp [equal, isNaN] at h
  | infinity s =>
    cases y with
    | nan => simp [equal, isNaN] at h
    | infinity t =>
      obtain ⟨_, hzero | hsign⟩ := signed_inj (by simpa [equal, isNaN, rank] using h)
      · exact absurd hzero (by decide +kernel)
      · rw [hsign]
    | finite t n hn =>
      obtain ⟨hlimit, _⟩ := signed_inj (by simpa [equal, isNaN, rank] using h)
      exact absurd hn.1 (by omega)
  | finite s m hm =>
    cases y with
    | nan => simp [equal, isNaN] at h
    | infinity t =>
      obtain ⟨hlimit, _⟩ := signed_inj (by simpa [equal, isNaN, rank] using h)
      exact absurd hm.1 (by omega)
    | finite t n hn =>
      obtain ⟨hunits, hsign⟩ := signed_inj (by simpa [equal, isNaN, rank] using h)
      subst hunits
      rcases hsign with rfl | rfl <;> simp [label]

end Number

namespace Value

/-- The flag among the measures of a value: a boolean is its own, and not-a-number has one. -/
def flag : Value → Bool
  | .bool b => b
  | .number n => n.isNaN
  | _ => false

/-- The place among the measures of a value. -/
def place : Value → Int
  | .number n => n.rank
  | _ => 0

/-- The code units among the measures of a value. -/
def letters : Value → List Nat
  | .string s => Text.units s
  | .array items => Text.units (joinedText (.array items))
  | _ => []

/-- Values compare by their four measures, one after another. -/
theorem totalCompare_eq_then (a b : Value) :
    a.totalCompare b = (compare a.kind.rank b.kind.rank).then
      ((compare a.flag b.flag).then ((compare a.place b.place).then
        (compare a.letters b.letters))) := by
  cases a <;> cases b <;>
    simp [totalCompare, compareWithin, kind, Kind.rank, flag, place, letters, Text.compareUnits,
      Number.totalCompare_eq_then, Nat.compare_eq_ite_lt] <;> rfl

/-- The order of values is transitive and oriented. -/
instance : Std.TransCmp totalCompare := by
  have hmeasures : totalCompare =
      compareLex (compareOn fun v => v.kind.rank) (compareLex (compareOn flag)
        (compareLex (compareOn place) (compareOn letters))) := by
    funext a b
    exact totalCompare_eq_then a b
  rw [hmeasures]
  infer_instance

/-! ## Equality by content -/

/-- Filters know whether two present values are equal by content. -/
theorem equal_of_present {a b : Value} (ha : a.isAbsent = false) (hb : b.isAbsent = false) :
    a.equal b = .ofBool (a.deepEqual b) := by
  cases a <;> cases b <;>
    simp_all [equal, isAbsent, sameKind, kind, deepEqual, Truth.ofBool]

/-- Values that are equal as filters see it are present and equal by content. -/
theorem equal_eq_true_iff {a b : Value} : a.equal b = .true ↔
    a.isAbsent = false ∧ b.isAbsent = false ∧ a.deepEqual b = true := by
  cases a <;> cases b <;>
    simp [equal, isAbsent, sameKind, kind, deepEqual, Truth.ofBool_eq_true_iff]

mutual

/-- Values that are equal by content have one text inside a joined array. -/
theorem joinedText_eq_of_deepEqual {a b : Value} (h : a.deepEqual b = true) :
    a.joinedText = b.joinedText := by
  cases a <;> cases b <;> simp only [deepEqual, Bool.false_eq_true] at h
  case absent.absent => rfl
  case null.null => rfl
  case bool.bool x y => rw [beq_iff_eq.mp h]
  case number.number x y => exact Number.label_eq_of_equal h
  case string.string x y => rw [beq_iff_eq.mp h]
  case array.array xs ys => simp only [joinedText, joinedTexts_eq_of_itemsEqual h]
  case object.object xs ys => simp only [joinedText]

/-- Lists that are equal pointwise have the same texts inside a joined array. -/
theorem joinedTexts_eq_of_itemsEqual {xs ys : List Value} (h : itemsEqual xs ys = true) :
    joinedTexts xs = joinedTexts ys := by
  match xs, ys with
  | [], [] => rfl
  | x :: xs, y :: ys =>
    simp only [itemsEqual, Bool.and_eq_true] at h
    simp only [joinedTexts, joinedText_eq_of_deepEqual h.1, joinedTexts_eq_of_itemsEqual h.2]
  | [], _ :: _ => simp [itemsEqual] at h
  | _ :: _, [] => simp [itemsEqual] at h

end

/-- Values that are equal by content tie in the order. -/
theorem totalCompare_eq_of_deepEqual {a b : Value} (h : a.deepEqual b = true) :
    a.totalCompare b = .eq := by
  have htext := joinedText_eq_of_deepEqual h
  cases a <;> cases b <;> simp only [deepEqual, Bool.false_eq_true] at h
  case number.number x y =>
    simp only [Number.equal, Bool.and_eq_true, Bool.not_eq_true', beq_iff_eq] at h
    simp [totalCompare_eq_then, kind, flag, place, letters, h]
  case array.array xs ys => simp [totalCompare_eq_then, kind, flag, place, letters, htext]
  all_goals simp_all [totalCompare_eq_then, kind, flag, place, letters]

/-- Away from arrays, objects and not-a-number, values that tie are equal by content. -/
theorem deepEqual_of_totalCompare_eq {a b : Value} (hplain : b.isComposite = false)
    (htruthy : b.isTruthy = true) (h : a.totalCompare b = .eq) : a.deepEqual b = true := by
  simp only [totalCompare_eq_then, Ordering.then_eq_eq, Std.LawfulEqOrd.compare_eq_iff_eq] at h
  obtain ⟨hkind, hflag, hplace, hletters⟩ := h
  cases b <;> cases a <;> simp_all [kind, Kind.rank, flag, place, letters, isComposite, isTruthy,
    deepEqual, Number.equal]
  exact Text.eq_of_units_eq hletters

/-- Equality by content of values without parts works both ways. -/
theorem deepEqual_symm_of_plain {a b : Value} (hplain : a.isComposite = false)
    (h : b.deepEqual a = true) : a.deepEqual b = true := by
  cases a <;> cases b <;> simp_all [deepEqual, isComposite, Number.equal]

/-- Values that tie are equal by content also where the first of them is known to be usable and no
array or object. -/
theorem deepEqual_of_totalCompare_eq_left {a b : Value} (hplain : a.isComposite = false)
    (htruthy : a.isTruthy = true) (h : a.totalCompare b = .eq) : a.deepEqual b = true := by
  have hback : b.totalCompare a = .eq := by rw [Std.OrientedCmp.eq_comm, h]
  exact deepEqual_symm_of_plain hplain (deepEqual_of_totalCompare_eq hplain htruthy hback)

end Value

end Folio
