import Folio.Proofs.Number.Integral
import Folio.Value.Arithmetic
import Mathlib.Data.Int.ModEq

/-!
# Words of numbers

None of the steps that lead from a double to its word rounds, so the word is the truncation modulo
`2 ^ 32`, also right below a multiple of `2 ^ 32` and far beyond 64 bits. The operators on words are
those of 32-bit two's complement, and their results are whole numbers.
-/

namespace Folio

namespace Number

variable {x y : Number} {i j : Int}

/-- Truncation is the quotient of the division of the units that truncates. -/
theorem truncate_eq_tdiv (h : x.isFinite = true) : x.truncate = x.rank.tdiv unitsPerOne := by
  cases x with
  | nan => cases h
  | infinity => cases h
  | finite negative units hrep =>
    rw [truncate, rank, wholePart]
    cases negative with
    | false => exact Int.ofNat_tdiv units unitsPerOne
    | true => exact (congrArg Int.neg (Int.ofNat_tdiv units unitsPerOne)).trans (Int.neg_tdiv ..).symm

/-- The unsigned word of a number is its truncation modulo `2 ^ 32`. -/
theorem toUint32_eq_emod (x : Number) : (x.toUint32 : Int) = x.truncate % 2 ^ 32 := by
  unfold toUint32
  split
  next hfinite =>
    have hcount : wordCount.Equals (2 ^ 32) := equals_ofNat (by decide)
    have hleft := (equals_dropFraction hfinite).remEuclid hcount (by decide) (by decide)
    exact hleft.saturated (Int.emod_nonneg _ (by decide)) (Int.emod_lt_of_pos _ (by decide))
  next hfinite =>
    cases x with
    | nan => rfl
    | infinity => rfl
    | finite => exact absurd rfl hfinite

/-- The unsigned word is the word. -/
theorem toNat_word (x : Number) : x.word.toNat = x.toUint32 := by
  have h := toUint32_eq_emod x
  rw [word, BitVec.toNat_ofNat]
  omega

/-- The word of a number is that of its truncation. -/
theorem word_eq_ofInt (x : Number) : x.word = BitVec.ofInt 32 x.truncate := by
  apply BitVec.eq_of_toNat_eq
  have h := toUint32_eq_emod x
  rw [toNat_word, BitVec.toNat_ofInt]
  omega

/-- The signed word of a number is its truncation modulo `2 ^ 32`, in the balanced range. -/
theorem toInt32_eq_bmod (x : Number) : x.toInt32 = x.truncate.bmod (2 ^ 32) := by
  rw [toInt32, word_eq_ofInt, BitVec.toInt_ofInt]

/-- The unsigned word is the one number below `2 ^ 32` that the truncation is congruent to. -/
theorem toUint32_eq_iff {u : Int} :
    (x.toUint32 : Int) = u ↔ (0 ≤ u ∧ u < 2 ^ 32) ∧ u ≡ x.truncate [ZMOD 2 ^ 32] := by
  rw [toUint32_eq_emod, Int.ModEq]
  constructor
  · rintro rfl
    exact ⟨⟨Int.emod_nonneg _ (by decide), Int.emod_lt_of_pos _ (by decide)⟩, Int.emod_emod _ _⟩
  · rintro ⟨⟨hlow, hhigh⟩, hmod⟩
    rw [← hmod, Int.emod_eq_of_lt hlow hhigh]

/-- The signed word is the one number with 31 bits and a sign that the truncation is congruent to. -/
theorem toInt32_eq_iff :
    x.toInt32 = i ↔ (-2 ^ 31 ≤ i ∧ i < 2 ^ 31) ∧ i ≡ x.truncate [ZMOD 2 ^ 32] := by
  rw [toInt32_eq_bmod, Int.bmod_eq_iff (by decide), Int.modEq_comm, Int.modEq_iff_dvd]
  constructor
  · rintro ⟨hlow, hhigh, hdvd⟩
    exact ⟨⟨by omega, by omega⟩, hdvd⟩
  · rintro ⟨⟨hlow, hhigh⟩, hdvd⟩
    exact ⟨by omega, by omega, hdvd⟩

/-- A number that is not finite has the word zero. -/
theorem word_of_not_finite (h : x.isFinite = false) : x.toUint32 = 0 ∧ x.toInt32 = 0 := by
  have hzero : x.toUint32 = 0 := by rw [toUint32, h, if_neg (by decide)]
  exact ⟨hzero, by rw [toInt32, word, hzero]; rfl⟩

/-- The signed word stands for the word. -/
theorem ofInt_toInt32 (x : Number) : BitVec.ofInt 32 x.toInt32 = x.word := BitVec.ofInt_toInt

/-- Numbers with truncations that agree modulo `2 ^ 32` have one word. -/
theorem toUint32_congr {x x' : Number} (h : x.truncate ≡ x'.truncate [ZMOD 2 ^ 32]) :
    x.toUint32 = x'.toUint32 := by
  have heq : x.truncate % 2 ^ 32 = x'.truncate % 2 ^ 32 := h
  rw [← toUint32_eq_emod, ← toUint32_eq_emod] at heq
  exact Int.natCast_inj.mp heq

/-! ## Operators -/

/-- The double of a whole number: it is equal to the whole number, and its zero is positive. -/
def IsDoubleOf (z : Number) (i : Int) : Prop := z.Equals i ∧ (z.isNegative = true ↔ i < 0)

/-- A whole number up to `2 ^ 53` is read as its double. -/
theorem isDoubleOf_ofInt (h : i.natAbs ≤ 2 ^ 53) : (ofInt i).IsDoubleOf i := by
  refine ⟨equals_ofInt h, ?_⟩
  rw [ofInt_eq rfl (representable_ones h)]
  exact decide_eq_true_iff

/-- A natural number up to `2 ^ 53` is read as its double. -/
theorem isDoubleOf_ofNat {k : Nat} (h : k ≤ 2 ^ 53) : (ofNat k).IsDoubleOf k :=
  isDoubleOf_ofInt (i := k) h

/-- A signed word is read as its double. -/
theorem isDoubleOf_toInt (w : BitVec 32) : (ofInt w.toInt).IsDoubleOf w.toInt := by
  have hlow := w.le_toInt
  have hhigh := w.toInt_lt
  exact isDoubleOf_ofInt (by omega)

/-- An unsigned word is read as its double. -/
theorem isDoubleOf_toNat (w : BitVec 32) : (ofNat w.toNat).IsDoubleOf w.toNat :=
  isDoubleOf_ofNat (Nat.le_trans (Nat.le_of_lt w.isLt) (by decide))

/-- The complement of a word is its negation less one. -/
theorem toInt_complement (w : BitVec 32) : (~~~w).toInt = -1 - w.toInt := by
  have hcases := w.toInt_eq_toNat_cond
  have hlt := w.isLt
  rw [BitVec.toInt_not, Int.bmod_eq_iff (by decide)]
  split at hcases <;> omega

/-- A word shifted to the left is multiplied by a power of two, modulo `2 ^ 32`. -/
theorem toInt_shiftLeft_eq_bmod (w : BitVec 32) (places : Nat) :
    (w <<< places).toInt = (w.toInt * 2 ^ places).bmod (2 ^ 32) := by
  rw [BitVec.toInt_shiftLeft, Nat.shiftLeft_eq, BitVec.toInt_eq_toNat_bmod, Int.bmod_mul_bmod]
  push_cast
  rfl

end Number

/-- The operators on words. -/
def Arithmetic.onWords : List Arithmetic :=
  [.bitOr, .bitAnd, .bitXor, .shiftLeft, .shiftRight, .shiftRightZeroFill]

/-- The result of an operator on two numbers is the double of a whole number. -/
def Arithmetic.Yields (op : Arithmetic) (x y : Number) (i : Int) : Prop :=
  ∃ z, Value.arithmetic op (.number x) (.number y) = .number z ∧ z.IsDoubleOf i

/-- An operator whose result is read from a signed word yields the double of the word. -/
theorem Arithmetic.Yields.of_word {op : Arithmetic} {x y : Number} {w : BitVec 32}
    (h : op.apply x y = .ofInt w.toInt) : op.Yields x y w.toInt :=
  ⟨_, congrArg Value.number h, Number.isDoubleOf_toInt w⟩

/-- Operators on words see no more of a number than its word. -/
theorem Arithmetic.apply_congr_word {op : Arithmetic} (hop : op ∈ onWords) {x x' y y' : Number}
    (hx : x.toUint32 = x'.toUint32) (hy : y.toUint32 = y'.toUint32) :
    op.apply x y = op.apply x' y' := by
  have hx' : x.word = x'.word := congrArg (BitVec.ofNat 32) hx
  have hy' : y.word = y'.word := congrArg (BitVec.ofNat 32) hy
  have hcount : y.shiftCount = y'.shiftCount := congrArg (· % 32) hy
  simp only [onWords, List.mem_cons, List.not_mem_nil, or_false] at hop
  rcases hop with rfl | rfl | rfl | rfl | rfl | rfl <;>
    simp only [apply, Number.bitOr, Number.bitAnd, Number.bitXor, Number.shiftLeft,
      Number.shiftRight, Number.shiftRightZeroFill, hx', hy', hcount]

/-- **Bitwise operators.** The unsigned word of a finite number is the one number from zero up to
`2 ^ 32 - 1` that its truncation is congruent to modulo `2 ^ 32`, and the signed word the one from
`-2 ^ 31` up to `2 ^ 31 - 1`; other numbers have the word zero. On all numbers the operators yield
the doubles of the whole numbers that are the two's complement operations on the signed words, or on
the unsigned one for the shift that fills with zeros. The places to shift by are the word modulo 32,
so they are always fewer than the bits. Nothing else than the truncations modulo `2 ^ 32` matters
for the results. -/
theorem bitwise_spec :
    (∀ x : Number, x.isFinite = true →
      x.truncate = x.rank.tdiv unitsPerOne ∧
      (∀ u : Int, (x.toUint32 : Int) = u ↔
        (0 ≤ u ∧ u < 2 ^ 32) ∧ u ≡ x.truncate [ZMOD 2 ^ 32]) ∧
      ∀ i : Int, x.toInt32 = i ↔
        (-2 ^ 31 ≤ i ∧ i < 2 ^ 31) ∧ i ≡ x.truncate [ZMOD 2 ^ 32]) ∧
    (∀ x : Number, x.isFinite = false → x.toUint32 = 0 ∧ x.toInt32 = 0) ∧
    (∀ x y : Number,
      let a := BitVec.ofInt 32 x.toInt32
      let b := BitVec.ofInt 32 y.toInt32
      let places := y.toUint32 % 32
      Arithmetic.bitOr.Yields x y (a ||| b).toInt ∧
      Arithmetic.bitAnd.Yields x y (a &&& b).toInt ∧
      Arithmetic.bitXor.Yields x y (a ^^^ b).toInt ∧
      y.shiftCount < 32 ∧
      Arithmetic.shiftLeft.Yields x y ((x.toInt32 * 2 ^ places).bmod (2 ^ 32)) ∧
      Arithmetic.shiftRight.Yields x y (x.toInt32 / 2 ^ places) ∧
      Arithmetic.shiftRightZeroFill.Yields x y (x.toUint32 / 2 ^ places) ∧
      ∃ z, Value.signed .complement (.number x) = .number z ∧ z.IsDoubleOf (-1 - x.toInt32)) ∧
    ∀ x x' y y' : Number, x.truncate ≡ x'.truncate [ZMOD 2 ^ 32] →
      y.truncate ≡ y'.truncate [ZMOD 2 ^ 32] →
      (∀ op ∈ Arithmetic.onWords, op.apply x y = op.apply x' y') ∧
        Sign.complement.apply x = Sign.complement.apply x' := by
  refine ⟨fun x hfinite => ⟨Number.truncate_eq_tdiv hfinite, fun u => Number.toUint32_eq_iff,
    fun i => Number.toInt32_eq_iff⟩, fun x => Number.word_of_not_finite, fun x y => ?_,
    fun x x' y y' hx hy => ?_⟩
  · intro a b places
    have ha : a = x.word := x.ofInt_toInt32
    have hb : b = y.word := y.ofInt_toInt32
    have hleft : (x.word <<< places).toInt = (x.toInt32 * 2 ^ places).bmod (2 ^ 32) :=
      Number.toInt_shiftLeft_eq_bmod x.word places
    have hright : (x.word.sshiftRight places).toInt = x.toInt32 / 2 ^ places := by
      rw [BitVec.toInt_sshiftRight, Int.shiftRight_eq_div_pow, Int.natCast_pow]
      rfl
    have hfill : ((x.word >>> places).toNat : Int) = x.toUint32 / 2 ^ places := by
      rw [BitVec.toNat_ushiftRight, Nat.shiftRight_eq_div_pow, x.toNat_word]
      push_cast
      rfl
    have hcomplement : (~~~x.word).toInt = -1 - x.toInt32 := Number.toInt_complement x.word
    rw [ha, hb, ← hleft, ← hright, ← hfill, ← hcomplement]
    exact ⟨.of_word rfl, .of_word rfl, .of_word rfl, Nat.mod_lt _ (by decide), .of_word rfl,
      .of_word rfl, ⟨x.shiftRightZeroFill y, rfl, Number.isDoubleOf_toNat (x.word >>> places)⟩,
      x.bitNot, rfl, Number.isDoubleOf_toInt (~~~x.word)⟩
  · have hword := Number.toUint32_congr hx
    have hcomplement : x.bitNot = x'.bitNot := by
      rw [Number.bitNot, Number.word, hword]
      rfl
    exact ⟨fun op hop => Arithmetic.apply_congr_word hop hword (Number.toUint32_congr hy),
      hcomplement⟩

/-- A number half a one below `-2 ^ 32 - 1` counts as minus one, and minus 31 places are one place. -/
theorem bitwise_spec_beyond_words :
    let x := Number.ofRatio true 8589934595 2
    let y := Number.ofInt (-31)
    x.toUint32 = 4294967295 ∧ x.toInt32 = -1 ∧ (Number.infinity true).toInt32 = 0 ∧
      Arithmetic.shiftLeft.Yields x y (-2) ∧ Arithmetic.shiftRight.Yields x y (-1) ∧
      Arithmetic.shiftRightZeroFill.Yields x y 2147483647 ∧
      ∀ op ∈ Arithmetic.onWords, op.apply x y = op.apply (.ofInt (-1)) (.ofInt 4294967265) := by
  intro x y
  obtain ⟨hwords, hother, hresults, hcongr⟩ := bitwise_spec
  obtain ⟨-, hunsigned, hsigned⟩ := hwords x (by decide +kernel)
  obtain ⟨-, hplaces, -⟩ := hwords y (by decide +kernel)
  have hx : x.toUint32 = 4294967295 :=
    Int.natCast_inj.mp ((hunsigned 4294967295).mpr ⟨by decide, by decide +kernel⟩)
  have hx' : x.toInt32 = -1 := (hsigned (-1)).mpr ⟨by decide, by decide +kernel⟩
  have hy : y.toUint32 = 4294967265 :=
    Int.natCast_inj.mp ((hplaces 4294967265).mpr ⟨by decide, by decide +kernel⟩)
  obtain ⟨-, -, -, -, hleft, hright, hfill, -⟩ := hresults x y
  rw [hx', hy] at hleft hright
  rw [hx, hy] at hfill
  have hsame := hcongr x (.ofInt (-1)) y (.ofInt 4294967265) (by decide +kernel)
    (by decide +kernel)
  exact ⟨hx, hx', (hother (.infinity true) rfl).2, hleft, hright, hfill, hsame.1⟩

end Folio
