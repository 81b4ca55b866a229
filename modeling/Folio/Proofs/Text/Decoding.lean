import Folio.Proofs.Text.Units

/-!
# Characters from code units

A list of code units that is no text is decoded with replacement: two units that make a pair give the
character of the pair, and a surrogate that belongs to no pair gives the replacement character. The
units of a text are decoded as the text.
-/

namespace Folio.Text

/-- A unit is the first half of a pair. -/
def IsHigh (unit : Nat) : Prop := 0xD800 ≤ unit ∧ unit < 0xDC00

/-- A unit is the second half of a pair. -/
def IsLow (unit : Nat) : Prop := 0xDC00 ≤ unit ∧ unit < 0xE000

instance (unit : Nat) : Decidable (IsHigh unit) := inferInstanceAs (Decidable (_ ∧ _))

instance (unit : Nat) : Decidable (IsLow unit) := inferInstanceAs (Decidable (_ ∧ _))

/-- The character that stands for a half without the other one. -/
def replacement : Char := '\uFFFD'

/-- The character of a pair. -/
def pairChar (high low : Nat) : Char :=
  Char.ofNat (firstPair + (high - 0xD800) * 0x400 + (low - 0xDC00))

/-- The character of a unit that belongs to no pair. -/
def unitChar (unit : Nat) : Char :=
  if IsHigh unit ∨ IsLow unit then replacement else Char.ofNat unit

/-- The characters of code units, with replacement. -/
def decodeUnits : List Nat → List Char
  | [] => []
  | [unit] => [unitChar unit]
  | unit :: next :: rest =>
    if IsHigh unit ∧ IsLow next then pairChar unit next :: decodeUnits rest
    else unitChar unit :: decodeUnits (next :: rest)

/-- A unit before one that makes no pair with it is decoded by itself. -/
theorem decodeUnits_cons_of_alone {unit : Nat} {rest : List Nat}
    (h : ∀ next, rest.head? = some next → ¬(IsHigh unit ∧ IsLow next)) :
    decodeUnits (unit :: rest) = unitChar unit :: decodeUnits rest := by
  cases rest with
  | nil => rfl
  | cons next rest => rw [decodeUnits, if_neg (h next rfl)]

/-- The units of a character are decoded as the character. -/
theorem decodeUnits_charUnits_append (c : Char) (rest : List Nat) :
    decodeUnits (charUnits c ++ rest) = c :: decodeUnits rest := by
  have hbounds := toNat_char_bounds c
  unfold charUnits
  split
  next hsingle =>
    have hsurrogate : ¬(IsHigh c.toNat ∨ IsLow c.toNat) := by
      unfold IsHigh IsLow
      omega
    rw [List.singleton_append, decodeUnits_cons_of_alone fun next _ h => hsurrogate (.inl h.1),
      unitChar, if_neg hsurrogate, Char.ofNat_toNat]
  next hpair =>
    unfold firstPair at hpair
    have hhalves : IsHigh (0xD800 + (c.toNat - firstPair) / 0x400) ∧
        IsLow (0xDC00 + (c.toNat - firstPair) % 0x400) := by
      unfold IsHigh IsLow firstPair
      omega
    have hcode : firstPair + (0xD800 + (c.toNat - firstPair) / 0x400 - 0xD800) * 0x400 +
        (0xDC00 + (c.toNat - firstPair) % 0x400 - 0xDC00) = c.toNat := by
      unfold firstPair
      omega
    rw [List.cons_append, List.singleton_append, decodeUnits, if_pos hhalves, pairChar, hcode,
      Char.ofNat_toNat]

/-- **Decoding.** The units of a text are decoded as the text. -/
theorem decodeUnits_units (text : String) : decodeUnits (units text) = text.toList := by
  unfold units
  induction text.toList with
  | nil => rfl
  | cons c cs ih => rw [List.flatMap_cons, decodeUnits_charUnits_append, ih]

/-- Each first half that another unit follows makes a pair with it. -/
def Paired (units : List Nat) : Prop :=
  ∀ front high next rest, units = front ++ high :: next :: rest → IsHigh high → IsLow next

/-- Units are paired if the first one is with the one after it and the others are. -/
theorem paired_cons_iff {unit : Nat} {rest : List Nat} : Paired (unit :: rest) ↔
    (∀ next, rest.head? = some next → IsHigh unit → IsLow next) ∧ Paired rest := by
  constructor
  · refine fun h => ⟨fun next hnext => ?_, fun front high low others hrest => ?_⟩
    · obtain ⟨others, rfl⟩ := List.head?_eq_some_iff.mp hnext
      exact h [] unit next others rfl
    · exact h (unit :: front) high low others (congrArg (unit :: ·) hrest)
  · rintro ⟨hfirst, hrest⟩ front high low others hunits
    cases front with
    | nil =>
      cases hunits
      exact hfirst low rfl
    | cons head front => exact hrest front high low others (List.cons.inj hunits).2

end Folio.Text
