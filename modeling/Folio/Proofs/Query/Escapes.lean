import Folio.Proofs.Query.Quotes
import Folio.Proofs.Text.Decoding

/-!
# Escapes in a row

Escapes of code units between quotes are read from left to right, and an escape of the first half of a
pair is read together with the escape after it, whatever that one is. So the units are decoded with
replacement exactly if no first half is followed by anything but a second half.
-/

namespace Folio.Query

open Text (IsHigh IsLow Paired decodeUnits pairChar unitChar)

/-- The characters that escapes of code units are read as. A first half is put together with the low
ten bits of the unit after it. -/
def escapedChars : List Nat → List Char
  | [] => []
  | [unit] => [charOfCode unit]
  | unit :: next :: rest =>
    if IsHigh unit then
      charOfCode (0x10000 + (unit - 0xD800) * 0x400 + next % 0x400) :: escapedChars rest
    else charOfCode unit :: escapedChars (next :: rest)

/-! ## Characters -/

/-- A code that is valid gives its character. -/
theorem charOfCode_of_isValidChar {code : Nat} (h : code.isValidChar) :
    charOfCode code = Char.ofNat code := by
  rw [charOfCode, dif_pos h, Char.ofNat, dif_pos h]

/-- A code that is valid is that of its character. -/
theorem toNat_charOfCode {code : Nat} (h : code.isValidChar) : (charOfCode code).toNat = code := by
  rw [charOfCode, dif_pos h]
  rfl

/-- A code unit by itself gives its character, or the replacement character if it is one half of a
pair. -/
theorem charOfCode_unit {unit : Nat} (h : unit < 0x10000) : charOfCode unit = unitChar unit := by
  unfold unitChar
  split
  next hhalf =>
    refine dif_neg ?_
    unfold IsHigh IsLow at hhalf
    unfold Nat.isValidChar
    omega
  next hhalf =>
    refine charOfCode_of_isValidChar ?_
    unfold IsHigh IsLow at hhalf
    unfold Nat.isValidChar
    omega

/-- A first half and ten bits give the code of a character above those of single units. -/
theorem isValidChar_pair {high bits : Nat} (hhigh : IsHigh high) (hbits : bits < 0x400) :
    (0x10000 + (high - 0xD800) * 0x400 + bits).isValidChar := by
  unfold IsHigh at hhigh
  unfold Nat.isValidChar
  omega

/-- A first half with a second half gives the character of the pair. -/
theorem charOfCode_pair {high low : Nat} (hhigh : IsHigh high) (hlow : IsLow low) :
    charOfCode (0x10000 + (high - 0xD800) * 0x400 + low % 0x400) = pairChar high low := by
  rw [charOfCode_of_isValidChar (isValidChar_pair hhigh (Nat.mod_lt low (by decide)))]
  have hbits : low % 0x400 = low - 0xDC00 := by
    unfold IsLow at hlow
    omega
  rw [hbits]
  rfl

/-- No first half gives the replacement character with the unit after it. -/
theorem charOfCode_pair_ne_unitChar {high : Nat} (hhigh : IsHigh high) (next : Nat) :
    charOfCode (0x10000 + (high - 0xD800) * 0x400 + next % 0x400) ≠ unitChar high := by
  intro h
  rw [unitChar, if_pos (.inl hhigh)] at h
  have hcode := congrArg Char.toNat h
  rw [toNat_charOfCode (isValidChar_pair hhigh (Nat.mod_lt next (by decide)))] at hcode
  have hreplacement : Text.replacement.toNat = 0xFFFD := rfl
  omega

/-! ## Reading -/

variable {quote : Char} {units : List Nat} {escapes : List (List Char)}

section

variable {unit next : Nat} {digits more : List Char} {start : List Char}

/-- An escape of a code unit is read as its character, unless it is the first half of a pair and another
escape follows. -/
theorem stringBody_unit (hdigits : SpellsUnit unit digits) (hunit : unit < 0x10000)
    (hslash : '\\' ≠ quote) (after : List Char)
    (halone : ∀ more, after = '\\' :: 'u' :: more → ¬IsHigh unit) :
    stringBody quote start ('\\' :: 'u' :: (digits ++ after)) =
      (stringBody quote start after).map fun (body, last) => (charOfCode unit :: body, last) := by
  refine stringBody_escape hslash ?_
  rw [escape?, if_pos rfl, unicodeEscape?_single (hdigits.hexQuad? hunit after) halone]

/-- An escape of a first half is read together with the escape after it. -/
theorem stringBody_pair (hdigits : SpellsUnit unit digits) (hunit : unit < 0x10000)
    (hhigh : IsHigh unit) (hmore : SpellsUnit next more) (hnext : next < 0x10000)
    (hslash : '\\' ≠ quote) (after : List Char) :
    stringBody quote start ('\\' :: 'u' :: (digits ++ '\\' :: 'u' :: (more ++ after))) =
      (stringBody quote start after).map fun (body, last) =>
        (charOfCode (0x10000 + (unit - 0xD800) * 0x400 + next % 0x400) :: body, last) := by
  refine stringBody_escape hslash ?_
  rw [escape?, if_pos rfl,
    unicodeEscape?_pair (hdigits.hexQuad? hunit _) hhigh (hmore.hexQuad? hnext after)]

end

/-- Escapes of code units are read up to the quote after them. -/
theorem stringBody_escapes (h : List.Forall₂ EscapesUnit units escapes)
    (hunits : ∀ unit ∈ units, unit < 0x10000) (hquote : quote = '"' ∨ quote = '\'')
    (start rest : List Char) :
    stringBody quote start (escapes.flatten ++ quote :: rest) = .ok (escapedChars units, rest) := by
  have hslash : '\\' ≠ quote := by rcases hquote with rfl | rfl <;> decide
  fun_induction escapedChars units generalizing escapes with
  | case1 =>
    cases h
    exact stringBody_quote quote start rest
  | case2 unit =>
    obtain _ | ⟨⟨digits, hdigits, rfl⟩, ⟨⟩⟩ := h
    have hunit := hunits unit (List.mem_singleton_self unit)
    rw [List.flatten_singleton, List.cons_append, List.cons_append,
      stringBody_unit hdigits hunit hslash _ fun more hmore =>
        absurd (List.cons.inj hmore).1.symm hslash, stringBody_quote]
    rfl
  | case3 unit next others hhigh ih =>
    obtain _ | ⟨⟨digits, hdigits, rfl⟩, _ | ⟨⟨more, hmore, rfl⟩, hothers⟩⟩ := h
    obtain ⟨hunit, hunits⟩ := List.forall_mem_cons.mp hunits
    obtain ⟨hnext, hunits⟩ := List.forall_mem_cons.mp hunits
    simp only [List.flatten_cons, List.cons_append, List.append_assoc]
    rw [stringBody_pair hdigits hunit hhigh hmore hnext hslash, ih hothers hunits]
    rfl
  | case4 unit next others hhigh ih =>
    obtain _ | ⟨⟨digits, hdigits, rfl⟩, hothers⟩ := h
    obtain ⟨hunit, hunits⟩ := List.forall_mem_cons.mp hunits
    simp only [List.flatten_cons, List.cons_append, List.append_assoc]
    rw [stringBody_unit hdigits hunit hslash _ fun _ _ => hhigh, ih hothers hunits]
    rfl

/-! ## Decoding with replacement -/

/-- Escapes are decoded with replacement exactly if each first half that another escape follows makes a
pair with it. -/
theorem escapedChars_eq_decodeUnits_iff (hunits : ∀ unit ∈ units, unit < 0x10000) :
    escapedChars units = decodeUnits units ↔ Paired units := by
  fun_induction escapedChars units with
  | case1 => simp [decodeUnits, Paired]
  | case2 unit =>
    rw [decodeUnits, charOfCode_unit (hunits unit (List.mem_singleton_self unit)),
      Text.paired_cons_iff]
    simp [Paired]
  | case3 unit next others hhigh ih =>
    obtain ⟨-, hunits⟩ := List.forall_mem_cons.mp hunits
    obtain ⟨-, hunits⟩ := List.forall_mem_cons.mp hunits
    rw [Text.paired_cons_iff, Text.paired_cons_iff, decodeUnits]
    by_cases hlow : IsLow next
    · have hnext : ¬IsHigh next := by
        unfold IsLow at hlow
        unfold IsHigh
        omega
      rw [if_pos ⟨hhigh, hlow⟩, charOfCode_pair hhigh hlow, List.cons_inj_right, ih hunits]
      simp [hlow, hnext]
    · rw [if_neg fun h => hlow h.2]
      refine iff_of_false (fun h => ?_) fun h => hlow (h.1 next rfl hhigh)
      exact charOfCode_pair_ne_unitChar hhigh next (List.cons.inj h).1
  | case4 unit next others hhigh ih =>
    obtain ⟨hunit, hunits⟩ := List.forall_mem_cons.mp hunits
    rw [Text.paired_cons_iff, decodeUnits, if_neg fun h => hhigh h.1, charOfCode_unit hunit,
      List.cons_inj_right, ih hunits]
    simp [hhigh]

/-- **Escapes in a row.** A string literal that is written with escapes of code units is the only token
of its text. Its characters are the units decoded with replacement exactly if each first half of a pair
that another escape follows makes a pair with it; any other escape after a first half is lost in one
character with it. -/
theorem tokens_unitEscapes (hquote : quote = '"' ∨ quote = '\'')
    (h : List.Forall₂ EscapesUnit units escapes) (hunits : ∀ unit ∈ units, unit < 0x10000) :
    tokens (String.ofList (quote :: (escapes.flatten ++ [quote]))) =
        .ok [⟨.string (String.ofList (escapedChars units)), 0⟩,
          ⟨.finish, Text.byteLength (quote :: (escapes.flatten ++ [quote]))⟩] ∧
      (escapedChars units = decodeUnits units ↔ Paired units) :=
  ⟨tokens_quoted hquote fun start => stringBody_escapes h hunits hquote start [],
    escapedChars_eq_decodeUnits_iff hunits⟩

/-- A pair, and a first half that takes the escape of a letter with it. -/
theorem tokens_unitEscapes_letter_lost :
    tokens "\"\\ud83d\\uDE00\\uD83D\\u0041\"" = .ok [⟨.string "😀👁", 0⟩, ⟨.finish, 26⟩] ∧
      decodeUnits [0xD83D, 0xDE00, 0xD83D, 0x41] = ['😀', '\uFFFD', 'A'] ∧
      ¬Paired [0xD83D, 0xDE00, 0xD83D, 0x41] := by
  have hunit (unit : Nat) (digits : List Char) (h : SpellsUnit unit digits) :
      EscapesUnit unit ('\\' :: 'u' :: digits) := ⟨digits, h, rfl⟩
  have hquote : '"' = '"' ∨ '"' = '\'' := .inl rfl
  obtain ⟨hread, hpaired⟩ := tokens_unitEscapes hquote
    (.cons (hunit 0xD83D ['d', '8', '3', 'd'] (by decide)) <|
      .cons (hunit 0xDE00 ['D', 'E', '0', '0'] (by decide)) <|
      .cons (hunit 0xD83D ['D', '8', '3', 'D'] (by decide)) <|
      .cons (hunit 0x41 ['0', '0', '4', '1'] (by decide)) .nil) (by decide)
  exact ⟨hread, rfl, fun h => absurd (hpaired.mpr h) (by decide)⟩

end Folio.Query
