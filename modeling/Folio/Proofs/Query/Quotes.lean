import Folio.Json.Escape
import Folio.Proofs.Query.Pieces
import Folio.Proofs.Text.Units

/-!
# Strings between quotes

A character between quotes is written as it is, by a short escape or by the escapes of its code units,
and each of these is read as the character. So a string is read however its characters are written.
-/

namespace Folio.Query

/-! ## Code units -/

/-- A digit stands for a value below 16, in lower or in upper case. -/
def IsHexDigit (value : Nat) (c : Char) : Prop :=
  c = Json.hexDigit value ∨ c = (Json.hexDigit value).toUpper

/-- Four digits stand for a code unit, each in lower or in upper case. -/
def SpellsUnit (unit : Nat) (digits : List Char) : Prop :=
  List.Forall₂ IsHexDigit [unit / 4096 % 16, unit / 256 % 16, unit / 16 % 16, unit % 16] digits

instance (value : Nat) (c : Char) : Decidable (IsHexDigit value c) :=
  inferInstanceAs (Decidable (_ ∨ _))

instance (unit : Nat) (digits : List Char) : Decidable (SpellsUnit unit digits) :=
  inferInstanceAs (Decidable (List.Forall₂ _ _ _))

/-- A digit is read as its value. -/
theorem IsHexDigit.spec {value : Nat} {c : Char} (h : IsHexDigit value c) (hvalue : value < 16) :
    isHexDigit c = true ∧ hexDigitValue c = value := by
  have hlower : ∀ v : Fin 16, isHexDigit (Json.hexDigit v) = true ∧
      hexDigitValue (Json.hexDigit v) = v := by decide
  have hupper : ∀ v : Fin 16, isHexDigit (Json.hexDigit v).toUpper = true ∧
      hexDigitValue (Json.hexDigit v).toUpper = v := by decide
  rcases h with rfl | rfl
  · exact hlower ⟨value, hvalue⟩
  · exact hupper ⟨value, hvalue⟩

/-- Four digits are read as the code unit that they stand for. -/
theorem SpellsUnit.hexQuad? {unit : Nat} {digits : List Char} (h : SpellsUnit unit digits)
    (hunit : unit < 0x10000) (rest : List Char) :
    Query.hexQuad? (digits ++ rest) = some (unit, rest) := by
  unfold SpellsUnit at h
  obtain _ | ⟨ha, _ | ⟨hb, _ | ⟨hc, _ | ⟨hd, ⟨⟩⟩⟩⟩⟩ := h
  rename_i a b c d
  have hlt (n : Nat) : n % 16 < 16 := Nat.mod_lt n (by decide)
  obtain ⟨ha, havalue⟩ := ha.spec (hlt _)
  obtain ⟨hb, hbvalue⟩ := hb.spec (hlt _)
  obtain ⟨hc, hcvalue⟩ := hc.spec (hlt _)
  obtain ⟨hd, hdvalue⟩ := hd.spec (hlt _)
  have hvalue : digitsValue 16 [a, b, c, d] = unit := by
    simp only [digitsValue, List.foldl_cons, List.foldl_nil, havalue, hbvalue, hcvalue, hdvalue]
    omega
  simp [Query.hexQuad?, ha, hb, hc, hd, hvalue]

/-- The code of a character is the code of that character. -/
theorem charOfCode_toNat (c : Char) : charOfCode c.toNat = c := by
  have hvalid : c.toNat.isValidChar := c.valid
  rw [charOfCode, dif_pos hvalid]
  rfl

/-- A code unit is written as an escape. -/
def EscapesUnit (unit : Nat) (text : List Char) : Prop :=
  ∃ digits, SpellsUnit unit digits ∧ text = '\\' :: 'u' :: digits

/-- The escapes of the code units of a character are read as the character, the first one up to its
letter. -/
theorem unicodeEscape?_units {c : Char} {escapes : List (List Char)}
    (h : List.Forall₂ EscapesUnit (Text.charUnits c) escapes) (rest : List Char) :
    ∃ digits, escapes.flatten ++ rest = '\\' :: 'u' :: digits ∧
      unicodeEscape? digits = some (c, rest) := by
  have hbounds := Text.toNat_char_bounds c
  unfold Text.charUnits Text.firstPair at h
  split at h
  next hsingle =>
    obtain _ | ⟨⟨digits, hdigits, rfl⟩, ⟨⟩⟩ := h
    refine ⟨digits ++ rest, by simp, ?_⟩
    rw [unicodeEscape?_single (hdigits.hexQuad? hsingle rest) fun _ _ => by omega,
      charOfCode_toNat]
  next hpair =>
    obtain ⟨offset, hoffset⟩ := Nat.exists_eq_add_of_le (Nat.le_of_not_lt hpair)
    have hrange : offset < 0x100000 := by omega
    rw [hoffset, Nat.add_sub_cancel_left] at h
    obtain _ | ⟨⟨high, hhigh, rfl⟩, _ | ⟨⟨low, hlow, rfl⟩, ⟨⟩⟩⟩ := h
    have hhighrange : 0xD800 ≤ 0xD800 + offset / 0x400 ∧ 0xD800 + offset / 0x400 < 0xDC00 := by
      omega
    have hread := unicodeEscape?_pair
      (hhigh.hexQuad? (by omega) ('\\' :: 'u' :: (low ++ rest))) hhighrange
      (hlow.hexQuad? (by omega) rest)
    refine ⟨high ++ '\\' :: 'u' :: (low ++ rest), by simp, ?_⟩
    have hcode : 0x10000 + (0xD800 + offset / 0x400 - 0xD800) * 0x400 +
        (0xDC00 + offset % 0x400) % 0x400 = c.toNat := by
      omega
    rw [hread, hcode, charOfCode_toNat]

/-! ## Characters between quotes -/

/-- The letters of the short escapes with the characters that they stand for. -/
def shortEscapes : List (Char × Char) :=
  [('"', '"'), ('\\', '\\'), ('/', '/'), ('b', '\x08'), ('f', '\x0c'), ('n', '\n'), ('r', '\r'),
    ('t', '\t')]

/-- The ways to write a character between quotes. -/
inductive Spells (quote : Char) : Char → List Char → Prop where
  /-- As it is, if it is neither the quote nor the backslash. -/
  | raw {c : Char} (hquote : c ≠ quote) (hslash : c ≠ '\\') : Spells quote c [c]
  /-- The quote after a backslash. -/
  | quote : Spells quote quote ['\\', quote]
  /-- A short escape. -/
  | short {letter c : Char} (h : (letter, c) ∈ shortEscapes) : Spells quote c ['\\', letter]
  /-- An escape for each of its code units. -/
  | units {c : Char} {escapes : List (List Char)}
    (h : List.Forall₂ EscapesUnit (Text.charUnits c) escapes) : Spells quote c escapes.flatten

/-- A short escape is read as its character. -/
theorem escape?_short {letter c : Char} (h : (letter, c) ∈ shortEscapes) (rest : List Char) :
    escape? letter rest = some (c, rest) := by
  have hall : ∀ e ∈ shortEscapes, e.1 ≠ 'u' ∧ letterEscape e.1 = e.2 := by decide
  obtain ⟨hletter, hc⟩ := hall _ h
  rw [escape?, if_neg hletter, hc]

variable {quote : Char}

/-- A character is read in each of the ways to write it. -/
theorem Spells.stringBody {c : Char} {spelled : List Char} (h : Spells quote c spelled)
    (hquote : quote = '"' ∨ quote = '\'') (start rest : List Char) :
    Query.stringBody quote start (spelled ++ rest) =
      (Query.stringBody quote start rest).map fun (body, last) => (c :: body, last) := by
  have hslash : '\\' ≠ quote := by rcases hquote with rfl | rfl <;> decide
  cases h with
  | raw hother hslash => exact stringBody_other hother hslash
  | quote =>
    have hread : escape? quote rest = some (quote, rest) := by
      rcases hquote with rfl | rfl <;> rfl
    exact stringBody_escape hslash hread
  | short h => exact stringBody_escape hslash (escape?_short h rest)
  | units h =>
    obtain ⟨digits, hescapes, hread⟩ := unicodeEscape?_units h rest
    rw [hescapes]
    exact stringBody_escape hslash (by rw [escape?, if_pos rfl, hread])

/-- Characters are read up to the quote after them, however they are written. -/
theorem stringBody_spelled {cs : List Char} {pieces : List (List Char)}
    (h : List.Forall₂ (Spells quote) cs pieces) (hquote : quote = '"' ∨ quote = '\'')
    (start rest : List Char) :
    stringBody quote start (pieces.flatten ++ quote :: rest) = .ok (cs, rest) := by
  induction h with
  | nil => exact stringBody_quote quote start rest
  | cons hc _ ih =>
    rw [List.flatten_cons, List.append_assoc, hc.stringBody hquote, ih]
    rfl

/-- A text in quotes is the only token of its text. -/
theorem tokens_quoted (hquote : quote = '"' ∨ quote = '\'') {inside body : List Char}
    (hbody : ∀ start, stringBody quote start (inside ++ [quote]) = .ok (body, [])) :
    tokens (String.ofList (quote :: (inside ++ [quote]))) =
      .ok [⟨.string (String.ofList body), 0⟩,
        ⟨.finish, Text.byteLength (quote :: (inside ++ [quote]))⟩] := by
  have hskip : skipTrivia (quote :: (inside ++ [quote])) = quote :: (inside ++ [quote]) := by
    rcases hquote with rfl | rfl <;> rfl
  have hread : lexeme quote (inside ++ [quote]) = .ok (.string (String.ofList body), []) := by
    have hdigit : ¬BeginsNumber quote (inside ++ [quote]) := by
      rcases hquote with rfl | rfl <;> exact Bool.false_ne_true
    rw [lexeme, if_neg hdigit, if_pos hquote.symm, hbody]
    rfl
  rw [tokens_eq_ok_iff, String.toList_ofList, tokensFrom_of_lexeme hskip hread,
    tokensFrom_of_skipTrivia_eq_nil rfl]
  simp [Except.map]

/-- **String literals.** A string between double or single quotes is the only token of its text,
whatever mix of the ways to write its characters is used. -/
theorem tokens_stringLiteral (hquote : quote = '"' ∨ quote = '\'') {s : String}
    {pieces : List (List Char)} (h : List.Forall₂ (Spells quote) s.toList pieces) :
    tokens (String.ofList (quote :: (pieces.flatten ++ [quote]))) =
      .ok [⟨.string s, 0⟩,
        ⟨.finish, Text.byteLength (quote :: (pieces.flatten ++ [quote]))⟩] := by
  have hread := tokens_quoted hquote fun start => stringBody_spelled h hquote start []
  rwa [String.ofList_toList] at hread

/-- A text between double quotes with a raw character, short escapes and escapes of one and two code
units in both cases, and a text between single quotes with an escaped quote. -/
theorem tokens_stringLiteral_each_way :
    tokens "\"a\\\"\\/\\n\\u00e9\\uD83d\\uDE00\"" =
        .ok [⟨.string "a\"/\né😀", 0⟩, ⟨.finish, 27⟩] ∧
      tokens "'it\\'s \\u00C9'" = .ok [⟨.string "it's É", 0⟩, ⟨.finish, 14⟩] := by
  have hraw {quote c : Char} (h : c ≠ quote ∧ c ≠ '\\') : Spells quote c [c] := .raw h.1 h.2
  have hshort {quote c : Char} (letter : Char) (h : (letter, c) ∈ shortEscapes) :
      Spells quote c ['\\', letter] := .short h
  have hunit (unit : Nat) (digits : List Char) (h : SpellsUnit unit digits) :
      EscapesUnit unit ('\\' :: 'u' :: digits) := ⟨digits, h, rfl⟩
  obtain ⟨pieces, hpieces, htext⟩ : ∃ pieces,
      List.Forall₂ (Spells '"') "a\"/\né😀".toList pieces ∧
        '"' :: (pieces.flatten ++ ['"']) = "\"a\\\"\\/\\n\\u00e9\\uD83d\\uDE00\"".toList :=
    ⟨_, .cons (hraw (by decide)) <| .cons (hshort '"' (by decide)) <|
      .cons (hshort '/' (by decide)) <| .cons (hshort 'n' (by decide)) <|
      .cons (.units (.cons (hunit 0xE9 ['0', '0', 'e', '9'] (by decide)) .nil)) <|
      .cons (.units (.cons (hunit 0xD83D ['D', '8', '3', 'd'] (by decide))
        (.cons (hunit 0xDE00 ['D', 'E', '0', '0'] (by decide)) .nil))) .nil, rfl⟩
  obtain ⟨singles, hsingles, hsingle⟩ : ∃ pieces,
      List.Forall₂ (Spells '\'') "it's É".toList pieces ∧
        '\'' :: (pieces.flatten ++ ['\'']) = "'it\\'s \\u00C9'".toList :=
    ⟨_, .cons (hraw (by decide)) <| .cons (hraw (by decide)) <| .cons .quote <|
      .cons (hraw (by decide)) <| .cons (hraw (by decide)) <|
      .cons (.units (.cons (hunit 0xC9 ['0', '0', 'C', '9'] (by decide)) .nil)) .nil, rfl⟩
  have hreadDouble := tokens_stringLiteral (.inl rfl) hpieces
  have hreadSingle := tokens_stringLiteral (.inr rfl) hsingles
  rw [htext, String.ofList_toList] at hreadDouble
  rw [hsingle, String.ofList_toList] at hreadSingle
  exact ⟨hreadDouble, hreadSingle⟩

end Folio.Query
