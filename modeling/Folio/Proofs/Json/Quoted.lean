import Folio.Json.Escape
import Folio.Json.Lexeme

/-!
# Quoted texts read back

Each character of a text in quotes is read as one part: the code of an escape for a character
written by its code, and the character itself otherwise. If the short escapes are those of JSON texts
and no character is left as it is that needs an escape, the parts stand for the characters that they
were written for, so a text in quotes stands for the text.
-/

namespace Folio.Json

/-- A hexadecimal digit has the value that it is the digit of. -/
theorem hexValue?_hexDigit {value : Nat} (h : value < 16) :
    hexValue? (hexDigit value) = some value := by
  have hall : ∀ v : Fin 16, hexValue? (hexDigit v) = some v.val := by decide
  exact hall ⟨value, h⟩

/-- Four hexadecimal digits stand for the code that they are the digits of. -/
theorem codeOf?_fourDigits {code : Nat} (h : code < 65536) :
    codeOf? (hexDigit (code / 4096 % 16)) (hexDigit (code / 256 % 16))
      (hexDigit (code / 16 % 16)) (hexDigit (code % 16)) = some code := by
  have hlt (n : Nat) : n % 16 < 16 := Nat.mod_lt n (by decide)
  simp only [codeOf?, hexValue?_hexDigit (hlt _), Option.bind_eq_bind, Option.bind_some,
    Option.pure_def, Option.some.injEq]
  omega

/-- The code of a character by itself stands for the character, whatever part follows. -/
theorem textOfParts?_code {code : Nat} (h : code < firstHalf) (rest : List QuotedPart) :
    textOfParts? (.code code :: rest) = (textOfParts? rest).map (Char.ofNat code :: ·) := by
  have hfirst : ¬ firstHalf ≤ code := by omega
  have hsecond : ¬ secondHalf ≤ code := by
    have : firstHalf ≤ secondHalf := by decide
    omega
  cases rest with
  | nil => simp [textOfParts?, hfirst]
  | cons part rest => cases part <;> simp [textOfParts?, hfirst, hsecond]

/-! ## Escapes that are read back -/

namespace Escaping

/-- Whether what is escaped can be read back: short escapes stand for what they are written for, no
quote, backslash or character below the space is left as it is, and codes are written only for
characters that are no halves of a pair. -/
structure Readable (escaping : Escaping) : Prop where
  short {c mark : Char} : escaping.short c = some mark → shortEscape? mark = some c
  plain {c : Char} : escaping.short c = none → escaping.coded c = false →
    c ≠ '"' ∧ c ≠ '\\' ∧ ¬ c < ' '
  coded {c : Char} : escaping.coded c = true → c.toNat < firstHalf

/-- The part as which a character is read. -/
def partOf (escaping : Escaping) (c : Char) : QuotedPart :=
  if escaping.short c = none ∧ escaping.coded c then .code c.toNat else .char c

/-- The parts as which a text in quotes is read. -/
def partsOf (escaping : Escaping) (text : String) : List QuotedPart :=
  text.toList.map escaping.partOf

namespace Readable

variable {escaping : Escaping} (h : escaping.Readable)
include h

/-- A character inside a quoted text is read as one part. -/
theorem quotedParts?_char (c : Char) (rest : List (Option Char)) :
    quotedParts? ((escaping.char c).map some ++ rest) =
      (quotedParts? rest).map fun (parts, last) => (escaping.partOf c :: parts, last) := by
  unfold Escaping.char partOf
  cases hshort : escaping.short c with
  | some mark =>
    have hmark := h.short hshort
    have hne : mark ≠ 'u' := by
      rintro rfl
      cases hmark
    simp only [reduceCtorEq, false_and, if_false, List.map_cons, List.map_nil, List.cons_append,
      List.nil_append]
    rw [quotedParts?, hmark]
    · cases quotedParts? rest <;> rfl
    · intro _ _ _ _ _ _ hcode
      exact hne hcode
  | none =>
    by_cases hcoded : escaping.coded c = true
    · have hcode : c.toNat < 65536 := Nat.lt_trans (h.coded hcoded) (by decide)
      simp only [hcoded, and_self, if_true, fourDigits, List.map_cons, List.map_nil,
        List.cons_append, List.nil_append]
      rw [quotedParts?, codeOf?_fourDigits hcode]
      cases quotedParts? rest <;> rfl
    · have hplain : escaping.coded c = false := by simpa using hcoded
      obtain ⟨hquote, hslash, hspace⟩ := h.plain hshort hplain
      simp only [hplain, Bool.false_eq_true, and_false, if_false, List.map_cons, List.map_nil,
        List.cons_append, List.nil_append]
      rw [quotedParts?]
      · simp [hslash, hspace]
      · exact hquote
      · intro _ _ _ _ _ _ hescape
        exact hslash hescape
      · intro _ _ _ hescape
        exact hslash hescape

/-- A text in quotes is read as its parts. -/
theorem quotedParts?_quote (cs : List Char) (rest : List (Option Char)) :
    quotedParts? ((cs.flatMap escaping.char ++ ['"']).map some ++ rest) =
      some (cs.map escaping.partOf, rest) := by
  induction cs with
  | nil => simp [quotedParts?]
  | cons c cs ih =>
    rw [List.flatMap_cons, List.append_assoc, List.map_append, List.append_assoc,
      h.quotedParts?_char, ih]
    rfl

/-- The parts of a text stand for the text. -/
theorem textOfParts?_partsOf (text : String) :
    textOfParts? (escaping.partsOf text) = some text.toList := by
  unfold partsOf
  induction text.toList with
  | nil => rfl
  | cons c cs ih =>
    rw [List.map_cons, partOf]
    split
    next hcoded =>
      rw [textOfParts?_code (h.coded hcoded.2), ih, Option.map_some, Char.ofNat_toNat]
    next => rw [textOfParts?, ih, Option.map_some]

end Readable

end Escaping

/-! ## The escapes of JSON texts -/

/-- The parts of a quoted text. -/
def partsOf (text : String) : List QuotedPart := escaping.partsOf text

/-- What JSON texts escape is read back. -/
theorem readable_escaping : escaping.Readable where
  short h := by
    unfold escaping at h
    simp only at h
    repeat' split at h
    all_goals first
      | cases h
        subst_vars
        rfl
      | cases h
  plain {c} hshort hcoded := by
    refine ⟨?_, ?_, by simpa [escaping] using hcoded⟩
    · rintro rfl
      simp [escaping] at hshort
    · rintro rfl
      simp [escaping] at hshort
  coded {c} h := by
    have hlt : c < ' ' := by simpa [escaping] using h
    have hspace : c.toNat < 32 := hlt
    exact Nat.lt_trans hspace (by decide)

end Folio.Json
