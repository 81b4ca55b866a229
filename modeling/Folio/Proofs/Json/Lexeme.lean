import Folio.Proofs.Json.NumberText
import Folio.Proofs.Json.Quoted
import Mathlib.Data.List.Forall2

/-!
# The lexemes of a JSON text

The text of JSON data is read as the lexemes that were written, one after another. Only a number
could go on in what follows it, so that must not begin with a character of a number; brackets and
commas do not.
-/

namespace Folio.Json

/-- A text does not begin with a character that can occur in a number. -/
def EndsNumber (rest : List (Option Char)) : Prop := ∀ c ∈ rest.head?, isNumberPart c = false

/-- The written form of an integer. -/
def integerText (i : Int) : NumberText := ⟨i < 0, Decimal.digitChars i.natAbs, [], none⟩

/-- The lexeme of a double: a number, or null if it is not finite. -/
def floatLexeme (x : Number) : Lexeme :=
  match NumberText.ofChars? x.json.toList with
  | some n => .number n
  | none => .null

mutual

/-- The lexemes of JSON data. -/
def lexemes : Json → List Lexeme
  | .null => [.null]
  | .bool b => [.bool b]
  | .integer i => [.number (integerText i)]
  | .float x => [floatLexeme x]
  | .string s => [.string (partsOf s)]
  | .array items => .openArray :: [Lexeme.comma].intercalate (itemLexemes items) ++ [.closeArray]
  | .object entries =>
    .openObject :: [Lexeme.comma].intercalate (memberLexemes entries) ++ [.closeObject]

/-- The lexemes of each element of an array. -/
def itemLexemes : List Json → List (List Lexeme)
  | [] => []
  | item :: rest => lexemes item :: itemLexemes rest

/-- The lexemes of each entry of an object. -/
def memberLexemes : List (String × Json) → List (List Lexeme)
  | [] => []
  | (key, item) :: rest =>
    (.string (partsOf key) :: .colon :: lexemes item) :: memberLexemes rest

end

/-! ## One lexeme -/

/-- A lexeme at the front of a text is the first one read. -/
theorem lexemes?_cons {c : Char} {rest left : List (Option Char)} {found : Lexeme}
    (hblank : isBlank (some c) = false) (h : lexeme? c rest = some (found, left)) :
    lexemes? (some c :: rest) = (lexemes? left).map (found :: ·) := by
  have hfront : (some c :: rest).dropWhile isBlank = some c :: rest :=
    List.dropWhile_cons_of_neg (by simp [hblank])
  rw [lexemes?]
  split
  · next hnil => rw [hfront] at hnil; cases hnil
  · next hgap => rw [hfront] at hgap; cases hgap
  · next heq =>
    rw [hfront] at heq
    obtain ⟨hc, rfl⟩ := List.cons.inj heq
    obtain rfl := Option.some.inj hc
    split
    · next hnone => rw [h] at hnone; cases hnone
    · next hsome =>
      rw [h] at hsome
      obtain ⟨rfl, rfl⟩ := Prod.mk.inj (Option.some.inj hsome)
      rfl

/-- A number is read as far as it goes. -/
theorem lexeme?_number {c : Char} {cs : List Char} {n : NumberText} {rest : List (Option Char)}
    (h : NumberText.ofChars? (c :: cs) = some n) (hrest : EndsNumber rest) :
    lexeme? c (cs.map some ++ rest) = some (.number n, rest) := by
  obtain ⟨-, hparts⟩ := NumberText.isPart_of_ofChars? h
  have hfirst := hparts c List.mem_cons_self
  have hall : ∀ p ∈ cs.map some, isNumberPart p = true := by
    intro p hp
    obtain ⟨d, hd, rfl⟩ := List.mem_map.mp hp
    exact hparts d (List.mem_cons_of_mem c hd)
  have htake : rest.takeWhile isNumberPart = [] ∧ rest.dropWhile isNumberPart = rest := by
    cases rest with
    | nil => exact ⟨rfl, rfl⟩
    | cons p rest =>
      have hp := hrest p rfl
      exact ⟨List.takeWhile_cons_of_neg (by simp [hp]), List.dropWhile_cons_of_neg (by simp [hp])⟩
  have hchars : (cs.map some).reduceOption = cs := by
    change (cs.map some).filterMap id = cs
    simp
  unfold lexeme?
  split
  case h_11 =>
    rw [List.takeWhile_append_of_pos hall, List.dropWhile_append_of_pos hall, htake.1, htake.2,
      List.append_nil, hchars, h]
    rfl
  all_goals exact absurd hfirst (by decide)

/-- A quoted text is read as its parts. -/
theorem Escaping.Readable.lexeme?_quote {escaping : Escaping} (h : escaping.Readable)
    (text : String) (rest : List (Option Char)) :
    lexeme? '"' ((text.toList.flatMap escaping.char ++ ['"']).map some ++ rest) =
      some (.string (escaping.partsOf text), rest) := by
  rw [lexeme?, h.quotedParts?_quote]
  rfl

/-! ## Whole texts -/

/-- The end of a text ends a number. -/
theorem endsNumber_nil : EndsNumber [] := by
  intro c hc
  cases hc

/-- A character that cannot occur in a number ends one. -/
theorem endsNumber_cons {c : Char} (h : NumberText.isPart c = false) (rest : List (Option Char)) :
    EndsNumber (some c :: rest) := by
  intro d hd
  obtain rfl := Option.some.inj hd
  exact h

/-- Nothing is read from an empty text. -/
theorem lexemes?_nil : lexemes? [] = some [] := by
  rw [lexemes?]
  rfl

/-- A text that is a number is read as one. -/
theorem lexemes?_number {cs : List Char} {n : NumberText} {rest : List (Option Char)}
    (h : NumberText.ofChars? cs = some n) (hrest : EndsNumber rest) :
    lexemes? (cs.map some ++ rest) = (lexemes? rest).map (.number n :: ·) := by
  obtain ⟨hne, hparts⟩ := NumberText.isPart_of_ofChars? h
  cases cs with
  | nil => exact absurd rfl hne
  | cons c cs =>
    have hblank : isBlank (some c) = false := by
      have hpart := hparts c List.mem_cons_self
      simp only [isBlank, List.contains_eq_mem, List.mem_cons, List.not_mem_nil, or_false,
        decide_eq_false_iff_not]
      rintro (rfl | rfl | rfl | rfl) <;> exact absurd hpart (by decide)
    rw [List.map_cons, List.cons_append, lexemes?_cons hblank (lexeme?_number h hrest)]

/-- A text in quotes is read as its parts. -/
theorem Escaping.Readable.lexemes?_quote {escaping : Escaping} (h : escaping.Readable)
    (text : String) (rest : List (Option Char)) :
    lexemes? ((escaping.quote text).map some ++ rest) =
      (lexemes? rest).map (.string (escaping.partsOf text) :: ·) :=
  lexemes?_cons rfl (h.lexeme?_quote text rest)

/-- A double is read as its lexeme. -/
theorem lexemes?_float (x : Number) {rest : List (Option Char)} (hrest : EndsNumber rest) :
    lexemes? (x.json.toList.map some ++ rest) = (lexemes? rest).map (floatLexeme x :: ·) := by
  unfold floatLexeme
  by_cases hfinite : x.isFinite = true
  · obtain ⟨n, hn⟩ := NumberText.ofChars?_json hfinite
    rw [lexemes?_number hn hrest, hn]
  · rw [NumberText.json_eq_null (by simpa using hfinite)]
    exact lexemes?_cons rfl rfl

/-- A text is read as these lexemes, whatever follows it. -/
def ReadAs (text : List Char) (found : List Lexeme) : Prop :=
  ∀ rest, EndsNumber rest → lexemes? (text.map some ++ rest) = (lexemes? rest).map (found ++ ·)

/-- Texts with commas between them are read one after another. -/
theorem readAs_separated {texts : List (List Char)} {found : List (List Lexeme)}
    (h : List.Forall₂ ReadAs texts found) :
    ReadAs (separated texts) ([Lexeme.comma].intercalate found) := by
  induction h with
  | nil =>
    intro rest _
    simp [separated]
  | cons hfirst hothers ih =>
    intro rest hrest
    cases hothers with
    | nil => simpa [separated] using hfirst rest hrest
    | cons hsecond hothers =>
      unfold separated at ih ⊢
      have hcomma (others : List (Option Char)) :=
        hfirst (some ',' :: others) (endsNumber_cons (by decide) others)
      rw [List.intercalate_cons_cons, List.map_append, List.map_append, List.append_assoc,
        List.append_assoc, List.map_singleton, List.singleton_append, hcomma,
        lexemes?_cons rfl rfl, ih rest hrest]
      cases lexemes? rest <;> simp [List.intercalate_cons_cons]

/-- A text between brackets is read between the lexemes of the brackets. -/
theorem readAs_between {first last : Char} {text : List Char} {opening closing : Lexeme}
    {found : List Lexeme} (hblank : isBlank (some first) = false ∧ isBlank (some last) = false)
    (hopen : ∀ rest, lexeme? first rest = some (opening, rest))
    (hclose : ∀ rest, lexeme? last rest = some (closing, rest))
    (hpart : NumberText.isPart last = false) (h : ReadAs text found) :
    ReadAs (first :: text ++ [last]) (opening :: found ++ [closing]) := by
  intro rest _
  have htext := h (some last :: rest) (endsNumber_cons hpart rest)
  rw [List.map_append, List.map_cons, List.append_assoc, List.map_singleton,
    List.singleton_append, List.cons_append, lexemes?_cons hblank.1 (hopen _), htext,
    lexemes?_cons hblank.2 (hclose _)]
  cases lexemes? rest <;> simp

/-- A key and the text of its value are read one after the other. -/
theorem Escaping.Readable.readAs_entry {escaping : Escaping} (hread : escaping.Readable)
    (key : String) {text : List Char} {found : List Lexeme} (h : ReadAs text found) :
    ReadAs (escaping.quote key ++ ':' :: text)
      (.string (escaping.partsOf key) :: .colon :: found) := by
  intro rest hrest
  rw [List.map_append, List.append_assoc, hread.lexemes?_quote, List.map_cons, List.cons_append,
    lexemes?_cons rfl rfl, h rest hrest]
  cases lexemes? rest <;> simp

mutual

/-- **What is written is read lexeme by lexeme.** -/
theorem readAs_chars (j : Json) : ReadAs (chars j) (lexemes j) := by
  match j with
  | .null => exact fun _ _ => lexemes?_cons rfl rfl
  | .bool true => exact fun _ _ => lexemes?_cons rfl rfl
  | .bool false => exact fun _ _ => lexemes?_cons rfl rfl
  | .integer i => exact fun _ hrest => lexemes?_number (NumberText.ofChars?_integerChars i) hrest
  | .float x => exact fun _ hrest => lexemes?_float x hrest
  | .string s => exact fun rest _ => readable_escaping.lexemes?_quote s rest
  | .array items =>
    exact readAs_between ⟨rfl, rfl⟩ (fun _ => rfl) (fun _ => rfl) (by decide)
      (readAs_separated (forall₂_itemTexts items))
  | .object entries =>
    exact readAs_between ⟨rfl, rfl⟩ (fun _ => rfl) (fun _ => rfl) (by decide)
      (readAs_separated (forall₂_entryTexts entries))

/-- Each element of an array is read as its lexemes. -/
theorem forall₂_itemTexts (items : List Json) :
    List.Forall₂ ReadAs (itemTexts items) (itemLexemes items) := by
  match items with
  | [] => exact .nil
  | item :: rest => exact .cons (readAs_chars item) (forall₂_itemTexts rest)

/-- Each entry of an object is read as its lexemes. -/
theorem forall₂_entryTexts (entries : List (String × Json)) :
    List.Forall₂ ReadAs (entryTexts entries) (memberLexemes entries) := by
  match entries with
  | [] => exact .nil
  | (key, item) :: rest =>
    exact .cons (readable_escaping.readAs_entry key (readAs_chars item)) (forall₂_entryTexts rest)

end

end Folio.Json
