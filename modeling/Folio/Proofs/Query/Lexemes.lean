import Folio.Proofs.Query.Numerals
import Folio.Proofs.Query.Pieces
import Folio.Proofs.Query.Rendering
import Folio.Proofs.Sequence

/-!
# Written lexemes read back

Before a space or the end of the text, the scanner takes exactly the text of a lexeme. So a text of
lexemes with one space between them has these lexemes as its tokens.
-/

namespace Folio

namespace Text

/-- The code points of ranges. -/
def Ranges.points (ranges : Ranges) : List Nat :=
  ranges.flatMap fun (first, last) => List.range' first (last + 1 - first)

/-- The code point of a character in ranges is one of theirs. -/
theorem Ranges.mem_points {ranges : Ranges} {c : Char} (h : ranges.contains c = true) :
    c.toNat ∈ ranges.points := by
  obtain ⟨⟨first, last⟩, hrange, hc⟩ := List.any_eq_true.mp h
  simp only [Bool.and_eq_true, decide_eq_true_eq] at hc
  exact List.mem_flatMap.mpr ⟨_, hrange, List.mem_range'_1.mpr ⟨hc.1, by omega⟩⟩

/-- The code points of the digits. -/
def digitPoints : List Nat := List.range' '0'.toNat 10

/-- The code points of the characters that mean something else at the front of a lexeme. -/
def reservedPoints : List Nat :=
  blanks.points ++ digitPoints ++ ['.', '\'', '"', '@', '-'].map Char.toNat

/-- No word starts with a reserved character. -/
theorem startsWord_eq_false {c : Char} (h : c.toNat ∈ reservedPoints) : startsWord c = false := by
  have hall : reservedPoints.all fun n => !startsWord (Char.ofNat n) := by decide +kernel
  have hc := List.all_eq_true.mp hall _ h
  rwa [Char.ofNat_toNat, Bool.not_eq_true'] at hc

/-- A digit has one of ten code points. -/
theorem mem_digitPoints {c : Char} (h : c.isDigit = true) : c.toNat ∈ digitPoints := by
  rw [Char.isDigit, Bool.and_eq_true, decide_eq_true_eq, decide_eq_true_eq] at h
  have hlow : '0'.toNat ≤ c.toNat := UInt32.le_iff_toNat_le.mp h.1
  have hhigh : c.toNat ≤ '9'.toNat := UInt32.le_iff_toNat_le.mp h.2
  exact List.mem_range'_1.mpr ⟨hlow, Nat.lt_succ_of_le hhigh⟩

/-- What starts a word is no blank, digit, quote, point, sign or `@`. -/
theorem startsWord_spec {c : Char} (h : startsWord c = true) :
    isBlank c = false ∧ c.isDigit = false ∧ c ≠ '.' ∧ c ≠ '\'' ∧ c ≠ '"' ∧ c ≠ '@' ∧ c ≠ '-' := by
  have hfree : c.toNat ∉ reservedPoints := by
    intro hreserved
    rw [startsWord_eq_false hreserved] at h
    cases h
  simp only [reservedPoints, List.mem_append, not_or] at hfree
  obtain ⟨⟨hblank, hdigit⟩, hother⟩ := hfree
  have hne {x : Char} (hx : x ∈ ['.', '\'', '"', '@', '-']) : c ≠ x := by
    rintro rfl
    exact hother (List.mem_map_of_mem hx)
  refine ⟨Bool.eq_false_iff.mpr fun hc => hblank (Ranges.mem_points hc),
    Bool.eq_false_iff.mpr fun hc => hdigit (mem_digitPoints hc), hne ?_, hne ?_, hne ?_, hne ?_,
    hne ?_⟩ <;> simp

end Text

namespace Query

/-- The text of a lexeme is read as the lexeme before a space or the end, and nothing of it is
skipped. -/
def Lexeme.Legible (l : Lexeme) : Prop :=
  ∃ c tail, l.written = c :: tail ∧ ∀ rest, AtSpace rest →
    skipTrivia (c :: (tail ++ rest)) = c :: (tail ++ rest) ∧ lexeme c (tail ++ rest) = .ok (l, rest)

/-- Nothing is skipped before a character that is no blank and no sign. -/
theorem skipTrivia_cons {c : Char} {rest : List Char} (hblank : Text.isBlank c = false)
    (hsign : c ≠ '-') : skipTrivia (c :: rest) = c :: rest := by
  simp [skipTrivia, hblank, hsign]

/-- A run of characters of words before a space is taken off the front. -/
theorem takeWhile_continuesWord {name rest : List Char} (hname : name.all Text.continuesWord = true)
    (hrest : AtSpace rest) : (name ++ rest).takeWhile Text.continuesWord = name ∧
      (name ++ rest).dropWhile Text.continuesWord = rest := by
  obtain ⟨htake, hdrop⟩ := hrest.takeWhile (show Text.continuesWord ' ' = false by decide)
  rw [List.all_eq_true] at hname
  rw [List.takeWhile_append_of_pos hname, List.dropWhile_append_of_pos hname, htake, hdrop,
    List.append_nil]
  exact ⟨rfl, rfl⟩

/-- Words are legible. -/
theorem legible_word {w : String} (h : Expr.isWord w = true) : (Lexeme.word w).Legible := by
  unfold Expr.isWord at h
  split at h
  · cases h
  next c tail hw =>
    obtain ⟨hstart, htail⟩ := Bool.and_eq_true_iff.mp h
    obtain ⟨hblank, hdigit, hpoint, hsingle, hdouble, hat, hsign⟩ := Text.startsWord_spec hstart
    refine ⟨c, tail, hw, fun rest hrest => ⟨skipTrivia_cons hblank hsign, ?_⟩⟩
    obtain ⟨htake, hdrop⟩ := takeWhile_continuesWord htail hrest
    have hspelled : String.ofList (c :: tail) = w := by rw [← hw, String.ofList_toList]
    simp [lexeme, hdigit, hpoint, hsingle, hdouble, hat, hstart, htake, hdrop, hspelled]

/-- Parameters are legible. -/
theorem legible_parameter {name : String} (h : Expr.isParameterName name = true) :
    (Lexeme.parameter name).Legible := by
  unfold Expr.isParameterName at h
  split at h
  next tail hname =>
    obtain ⟨hne, htail⟩ := Bool.and_eq_true_iff.mp h
    refine ⟨'@', tail, hname, fun rest hrest => ⟨skipTrivia_cons (by decide) (by decide), ?_⟩⟩
    obtain ⟨htake, hdrop⟩ := takeWhile_continuesWord htail hrest
    have hspelled : String.ofList ('@' :: tail) = name := by rw [← hname, String.ofList_toList]
    have hdigit : ('@').isDigit = false := by decide
    simp only [Bool.not_eq_true', List.isEmpty_eq_false_iff] at hne
    simp [lexeme, hdigit, htake, hdrop, hne, hspelled]
  · cases h

/-- Characters in their quoted form are read up to the quote. -/
theorem stringBody_quoted (start cs rest : List Char) :
    stringBody '"' start (cs.flatMap quotedChar ++ '"' :: rest) = .ok (cs, rest) := by
  induction cs with
  | nil => exact stringBody_quote '"' start rest
  | cons c cs ih =>
    rw [List.flatMap_cons, List.append_assoc]
    by_cases hc : c = '"' ∨ c = '\\'
    · have hescape : escape? c (cs.flatMap quotedChar ++ '"' :: rest) =
          some (c, cs.flatMap quotedChar ++ '"' :: rest) := by
        rcases hc with rfl | rfl <;> rfl
      rw [quotedChar, if_pos hc, List.cons_append, List.cons_append, List.nil_append,
        stringBody_escape (by decide) hescape, ih]
      rfl
    · obtain ⟨hquote, hslash⟩ := not_or.mp hc
      rw [quotedChar, if_neg hc, List.cons_append, List.nil_append, stringBody_other hquote hslash,
        ih]
      rfl

/-- Strings are legible. -/
theorem legible_string (s : String) : (Lexeme.string s).Legible := by
  refine ⟨'"', _, rfl, fun rest hrest => ⟨skipTrivia_cons (by decide) (by decide), ?_⟩⟩
  have hdigit : ('"').isDigit = false := by decide
  simp [lexeme, hdigit, stringBody_quoted, Except.map]

/-- Finite numbers without a sign are legible. -/
theorem legible_number {n : Number} (hfinite : n.isFinite = true) (hsign : n.isNegative = false) :
    (Lexeme.number n).Legible := by
  obtain ⟨c, tail, hplain, hdigit⟩ := exists_digit_plain hfinite hsign
  refine ⟨c, tail, hplain, fun rest hrest => ⟨?_, ?_⟩⟩
  · have hall : Text.digitPoints.all fun point =>
        !Text.isBlank (Char.ofNat point) && Char.ofNat point != '-' := by decide +kernel
    have hc := List.all_eq_true.mp hall _ (Text.mem_digitPoints hdigit)
    simp only [Char.ofNat_toNat, Bool.and_eq_true, Bool.not_eq_true', bne_iff_ne] at hc
    exact skipTrivia_cons hc.1 hc.2
  · have hread := numberLexeme_plain hfinite hsign hrest
    rw [hplain, List.cons_append] at hread
    simp [lexeme, hdigit, hread]

/-- Symbols are legible. -/
theorem legible_symbol (s : Symbol) : (Lexeme.symbol s).Legible := by
  cases s <;> refine ⟨_, _, rfl, fun rest hrest => ?_⟩ <;>
    rcases hrest with rfl | ⟨more, rfl⟩ <;> exact ⟨rfl, rfl⟩

/-! ## Texts of lexemes -/

/-- The text of a row of lexemes is that of the first one and, after a space, of the others. -/
theorem exists_spaced_cons (l : Lexeme) (ls : List Lexeme) : ∃ rest,
    spaced (l :: ls) = l.written ++ rest ∧ AtSpace rest ∧
      skipTrivia rest = skipTrivia (spaced ls) := by
  cases ls with
  | nil => exact ⟨[], by rw [spaced_singleton, List.append_nil], .inl rfl, rfl⟩
  | cons m ls =>
    refine ⟨' ' :: spaced (m :: ls), spaced_cons_cons l m ls, .inr ⟨_, rfl⟩, ?_⟩
    have hblank : Text.isBlank ' ' = true := by decide
    simp [skipTrivia, hblank]

/-- **Tokens of lexemes.** A text of legible lexemes with one space between them, after any trivia,
has these lexemes as its tokens, and the end after them. -/
theorem tokensFrom_spaced {ls : List Lexeme} (h : ∀ l ∈ ls, l.Legible) (total : Nat)
    {cs : List Char} (hcs : skipTrivia cs = skipTrivia (spaced ls)) :
    ∃ ts, tokensFrom total cs = .ok ts ∧ ts.map Token.lexeme = ls ++ [.finish] := by
  -- a lexeme leaves the space after it, so texts are compared from their first lexeme on
  induction ls generalizing cs with
  | nil => exact ⟨_, tokensFrom_of_skipTrivia_eq_nil hcs, rfl⟩
  | cons l ls ih =>
    obtain ⟨⟨c, tail, hwritten, hread⟩, hothers⟩ := List.forall_mem_cons.mp h
    obtain ⟨rest, hspaced, hrest, hskip⟩ := exists_spaced_cons l ls
    obtain ⟨hfirst, hlexeme⟩ := hread rest hrest
    obtain ⟨ts, hts, hlexemes⟩ := ih hothers hskip
    rw [hspaced, hwritten, List.cons_append, hfirst] at hcs
    rw [tokensFrom_of_lexeme hcs hlexeme, hts]
    exact ⟨_, rfl, congrArg (l :: ·) hlexemes⟩

/-! ## Lexemes of expressions -/

/-- A row of lexemes that are all legible. -/
def LegibleRow (ls : List Lexeme) : Prop := ∀ l ∈ ls, l.Legible

/-- A legible lexeme before a legible row makes a legible row. -/
theorem LegibleRow.cons {l : Lexeme} {ls : List Lexeme} (h : l.Legible) (hls : LegibleRow ls) :
    LegibleRow (l :: ls) :=
  List.forall_mem_cons.mpr ⟨h, hls⟩

/-- Two legible rows make one. -/
theorem LegibleRow.append {ls ms : List Lexeme} (hls : LegibleRow ls) (hms : LegibleRow ms) :
    LegibleRow (ls ++ ms) :=
  List.forall_mem_append.mpr ⟨hls, hms⟩

/-- A legible row with a symbol on each side is legible. -/
theorem LegibleRow.between {ls : List Lexeme} (h : LegibleRow ls) (first last : Symbol) :
    LegibleRow (.symbol first :: (ls ++ [.symbol last])) :=
  .cons (legible_symbol first) (h.append (.cons (legible_symbol last) (List.forall_mem_nil _)))

/-- A legible row is legible in parentheses. -/
theorem LegibleRow.enclosedIf {ls : List Lexeme} (h : LegibleRow ls) (loose : Bool) :
    LegibleRow (enclosedIf loose ls) := by
  cases loose with
  | false => exact h
  | true => exact h.between .openParen .closeParen

/-- Legible rows are legible with commas between them. -/
theorem LegibleRow.separated {rows : List (List Lexeme)} (h : ∀ row ∈ rows, LegibleRow row) :
    LegibleRow (separated rows) := by
  induction rows with
  | nil => exact List.forall_mem_nil _
  | cons row rows ih =>
    obtain ⟨hrow, hrows⟩ := List.forall_mem_cons.mp h
    cases rows with
    | nil => rwa [separated_singleton]
    | cons next rows =>
      rw [separated_cons_cons]
      exact hrow.append (.cons (legible_symbol .comma) (ih hrows))

/-- The operator before one operand is legible. -/
theorem legible_unaryOp (op : UnaryOp) : op.lexeme.Legible := by
  cases op with
  | not => exact legible_word (by decide)
  | sign s => cases s <;> exact legible_symbol _

/-- The operator between two operands is legible. -/
theorem legible_binaryOp (op : BinaryOp) : op.lexeme.Legible := by
  cases op with
  | and => exact legible_word (by decide)
  | or => exact legible_word (by decide)
  | _ => exact legible_symbol _

/-- A constant that can be written is legible. -/
theorem legible_constant {v : Value} (h : Expr.isWritableNode (.literal v) = true) :
    v.lexeme.Legible := by
  cases v with
  | absent => exact legible_word (by decide)
  | null => exact legible_word (by decide)
  | bool b => cases b <;> exact legible_word (by decide)
  | number n =>
    obtain ⟨hfinite, hsign⟩ := Bool.and_eq_true_iff.mp h
    exact legible_number hfinite (by simpa using hsign)
  | string s => exact legible_string s
  | array items => cases h
  | object entries => cases h

/-- A name is legible. -/
theorem legible_name {name : String} (h : Expr.isName name = true) : (Lexeme.word name).Legible :=
  legible_word (Bool.and_eq_true_iff.mp h).1

/-- Legible items between two symbols, with commas, are legible. -/
theorem legibleRow_items {items : List Expr} (h : ∀ item ∈ items, LegibleRow item.lexemes)
    (first last : Symbol) :
    LegibleRow (.symbol first :: (separated (Expr.lexemesItems items) ++ [.symbol last])) := by
  rw [Expr.lexemesItems_eq_map]
  exact (LegibleRow.separated (List.forall_mem_map.mpr h)).between first last

/-- **Legible expressions.** The lexemes of an expression that can be written are legible. -/
theorem legibleRow_lexemes {e : Expr} (h : e.isWritable = true) : LegibleRow e.lexemes := by
  induction e using Expr.induction_children with
  | step e ih =>
    obtain ⟨hroot, hwritable⟩ := Expr.every_iff.mp h
    have hchild (child : Expr) (hmem : child ∈ e.children) : LegibleRow child.lexemes :=
      ih child hmem (hwritable child hmem)
    cases e with
    | literal v => exact .cons (legible_constant hroot) (List.forall_mem_nil _)
    | parameter name => exact .cons (legible_parameter hroot) (List.forall_mem_nil _)
    | identifier name => exact .cons (legible_name hroot) (List.forall_mem_nil _)
    | property base key =>
      have hbase := hchild base (by simp [Expr.children])
      have hkey := hchild key (by simp [Expr.children])
      exact (hbase.enclosedIf _).append (hkey.between .openBracket .closeBracket)
    | array items => exact legibleRow_items hchild .openBracket .closeBracket
    | object entries =>
      rw [Expr.lexemes, Expr.lexemesEntries_eq_map]
      refine LegibleRow.between (.separated (List.forall_mem_map.mpr fun entry hentry => ?_)) _ _
      exact .cons (legible_string entry.1) (.cons (legible_symbol .colon)
        (hchild entry.2 (List.mem_map_of_mem hentry)))
    | unary op operand =>
      have hoperand := hchild operand (by simp [Expr.children])
      exact .cons (legible_unaryOp op) (hoperand.enclosedIf _)
    | binary op left right =>
      have hleft := hchild left (by simp [Expr.children])
      have hright := hchild right (by simp [Expr.children])
      exact (hleft.enclosedIf _).append (.cons (legible_binaryOp op) (hright.enclosedIf _))
    | conditional test consequent alternate =>
      have htest := hchild test (by simp [Expr.children])
      have hconsequent := hchild consequent (by simp [Expr.children])
      have halternate := hchild alternate (by simp [Expr.children])
      exact (htest.enclosedIf _).append (.cons (legible_symbol .question)
        (hconsequent.append (.cons (legible_symbol .colon) halternate)))
    | among needle choices =>
      have hneedle := hchild needle List.mem_cons_self
      refine (hneedle.enclosedIf _).append (.cons (legible_word (by decide)) ?_)
      exact legibleRow_items (fun choice hchoice => hchild choice (List.mem_cons_of_mem _ hchoice))
        .openParen .closeParen
    | between value low high =>
      have hvalue := hchild value (by simp [Expr.children])
      have hlow := hchild low (by simp [Expr.children])
      have hhigh := hchild high (by simp [Expr.children])
      exact (hvalue.enclosedIf _).append (.cons (legible_word (by decide))
        ((hlow.enclosedIf _).append (.cons (legible_word (by decide)) (hhigh.enclosedIf _))))
    | call name args =>
      exact .cons (legible_name (Bool.and_eq_true_iff.mp hroot).1)
        (legibleRow_items hchild .openParen .closeParen)
    | userCall name args =>
      exact .cons (legible_word (by decide)) (.cons (legible_symbol .dot)
        (.cons (legible_word hroot) (legibleRow_items hchild .openParen .closeParen)))

end Query

end Folio
