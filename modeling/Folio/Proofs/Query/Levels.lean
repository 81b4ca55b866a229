import Folio.Proofs.Query.Taking

/-!
# Levels of the grammar

The reader of a level takes what the reader of the next tighter level takes, as long as what follows
does not go on at the level. On the levels whose operators group to the left, more can be taken of
lexemes that lead a longer row: whatever the operators after them make of their value.
-/

namespace Folio.Query

/-! ## Where a level stops -/

/-- The level at which a lexeme goes on after an expression. -/
def Lexeme.continues : Lexeme → Option Precedence
  | .word w =>
    match Keyword.ofWord? w with
    | some .or => some .disjunction
    | some .and => some .conjunction
    | some .not => some .relational
    | some .inList => some .relational
    | some .between => some .relational
    | _ => none
  | .symbol .question => some .conditional
  | .symbol .doubleQuestion => some .alternatives
  | .symbol .equal => some .relational
  | .symbol .notEqual => some .relational
  | .symbol .angles => some .relational
  | .symbol .less => some .relational
  | .symbol .atMost => some .relational
  | .symbol .greater => some .relational
  | .symbol .atLeast => some .relational
  | .symbol .bar => some .bitOr
  | .symbol .caret => some .bitXor
  | .symbol .ampersand => some .bitAnd
  | .symbol .shiftLeft => some .shift
  | .symbol .shiftRight => some .shift
  | .symbol .shiftRightZeroFill => some .shift
  | .symbol .plus => some .sum
  | .symbol .minus => some .sum
  | .symbol .doubleBar => some .sum
  | .symbol .star => some .product
  | .symbol .slash => some .product
  | .symbol .percent => some .product
  | .symbol .openBracket => some .access
  | .symbol .dot => some .access
  | .symbol .openParen => some .primary
  | _ => none

/-- The level at which lexemes go on after an expression. A dot is an access, but if a parenthesis
opens after its name, a call. -/
def continuation : List Lexeme → Option Precedence
  | .symbol .dot :: _ :: .symbol .openParen :: _ => some .primary
  | l :: _ => l.continues
  | [] => none

/-- Before anything but a dot, one lexeme decides. -/
theorem continuation_cons {l : Lexeme} (h : l ≠ .symbol .dot) (rest : List Lexeme) :
    continuation (l :: rest) = l.continues := by
  unfold continuation
  split
  next heq => exact absurd (List.cons.inj heq).1 h
  next heq => rw [(List.cons.inj heq).1]
  next heq => cases heq

/-- Whether a level ends before lexemes: they go on at looser levels only, if at all. -/
def stops (level : Precedence) (rest : List Lexeme) : Bool :=
  (continuation rest).all fun p => p.rank < level.rank

/-- Where a level ends, tighter ones do. -/
theorem stops_of_le {level tighter : Precedence} {rest : List Lexeme} (h : stops level rest = true)
    (hle : level.rank ≤ tighter.rank) : stops tighter rest = true := by
  unfold stops at h ⊢
  cases hnext : continuation rest with
  | none => rfl
  | some p =>
    rw [hnext] at h
    simp only [Option.all_some, decide_eq_true_eq] at h ⊢
    omega

/-- Where a level ends, the next lexeme does not go on at it. -/
theorem continues_ne_of_stops {level : Precedence} {l : Lexeme} {rest : List Lexeme}
    (h : stops level (l :: rest) = true) : l.continues ≠ some level := by
  intro hcontinues
  unfold stops continuation at h
  split at h
  next => cases level <;> cases h
  next heq =>
    obtain ⟨rfl, -⟩ := List.cons.inj heq
    simp [hcontinues] at h
  next heq => cases heq

namespace Precedence

/-- The next tighter level comes right after one that is not the tightest. -/
theorem rank_tighter {p q : Precedence} (h : p.rank < q.rank) : p.tighter.rank = p.rank + 1 := by
  cases p with
  | primary => cases q <;> simp [rank] at h
  | _ => rfl

/-- No level is tighter than the next tighter one of it. -/
theorem rank_le_rank_tighter (p : Precedence) : p.rank ≤ p.tighter.rank := by
  cases p <;> decide

/-- Levels are told apart by their places. -/
theorem eq_of_rank_eq {p q : Precedence} (h : p.rank = q.rank) : p = q := by
  cases p <;> cases q <;> simp_all [rank]

/-- What holds of a level, and of each level if it does of the next tighter one, holds of all looser
levels. -/
@[elab_as_elim]
theorem induction_looser {motive : Precedence → Prop} {tight : Precedence} (here : motive tight)
    (looser : ∀ p : Precedence, motive p.tighter → motive p) (p : Precedence)
    (hle : p.rank ≤ tight.rank) : motive p := by
  rcases Nat.lt_or_eq_of_le hle with hlt | heq
  · have hnext := rank_tighter hlt
    exact looser p (induction_looser here looser p.tighter (by omega))
  · exact eq_of_rank_eq heq ▸ here
termination_by tight.rank - p.rank
decreasing_by omega

/-- Whether the level reads an operand and extends it to the right. -/
def isLoop : Precedence → Bool
  | .conditional => false
  | .negation => false
  | .signed => false
  | .primary => false
  | _ => true

/-- A level extends its operand, or it is one of four others. -/
@[elab_as_elim]
theorem cases_isLoop {motive : Precedence → Prop} (p : Precedence)
    (loop : ∀ p : Precedence, p.isLoop = true → motive p) (conditional : motive .conditional)
    (negation : motive .negation) (signed : motive .signed) (primary : motive .primary) :
    motive p := by
  cases hloop : p.isLoop with
  | true => exact loop p hloop
  | false =>
    cases p with
    | conditional => exact conditional
    | negation => exact negation
    | signed => exact signed
    | primary => exact primary
    | _ => cases hloop

/-- What holds of the tightest level, and of each level if it does of the next tighter one, holds of
all levels. -/
@[elab_as_elim]
theorem induction_isLoop {motive : Precedence → Prop} (p : Precedence)
    (loop : ∀ p : Precedence, p.isLoop = true → motive p.tighter → motive p)
    (conditional : motive .alternatives → motive .conditional)
    (negation : motive .relational → motive .negation)
    (signed : motive .access → motive .signed) (primary : motive .primary) : motive p := by
  refine induction_looser primary (fun p ih => ?_) p (by cases p <;> decide)
  cases p using cases_isLoop with
  | loop p hloop => exact loop p hloop ih
  | conditional => exact conditional ih
  | negation => exact negation ih
  | signed => exact signed ih
  | primary => exact primary

/-- The operators that join the operands of a level. -/
def op? : Precedence → Lexeme → Option BinaryOp
  | .alternatives => coalesceOp?
  | .disjunction => orOp?
  | .conjunction => andOp?
  | .relational => relationOp?
  | .bitOr => bitOrOp?
  | .bitXor => bitXorOp?
  | .bitAnd => bitAndOp?
  | .shift => shiftOp?
  | .sum => sumOp?
  | .product => productOp?
  | _ => fun _ => none

/-- An operator goes on at its level. -/
theorem continues_of_op? {p : Precedence} {l : Lexeme} {op : BinaryOp} (h : p.op? l = some op) :
    l.continues = some p := by
  cases p with
  | disjunction =>
    simp only [op?, orOp?] at h
    split at h
    · obtain ⟨hword, -⟩ := Option.ite_none_right_eq_some.mp h
      simp [Lexeme.continues, hword]
    · cases h
  | conjunction =>
    simp only [op?, andOp?] at h
    split at h
    · obtain ⟨hword, -⟩ := Option.ite_none_right_eq_some.mp h
      simp [Lexeme.continues, hword]
    · cases h
  | _ =>
    simp only [op?, coalesceOp?, relationOp?, bitOrOp?, bitXorOp?, bitAndOp?, shiftOp?, sumOp?,
      productOp?, reduceCtorEq] at h <;> split at h <;> cases h <;> rfl

end Precedence

/-! ## Readers of levels -/

/-- The reader of a level. -/
def Inner.reader (inner : Inner) : Precedence → Parser Expr
  | .conditional => Query.conditional inner
  | .alternatives => Query.alternatives inner
  | .disjunction => Query.disjunction inner
  | .conjunction => Query.conjunction inner
  | .negation => Query.negation inner
  | .relational => Query.relational inner
  | .bitOr => Query.bitOr inner
  | .bitXor => Query.bitXor inner
  | .bitAnd => Query.bitAnd inner
  | .shift => Query.shift inner
  | .sum => Query.sum inner
  | .product => Query.product inner
  | .signed => Query.signed inner
  | .access => Query.access inner
  | .primary => Query.primary inner

/-- What extends an operand to the right on a level. -/
def Inner.extension (inner : Inner) : Precedence → Extension Expr
  | .relational => nextRelation? inner
  | .access => nextAccess? inner
  | level => fun left ts =>
    match ts with
    | [] => none
    | t :: rest =>
      (level.op? t.lexeme).map fun op =>
        past ((inner.reader level.tighter).map (.binary op left) rest)

variable {inner : Inner} {level : Precedence} {e left : Expr} {ls rest : List Lexeme}

/-- A level whose operators group to the left reads an operand and extends it. -/
theorem reader_eq_extended (h : level.isLoop = true) : inner.reader level =
    (inner.reader level.tighter).extended (inner.extension level) := by
  cases level with
  | conditional => cases h
  | negation => cases h
  | signed => cases h
  | primary => cases h
  | _ => rfl

/-- The words of a test go on at the level of relations. -/
theorem continues_of_wordTest? {t : Token} {ts : List Token}
    {words : Step (Bool × WordTest) (t :: ts).length} (h : wordTest? (t :: ts) = some words) :
    t.lexeme.continues = some .relational := by
  obtain ⟨l, offset⟩ := t
  cases l with
  | word w =>
    simp only [wordTest?] at h
    split at h
    next test htest =>
      unfold WordTest.ofKeyword? at htest
      split at htest <;> simp_all [Lexeme.continues]
    next =>
      split at h
      next hnot => simp [Lexeme.continues, hnot]
      next => cases h
  | _ => cases h

/-- Nothing extends an operand where the level ends. -/
theorem extension_eq_none (h : stops level rest = true) {ts : List Token}
    (hts : ts.map Token.lexeme = rest) : inner.extension level left ts = none := by
  cases ts with
  | nil => cases level <;> rfl
  | cons t ts =>
    subst hts
    have hends := continues_ne_of_stops h
    have hop : level.op? t.lexeme = none := by
      cases hop : level.op? t.lexeme with
      | none => rfl
      | some op => exact absurd (Precedence.continues_of_op? hop) hends
    cases level with
    | relational =>
      have hwords : wordTest? (t :: ts) = none := by
        cases hwords : wordTest? (t :: ts) with
        | none => rfl
        | some words => exact absurd (continues_of_wordTest? hwords) hends
      change relationOp? t.lexeme = none at hop
      simp only [Inner.extension, nextRelation?, hop, hwords, Option.map_none]
    | access =>
      obtain ⟨l, offset⟩ := t
      cases l with
      | symbol s =>
        cases s with
        | dot => exact absurd rfl hends
        | openBracket => exact absurd rfl hends
        | _ => rfl
      | _ => rfl
    | _ => simp only [Inner.extension, hop, Option.map_none]

section

variable {l : Lexeme} {op : BinaryOp}

/-- A level with operators between two operands groups to the left. -/
theorem isLoop_of_op? (h : level.op? l = some op) : level.isLoop = true := by
  cases level with
  | conditional => cases h
  | negation => cases h
  | signed => cases h
  | primary => cases h
  | _ => rfl

/-- An operator after an operand is followed by the reader of its other operand. -/
theorem extension_of_op? (h : level.op? l = some op) (left : Expr) (offset : Nat)
    (ts : List Token) : inner.extension level left (⟨l, offset⟩ :: ts) =
      some (past ((inner.reader level.tighter).map (.binary op left) ts)) := by
  cases level with
  | relational =>
    change relationOp? l = some op at h
    simp only [Inner.extension, nextRelation?, h]
    rfl
  | access => cases h
  | _ => simp only [Inner.extension, h, Option.map_some]

/-- An operator ends the levels tighter than its own. -/
theorem stops_of_op? (h : level.op? l = some op) (rest : List Lexeme) :
    stops level.tighter (l :: rest) = true := by
  have hcontinues := Precedence.continues_of_op? h
  have hdot : l ≠ .symbol .dot := by
    rintro rfl
    cases hcontinues
    cases h
  have hrank : level.rank < level.tighter.rank := by
    cases level with
    | primary => cases h
    | _ => decide
  simp [stops, continuation_cons hdot, hcontinues, hrank]

end

/-! ## What a level takes -/

/-- The reader of a level takes lexemes of an expression, wherever the level ends after them. -/
def TakesAt (inner : Inner) (level : Precedence) (ls : List Lexeme) (e : Expr) : Prop :=
  ∀ rest, stops level rest = true → Takes (inner.reader level) (ls ++ rest) e rest

/-- The reader of a level takes lexemes of an expression together with all that extends the
expression after them. -/
def LeadsAt (inner : Inner) (level : Precedence) (ls : List Lexeme) (e : Expr) : Prop :=
  ∀ rest whole left, stops level.tighter rest = true →
    Extends (inner.extension level) e rest whole left →
      Takes (inner.reader level) (ls ++ rest) whole left

/-- What a tighter level takes leads what its next looser level takes. -/
theorem TakesAt.leads (hloop : level.isLoop = true) (h : TakesAt inner level.tighter ls e) :
    LeadsAt inner level ls e := by
  intro rest whole left hstops hextends
  rw [reader_eq_extended hloop]
  exact (h rest hstops).extended hextends

/-- What leads is taken where the level ends. -/
theorem LeadsAt.takes (h : LeadsAt inner level ls e) : TakesAt inner level ls e := by
  intro rest hstops
  exact h rest e rest (stops_of_le hstops level.rank_le_rank_tighter)
    (extends_of_none fun ts hts => extension_eq_none hstops hts)

/-! ## Looser levels -/

/-- Operands and relations do not begin with a lexeme that begins no operand and is no sign. -/
theorem Refuses.relational {l : Lexeme} (h : Refuses (primary inner) l) (hsign : sign? l = none) :
    Refuses (relational inner) l := by
  have hsigned : Refuses (signed inner) l := by
    intro offset ts
    obtain ⟨fault, hfault⟩ := h.extended (nextAccess? inner) offset ts
    exact ⟨fault, by rw [signed, hsign]; exact hfault⟩
  have hshift : Refuses (shift inner) l := ((hsigned.extended _).extended _).extended _
  exact (((hshift.extended _).extended _).extended _).extended _

/-- Nor do expressions, if it is not the word of a negation. -/
theorem Refuses.conditional {l : Lexeme} (h : Refuses (primary inner) l) (hsign : sign? l = none)
    (hnot : ∀ offset ts, keyword? .not (⟨l, offset⟩ :: ts) = none) :
    Refuses (conditional inner) l := by
  have hnegation : Refuses (negation inner) l := by
    intro offset ts
    obtain ⟨fault, hfault⟩ := h.relational hsign offset ts
    exact ⟨fault, by rw [negation, hnot]; exact hfault⟩
  exact (((hnegation.extended _).extended _).extended _).bindOptional

/-- No operand begins with a reserved word that is no constant. -/
theorem refuses_primary_word {w : String} {k : Keyword} (hword : Keyword.ofWord? w = some k)
    (hconstant : constant? w = none) : Refuses (primary inner) (.word w) := by
  intro offset ts
  refine ⟨⟨offset, .unexpectedToken .expression (.word w)⟩, ?_⟩
  simp only [primary, wordExpr, hconstant]
  exact if_pos (by simp [hword])

/-- No operand begins with a symbol other than an opening one. -/
theorem refuses_primary_symbol {s : Symbol} (hparen : s ≠ .openParen) (hbracket : s ≠ .openBracket)
    (hbrace : s ≠ .openBrace) : Refuses (primary inner) (.symbol s) := by
  intro offset ts
  cases s with
  | openParen => exact absurd rfl hparen
  | openBracket => exact absurd rfl hbracket
  | openBrace => exact absurd rfl hbrace
  | _ => exact ⟨_, rfl⟩

/-- What is no conditional is read as an expression where no question mark follows. -/
theorem TakesAt.conditional (h : TakesAt inner .alternatives ls e) :
    TakesAt inner .conditional ls e := by
  intro rest hstops
  refine (h rest (stops_of_le hstops (by decide))).bindOptional fun ts hts => ?_
  refine ⟨.leaving e ts, ?_, rfl, hts⟩
  unfold branches
  split
  · rw [← hts] at hstops
    cases hstops
  · rfl

/-- A relation is read as a test: it does not begin with the word of a negation. -/
theorem TakesAt.negation (h : TakesAt inner .relational ls e) : TakesAt inner .negation ls e := by
  intro rest hstops ts hts
  have hyields : Yields (Query.relational inner ts) e rest :=
    h rest (stops_of_le hstops (by decide)) ts hts
  change Yields (Query.negation inner ts) e rest
  unfold Query.negation
  split
  · exact hyields
  next step hkeyword =>
    -- the reader of relations would fail on the word
    obtain ⟨w, offset, hword, hts⟩ := eq_of_keyword? hkeyword
    have hconstant : constant? w = none := by rw [constant?, hword]
    have hrefuses : Refuses (primary inner) (.word w) := refuses_primary_word hword hconstant
    obtain ⟨fault, hfault⟩ := hrefuses.relational rfl offset step.rest
    rw [hts] at hyields
    obtain ⟨found, hfound, -⟩ := hyields
    rw [hfault] at hfound
    cases hfound

/-- An operand is read as a signed one: it does not begin with a sign. -/
theorem TakesAt.signed (h : TakesAt inner .access ls e) : TakesAt inner .signed ls e := by
  intro rest hstops ts hts
  have hyields : Yields (Query.access inner ts) e rest :=
    h rest (stops_of_le hstops (by decide)) ts hts
  change Yields (Query.signed inner ts) e rest
  cases ts with
  | nil => exact hyields
  | cons t tail =>
    rw [Query.signed]
    split
    · exact hyields
    next s hsign =>
      -- no operand begins with a sign
      obtain ⟨l, offset⟩ := t
      have hrefuses : Refuses (primary inner) l := by
        cases l with
        | symbol s =>
          refine refuses_primary_symbol ?_ ?_ ?_ <;> rintro rfl <;> cases hsign
        | _ => cases hsign
      obtain ⟨fault, hfault⟩ := hrefuses.extended (nextAccess? inner) offset tail
      obtain ⟨found, hfound, -⟩ := hyields
      rw [Query.access, hfault] at hfound
      cases hfound

/-- The reader of a level takes what that of the next tighter level takes. -/
theorem TakesAt.looser (h : TakesAt inner level.tighter ls e) : TakesAt inner level ls e := by
  cases level using Precedence.cases_isLoop with
  | loop level hloop => exact (h.leads hloop).takes
  | conditional => exact h.conditional
  | negation => exact h.negation
  | signed => exact h.signed
  | primary => exact h

/-- The reader of a level takes what that of a tighter level takes. -/
theorem TakesAt.of_le {loose tight : Precedence} (h : TakesAt inner tight ls e)
    (hle : loose.rank ≤ tight.rank) : TakesAt inner loose ls e :=
  Precedence.induction_looser h (fun _ => TakesAt.looser) loose hle

end Folio.Query
