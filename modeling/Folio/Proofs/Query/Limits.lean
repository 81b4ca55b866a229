import Folio.Proofs.Query.Levels
import Folio.Proofs.Query.Parsing

/-!
# Readers with fewer nesting levels

With fewer nesting levels left, a reader has the same outcome or fails because the nesting is too deep.
This holds of every reader that is put together of such readers, and so of those of the grammar.
-/

namespace Folio.Query

variable {α β : Type} {m n : Nat}

/-- A reading is the full one, or it fails because the nesting is too deep. -/
def Curbed (reading full : Reading α n) : Prop :=
  reading = full ∨ ∃ offset, reading = .error ⟨offset, .tooDeep⟩

/-- A reader reads as the full one does, or it fails because the nesting is too deep. -/
def Curbs (p full : Parser α) : Prop := ∀ ts, Curbed (p ts) (full ts)

/-! ## Readings -/

/-- The full reading is such a reading. -/
theorem Curbed.refl (reading : Reading α n) : Curbed reading reading := .inl rfl

/-- A reading whose step is turned into another is curbed if the reading is. -/
theorem Curbed.map {reading full : Reading α n} (h : Curbed reading full) (f : Step α n → Step β m) :
    Curbed (reading.map f) (full.map f) := by
  rcases h with rfl | ⟨offset, rfl⟩
  · exact .refl _
  · exact .inr ⟨offset, rfl⟩

/-- Readings one after another are curbed if each of them is. -/
theorem Curbed.bind {reading full : Reading α n} {next after : Step α n → Reading β m}
    (h : Curbed reading full) (hnext : ∀ step, Curbed (next step) (after step)) :
    Curbed (reading.bind next) (full.bind after) := by
  rcases h with rfl | ⟨offset, rfl⟩
  · cases reading with
    | error fault => exact .refl _
    | ok step => exact hnext step
  · exact .inr ⟨offset, rfl⟩

/-! ## Readers -/

section

variable {p full : Parser α}

/-- The full reader is such a reader. -/
theorem Curbs.refl (p : Parser α) : Curbs p p := fun _ => .refl _

/-- A mapped reader is curbed if the reader is. -/
theorem Curbs.map (h : Curbs p full) (f : α → β) : Curbs (p.map f) (full.map f) :=
  fun ts => (h ts).map _

/-- Readers one after another are curbed if each of them is. -/
theorem Curbs.bind {next after : α → Parser β} (h : Curbs p full)
    (hnext : ∀ a, Curbs (next a) (after a)) : Curbs (p.bind next) (full.bind after) :=
  fun ts => (h ts).bind fun step => (hnext step.value step.rest).map step.after

/-- A reader before a symbol is curbed if the reader is. -/
theorem Curbs.before (h : Curbs p full) (s : Symbol) : Curbs (p.before s) (full.before s) :=
  h.bind fun _ => .refl _

/-- Extensions extend the same values, and each reading is curbed. -/
def Extension.Curbs (more full : Extension α) : Prop :=
  ∀ a ts, Option.Rel Curbed (more a ts) (full a ts)

/-- What extends a step is curbed if the extensions are. -/
theorem curbed_extend {more full : Extension α} (hmore : more.Curbs full) (left : Step α n) :
    Curbed (left.extend more) (left.extend full) := by
  rw [Step.extend.eq_def, Step.extend.eq_def full]
  generalize hreading : more left.value left.rest = reading
  generalize hafter : full left.value left.rest = after
  have hrel : Option.Rel Curbed reading after := hreading ▸ hafter ▸ hmore left.value left.rest
  cases hrel with
  | none => exact .refl _
  | some hcurbed =>
    refine Curbed.bind hcurbed fun step => ?_
    have hshorter : (left.after step).rest.length < left.rest.length := step.shorter
    exact curbed_extend hmore (left.after step)
termination_by left.rest.length
decreasing_by exact hshorter

/-- An extended reader is curbed if the reader and the extensions are. -/
theorem Curbs.extended {more after : Extension α} (h : Curbs p full) (hmore : more.Curbs after) :
    Curbs (p.extended more) (full.extended after) :=
  fun ts => (h ts).bind fun step => curbed_extend hmore step

/-- Elements up to a closing symbol are curbed if each is. -/
theorem curbs_elements {close : Symbol} (h : Curbs p full) :
    Curbs (elements close p) (elements close full) := by
  intro ts
  rw [elements.eq_def, elements.eq_def close full]
  refine Curbed.bind (h ts) ?_
  rintro ⟨first, rest, hrest⟩
  dsimp only
  split
  next s offset more hmore =>
    have hshorter : more.length < ts.length := Nat.lt_of_succ_lt hmore
    split
    · exact .refl _
    · split
      · exact Curbed.map (curbs_elements h more) _
      · exact .refl _
  next => exact .refl _
termination_by ts => ts.length
decreasing_by exact hshorter

/-- A closed list is curbed if its elements are. -/
theorem Curbs.closedList (h : Curbs p full) (close : Symbol) :
    Curbs (closedList close p) (closedList close full) := by
  intro ts
  unfold Query.closedList
  split
  · split
    · exact .refl _
    · exact curbs_elements h _
  · exact curbs_elements h _

end

/-! ## The grammar -/

/-- The readers one nesting level deeper are curbed. -/
structure CurbsInside (inner full : Inner) : Prop where
  expression : Curbs inner.expression full.expression
  negation : Curbs inner.negation full.negation
  signed : Curbs inner.signed full.signed

section

variable {inner full : Inner} {level : Precedence}

/-- What a word begins is curbed. -/
theorem curbed_wordExpr (h : CurbsInside inner full) (w : String) (offset : Nat)
    (rest : List Token) : Curbed (wordExpr inner w offset rest) (wordExpr full w offset rest) := by
  have hargs : Curbs (exprList inner) (exprList full) := h.expression.closedList .closeParen
  have hcall : Curbs (userCall inner) (userCall full) :=
    (Curbs.refl name).bind fun _ => (Curbs.refl _).bind fun _ => hargs.map _
  unfold wordExpr
  split
  · exact .refl _
  · split
    · exact .refl _
    · split
      · exact ((hargs.map _ _).map _).map _
      · dsimp only
        split
        · exact ((hcall _).map _).map _
        · exact .refl _
      · exact .refl _

/-- Operands are curbed. -/
theorem curbs_primary (h : CurbsInside inner full) : Curbs (primary inner) (primary full) := by
  have hentry : Curbs (entry inner) (entry full) :=
    (Curbs.refl _).bind fun _ => (Curbs.refl _).bind fun _ => h.expression.map _
  intro ts
  unfold primary
  split
  · exact .refl _
  · exact .refl _
  · exact .refl _
  · exact (h.expression.before .closeParen _).map _
  · exact ((h.expression.closedList .closeBracket).map _ _).map _
  · exact ((hentry.closedList .closeBrace).map _ _).map _
  · exact curbed_wordExpr h _ _ _
  · exact .refl _

/-- Accesses are curbed. -/
theorem curbs_nextAccess? (h : CurbsInside inner full) :
    (nextAccess? inner).Curbs (nextAccess? full) := by
  intro base ts
  unfold nextAccess?
  split
  · exact .some (.refl _)
  · exact .some (((h.expression.before .closeBracket).map _ _).map _)
  · exact .none

/-- Relations and tests are curbed. -/
theorem curbs_nextRelation? (h : CurbsInside inner full) (hbitOr : Curbs (bitOr inner) (bitOr full)) :
    (nextRelation? inner).Curbs (nextRelation? full) := by
  have htest (left : Expr) (test : WordTest) :
      Curbs (testOf inner left test) (testOf full left test) := by
    cases test with
    | among =>
      exact (Curbs.refl _).bind fun _ => (h.expression.closedList .closeParen).map _
    | between => exact hbitOr.bind fun _ => (Curbs.refl _).bind fun _ => hbitOr.map _
  intro left ts
  unfold nextRelation?
  split
  · exact .none
  · split
    · exact .some ((hbitOr.map _ _).map _)
    · cases wordTest? _ with
      | none => exact .none
      | some words => exact .some (((htest left words.value.2).map _ _).map _)

/-- What extends an operand of a level is curbed. -/
theorem curbs_extension (h : CurbsInside inner full) (hloop : level.isLoop = true)
    (htighter : Curbs (inner.reader level.tighter) (full.reader level.tighter)) :
    (inner.extension level).Curbs (full.extension level) := by
  have hoperators (left : Expr) (t : Token) (rest : List Token) : Option.Rel Curbed
      ((level.op? t.lexeme).map fun op =>
        past ((inner.reader level.tighter).map (Expr.binary op left) rest))
      ((level.op? t.lexeme).map fun op =>
        past ((full.reader level.tighter).map (Expr.binary op left) rest)) := by
    cases level.op? t.lexeme with
    | none => exact .none
    | some op => exact .some ((htighter.map _ rest).map _)
  intro left ts
  cases level with
  | relational => exact curbs_nextRelation? h htighter left ts
  | access => exact curbs_nextAccess? h left ts
  | _ =>
    cases ts with
    | nil => exact .none
    | cons t rest => exact hoperators left t rest

/-- Signed operands are curbed. -/
theorem curbs_signed (h : CurbsInside inner full) (haccess : Curbs (access inner) (access full)) :
    Curbs (signed inner) (signed full) := by
  intro ts
  unfold signed
  split
  · exact haccess _
  · split
    · exact haccess _
    · exact (h.signed.map _ _).map _

/-- Tests after any number of `NOT` are curbed. -/
theorem curbs_negation (h : CurbsInside inner full)
    (hrelational : Curbs (relational inner) (relational full)) :
    Curbs (negation inner) (negation full) := by
  intro ts
  unfold negation
  split
  · exact hrelational _
  · exact (h.negation.map _ _).map _

/-- Expressions with their branches are curbed. -/
theorem curbs_conditional (h : CurbsInside inner full)
    (halternatives : Curbs (alternatives inner) (alternatives full)) :
    Curbs (conditional inner) (conditional full) := by
  have hbranches (test : Expr) (ts : List Token) :
      Curbed (branches inner test ts) (branches full test ts) := by
    unfold branches
    split
    · exact ((((h.expression.before .colon).bind fun _ => h.expression.map _) _).map _).map _
    · exact .refl _
  exact fun ts => (halternatives ts).bind fun step => (hbranches step.value step.rest).map _

/-- The reader of every level is curbed. -/
theorem curbs_reader (h : CurbsInside inner full) (level : Precedence) :
    Curbs (inner.reader level) (full.reader level) := by
  induction level using Precedence.induction_isLoop with
  | loop level hloop ih =>
    rw [reader_eq_extended hloop, reader_eq_extended hloop]
    exact ih.extended (curbs_extension h hloop ih)
  | conditional ih => exact curbs_conditional h ih
  | negation ih => exact curbs_negation h ih
  | signed ih => exact curbs_signed h ih
  | primary => exact curbs_primary h

end

/-- **Fewer nesting levels.** With fewer nesting levels left, the readers have the same outcome as
with more, or they fail because the nesting is too deep. -/
theorem curbsInside_within (h : m ≤ n) : CurbsInside (Inner.within m) (Inner.within n) := by
  induction m generalizing n with
  | zero => constructor <;> exact fun ts => .inr ⟨offsetOf ts, rfl⟩
  | succ m ih =>
    obtain ⟨n, rfl⟩ := Nat.exists_eq_add_of_le' (Nat.lt_of_lt_of_le (Nat.succ_pos m) h)
    have hreader := curbs_reader (ih (Nat.le_of_succ_le_succ h))
    exact ⟨hreader .conditional, hreader .negation, hreader .signed⟩

end Folio.Query
