import Folio.Proofs.Query.Levels
import Folio.Query.Parser

/-!
# Where readers fail

A reader leaves the last ones of its tokens, or it fails at the first one of those that it has left.
This holds of every reader that is put together of such readers, so the parser reports a fault where a
token begins.
-/

namespace Folio.Query

variable {α β : Type} {m n : Nat} {bound : List Token → Nat}

/-- A reading of tokens leaves the last ones of them, or fails where some of the last ones begin. -/
def Located (ts : List Token) : Reading α n → Prop
  | .ok step => step.rest <:+ ts
  | .error fault => ∃ left, left <:+ ts ∧ fault.offset = offsetOf left

/-- A reader leaves the last ones of its tokens, or fails where some of the last ones begin. -/
def Locates (p : (ts : List Token) → Reading α (bound ts)) : Prop := ∀ ts, Located ts (p ts)

/-! ## Readings -/

section

variable {ts left : List Token} {reading : Reading α n}

/-- A reading of what is left of tokens is a reading of the tokens. -/
theorem Located.of_suffix (h : Located left reading) (hleft : left <:+ ts) : Located ts reading := by
  cases reading with
  | ok step => exact h.trans hleft
  | error fault =>
    obtain ⟨last, hlast, hoffset⟩ := h
    exact ⟨last, hlast.trans hleft, hoffset⟩

/-- A reading whose step is turned into one with the same rest fails where the reading does. -/
theorem Located.map (h : Located ts reading) {f : Step α n → Step β m}
    (hf : ∀ step, (f step).rest = step.rest) : Located ts (reading.map f) := by
  cases reading with
  | ok step =>
    change (f step).rest <:+ ts
    rw [hf step]
    exact h
  | error fault => exact h

/-- What follows a reading fails where the reading does, or where some of the tokens begin. -/
theorem Located.follow (h : Located ts reading) {next : Step α n → Reading β m}
    (hnext : ∀ step, step.rest <:+ ts → Located ts (next step)) : Located ts (reading.bind next) := by
  cases reading with
  | ok step => exact hnext step h
  | error fault => exact h

/-- Readings one after another fail where one of them does. -/
theorem Located.bind (h : Located ts reading) {next : Step α n → Reading β m}
    (hnext : ∀ step, Located step.rest (next step)) : Located ts (reading.bind next) :=
  h.follow fun step hrest => (hnext step).of_suffix hrest

/-- A reading after a token fails where the reading does. -/
theorem Located.past {t : Token} (h : Located ts reading) : Located (t :: ts) (past reading) := by
  have hpast : Located ts (Query.past reading) := h.map fun _ => rfl
  exact hpast.of_suffix (List.suffix_cons t ts)

/-- A reading that leaves what comes after a token. -/
theorem located_rest (a : α) (t : Token) (ts : List Token) :
    Located (t :: ts) (.ok (.leaving a ts)) :=
  List.suffix_cons t ts

/-- A reading that leaves all tokens. -/
theorem located_all (a : α) (ts : List Token) : Located ts (.ok (.leaving a ts)) :=
  List.suffix_refl ts

/-- The front token is where it is not what is wanted. -/
theorem located_unexpected (expected : Expected) (ts : List Token) :
    Located (α := α) (n := n) ts (unexpected expected ts) :=
  ⟨ts, List.suffix_refl ts, rfl⟩

/-- The front token is where the nesting is too deep. -/
theorem located_tooDeep (ts : List Token) : Located (α := α) (n := n) ts (tooDeep ts) :=
  ⟨ts, List.suffix_refl ts, rfl⟩

end

/-! ## Readers -/

section

variable {p : Parser α}

/-- A mapped reader fails where the reader does. -/
theorem Locates.map {p : (ts : List Token) → Reading α (bound ts)} (h : Locates p) (f : α → β) :
    Locates fun ts => (p ts).map (Progress.map f) :=
  fun ts => (h ts).map fun _ => rfl

/-- Readers one after another fail where one of them does. -/
theorem Locates.readOn {next : α → (ts : List Token) → Reading β (bound ts)}
    {hbound : ∀ ts, bound ts ≤ ts.length + 1} (h : Locates p) (hnext : ∀ a, Locates (next a)) :
    Locates (readOn p next hbound) :=
  fun ts => (h ts).bind fun step => (hnext step.value step.rest).map fun _ => rfl

/-- So they do if the second reader takes a token. -/
theorem Locates.bind {next : α → Parser β} (h : Locates p) (hnext : ∀ a, Locates (next a)) :
    Locates (p.bind next) := by
  rw [bind_eq_readOn]
  exact h.readOn hnext

/-- So they do if the second reader may take nothing. -/
theorem Locates.bindOptional {next : α → OptionalParser β} (h : Locates p)
    (hnext : ∀ a, Locates (next a)) : Locates (p.bindOptional next) := by
  rw [bindOptional_eq_readOn]
  exact h.readOn hnext

/-- A symbol that is not there is missed at the front. -/
theorem locates_symbol (s : Symbol) : Locates (symbol s) := by
  intro ts
  unfold symbol
  split
  · split
    · exact located_rest _ _ _
    · exact located_unexpected _ _
  · exact located_unexpected _ _

/-- The tokens after a keyword are the last ones. -/
theorem suffix_of_keyword? {k : Keyword} {ts : List Token} {step : Step Unit ts.length}
    (h : keyword? k ts = some step) : step.rest <:+ ts := by
  obtain ⟨w, offset, -, hts⟩ := eq_of_keyword? h
  exact ⟨[⟨.word w, offset⟩], hts.symm⟩

/-- A keyword that is not there is missed at the front. -/
theorem locates_keyword (k : Keyword) : Locates (keyword k) := by
  intro ts
  unfold keyword
  split
  next step hstep => exact suffix_of_keyword? hstep
  next => exact located_unexpected _ _

/-- A name that is not there is missed at the front. -/
theorem locates_name : Locates name := by
  intro ts
  unfold name
  split
  · exact located_rest _ _ _
  · exact located_unexpected _ _

/-- An identifier that is not there is missed at the front. -/
theorem locates_identifier : Locates identifier := by
  intro ts
  unfold identifier
  split
  · split
    · exact located_rest _ _ _
    · exact located_unexpected _ _
  · exact located_unexpected _ _

/-- A reading after a keyword fails where it does. -/
theorem Locates.bind_keyword {next : Unit → Parser β} (hnext : Locates (next ())) {k : Keyword}
    {ts : List Token} {step : Step Unit ts.length} (hstep : keyword? k ts = some step) :
    Located ts (step.bind next) := by
  have hafter : Located step.rest (step.bind next) := (hnext step.rest).map fun _ => rfl
  exact hafter.of_suffix (suffix_of_keyword? hstep)

/-- What a keyword introduces fails where its reader does. -/
theorem Locates.after? (h : Locates p) (k : Keyword) : Locates (after? k p) := by
  intro ts
  unfold Query.after?
  split
  next => exact located_all _ _
  next step hstep => exact ((h.map some).bind_keyword hstep).map fun _ => rfl

/-- A reader before a symbol fails where it does, or where the symbol is missed. -/
theorem Locates.before (h : Locates p) (s : Symbol) : Locates (p.before s) :=
  h.bind fun _ => (locates_symbol s).map _

/-! ## Repetition -/

/-- Extensions leave the last ones of their tokens, or fail where some of the last ones begin. -/
def Extension.Locates (more : Extension α) : Prop :=
  ∀ a ts reading, more a ts = some reading → Located ts reading

/-- What extends a step fails where an extension does. -/
theorem located_extend {more : Extension α} (hmore : more.Locates) (left : Step α n) :
    Located left.rest (left.extend more) := by
  unfold Step.extend
  split
  next => exact List.suffix_refl _
  next reading hreading =>
    refine (hmore _ _ _ hreading).bind fun step => ?_
    have hshorter : (left.after step).rest.length < left.rest.length := step.shorter
    exact located_extend hmore (left.after step)
termination_by left.rest.length
decreasing_by exact hshorter

/-- An extended reader fails where the reader or an extension does. -/
theorem Locates.extended {more : Extension α} (h : Locates p) (hmore : more.Locates) :
    Locates (p.extended more) :=
  fun ts => (h ts).bind fun step => located_extend hmore step

/-- Elements up to a closing symbol fail where one of them does, or where the symbol is missed. -/
theorem Locates.elements (h : Locates p) (close : Symbol) : Locates (elements close p) := by
  intro ts
  unfold Query.elements
  refine (h ts).bind ?_
  rintro ⟨first, rest, hrest⟩
  dsimp only
  split
  next s offset more hmore =>
    have hshorter : more.length < ts.length := Nat.lt_of_succ_lt hmore
    split
    · exact List.suffix_cons _ _
    · split
      · exact ((h.elements close more).of_suffix (List.suffix_cons _ _)).bind fun step =>
          List.suffix_refl step.rest
      · exact located_unexpected _ _
  next => exact located_unexpected _ _
termination_by ts => ts.length
decreasing_by exact hshorter

/-- A closed list fails where one of its elements does, or where its closing symbol is missed. -/
theorem Locates.closedList (h : Locates p) (close : Symbol) : Locates (closedList close p) := by
  intro ts
  unfold Query.closedList
  split
  · split
    · exact located_rest _ _ _
    · exact h.elements close _
  · exact h.elements close _

/-- Elements separated by commas fail where one of them does. -/
theorem Locates.commaSeparated (h : Locates p) : Locates (commaSeparated p) := by
  intro ts
  unfold Query.commaSeparated
  refine (h ts).bind ?_
  rintro ⟨first, rest, hrest⟩
  dsimp only
  split
  next offset more hmore =>
    have hshorter : more.length < ts.length := Nat.lt_of_succ_lt hmore
    exact ((h.commaSeparated more).of_suffix (List.suffix_cons _ _)).bind fun step =>
      List.suffix_refl step.rest
  next => exact List.suffix_refl _
termination_by ts => ts.length
decreasing_by exact hshorter

end

/-! ## The grammar -/

/-- The readers one nesting level deeper fail where some of the last tokens begin. -/
structure LocatesInside (inner : Inner) : Prop where
  expression : Locates inner.expression
  negation : Locates inner.negation
  signed : Locates inner.signed

section

variable {inner : Inner} {level : Precedence}

/-- The rest of a call fails where one of its arguments does, or where a symbol is missed. -/
theorem locates_userCall (h : LocatesInside inner) : Locates (userCall inner) :=
  locates_name.bind fun _ => (locates_symbol _).bind fun _ =>
    (h.expression.closedList .closeParen).map _

/-- What a word begins fails where a part of it does. -/
theorem located_wordExpr (h : LocatesInside inner) (w : String) (offset : Nat) (rest : List Token) :
    Located (⟨.word w, offset⟩ :: rest) (wordExpr inner w offset rest) := by
  unfold wordExpr
  split
  · exact located_rest _ _ _
  · split
    · exact located_unexpected _ _
    · split
      · exact (((h.expression.closedList .closeParen).map _ _).past).past
      · dsimp only
        split
        · exact ((locates_userCall h _).past).past
        · exact located_rest _ _ _
      · exact located_rest _ _ _

/-- Operands fail where a part of them does. -/
theorem locates_primary (h : LocatesInside inner) : Locates (primary inner) := by
  have hkey : Locates entryKey := by
    intro ts
    unfold entryKey
    split
    · exact located_rest _ _ _
    · exact locates_name _
  have hentry : Locates (entry inner) :=
    hkey.bind fun _ => (locates_symbol _).bind fun _ => h.expression.map _
  intro ts
  unfold primary
  split
  · exact located_rest _ _ _
  · exact located_rest _ _ _
  · exact located_rest _ _ _
  · exact (h.expression.before .closeParen _).past
  · exact ((h.expression.closedList .closeBracket).map _ _).past
  · exact ((hentry.closedList .closeBrace).map _ _).past
  · exact located_wordExpr h _ _ _
  · exact located_unexpected _ _

/-- Accesses fail where their keys do. -/
theorem locates_nextAccess? (h : LocatesInside inner) : (nextAccess? inner).Locates := by
  intro base ts reading hreading
  unfold nextAccess? at hreading
  split at hreading
  · cases hreading
    exact (locates_name.map _ _).past
  · cases hreading
    exact ((h.expression.before .closeBracket).map _ _).past
  · cases hreading

/-- The tokens after the words of a test are the last ones. -/
theorem suffix_of_wordTest? {ts : List Token} {words : Step (Bool × WordTest) ts.length}
    (h : wordTest? ts = some words) : words.rest <:+ ts := by
  unfold wordTest? at h
  split at h
  · split at h
    · cases h
      exact List.suffix_cons _ _
    · split at h
      · split at h
        · obtain ⟨test, -, rfl⟩ := Option.map_eq_some_iff.mp h
          exact (List.suffix_cons _ _).trans (List.suffix_cons _ _)
        · cases h
      · cases h
  · cases h

/-- Relations and tests fail where what they compare with does. -/
theorem locates_nextRelation? (h : LocatesInside inner) (hbitOr : Locates (bitOr inner)) :
    (nextRelation? inner).Locates := by
  have htest (left : Expr) (test : WordTest) : Locates (testOf inner left test) := by
    cases test with
    | among => exact (locates_symbol _).bind fun _ => (h.expression.closedList .closeParen).map _
    | between => exact hbitOr.bind fun _ => (locates_keyword _).bind fun _ => hbitOr.map _
  intro left ts reading hreading
  unfold nextRelation? at hreading
  split at hreading
  · cases hreading
  · split at hreading
    · cases hreading
      exact (hbitOr.map _ _).past
    · obtain ⟨words, hwords, rfl⟩ := Option.map_eq_some_iff.mp hreading
      refine Located.of_suffix ?_ (suffix_of_wordTest? hwords)
      exact ((htest left words.value.2).map _ words.rest).map fun _ => rfl

/-- What extends an operand of a level fails where the next operand does. -/
theorem locates_extension (h : LocatesInside inner) (hloop : level.isLoop = true)
    (htighter : Locates (inner.reader level.tighter)) : (inner.extension level).Locates := by
  have hoperators (left : Expr) (t : Token) (rest : List Token)
      {reading : Reading Expr (rest.length + 1)}
      (hreading : ((level.op? t.lexeme).map fun op =>
        past ((inner.reader level.tighter).map (Expr.binary op left) rest)) = some reading) :
      Located (t :: rest) reading := by
    obtain ⟨op, -, rfl⟩ := Option.map_eq_some_iff.mp hreading
    exact (htighter.map _ rest).past
  intro left ts reading hreading
  cases level with
  | relational => exact locates_nextRelation? h htighter left ts reading hreading
  | access => exact locates_nextAccess? h left ts reading hreading
  | _ =>
    cases ts with
    | nil => cases hreading
    | cons t rest => exact hoperators left t rest hreading

/-- Signed operands fail where an operand does. -/
theorem locates_signed (h : LocatesInside inner) (haccess : Locates (access inner)) :
    Locates (signed inner) := by
  intro ts
  unfold signed
  split
  · exact haccess _
  · split
    · exact haccess _
    · exact (h.signed.map _ _).past

/-- Tests after any number of `NOT` fail where a test does. -/
theorem locates_negation (h : LocatesInside inner) (hrelational : Locates (relational inner)) :
    Locates (negation inner) := by
  intro ts
  unfold negation
  split
  next => exact hrelational _
  next step hstep => exact (h.negation.map (Expr.unary .not)).bind_keyword hstep

/-- Expressions with their branches fail where a branch does. -/
theorem locates_conditional (h : LocatesInside inner)
    (halternatives : Locates (alternatives inner)) : Locates (conditional inner) := by
  refine halternatives.bindOptional fun test ts => ?_
  unfold branches
  split
  · have hbranches := (h.expression.before .colon).bind fun consequent =>
      h.expression.map (Expr.conditional test consequent)
    exact (hbranches _).past.map fun _ => rfl
  · exact located_all _ _

/-- The reader of every level fails where some of the last tokens begin. -/
theorem locates_reader (h : LocatesInside inner) (level : Precedence) :
    Locates (inner.reader level) := by
  induction level using Precedence.induction_isLoop with
  | loop level hloop ih =>
    rw [reader_eq_extended hloop]
    exact ih.extended (locates_extension h hloop ih)
  | conditional ih => exact locates_conditional h ih
  | negation ih => exact locates_negation h ih
  | signed ih => exact locates_signed h ih
  | primary => exact locates_primary h

end

/-- With any number of nesting levels left, the readers fail where some of the last tokens begin. -/
theorem locatesInside_within (n : Nat) : LocatesInside (Inner.within n) := by
  induction n with
  | zero => constructor <;> exact fun ts => located_tooDeep ts
  | succ n ih =>
    have hreader := locates_reader ih
    exact ⟨hreader .conditional, hreader .negation, hreader .signed⟩

/-- Whole expressions fail where a part of them does, or at the front if they are too high. -/
theorem locates_expression : Locates expression := by
  intro ts
  refine ((locatesInside_within maxNesting).expression ts).follow fun step hrest => ?_
  split
  · exact located_tooDeep ts
  · exact hrest

/-! ## Statements -/

/-- A count fails at the front. -/
theorem locates_topCount : Locates topCount := by
  intro ts
  unfold topCount
  split
  · split
    · exact located_rest _ _ _
    · exact ⟨_, List.suffix_refl _, rfl⟩
  · exact ⟨_, List.suffix_refl _, rfl⟩

/-- An entry of a SELECT list fails where a part of it does. -/
theorem locates_selectItem : Locates selectItem :=
  locates_expression.bindOptional fun _ => (locates_name.after? .asAlias).map _

/-- A selection fails where an entry of it does. -/
theorem locates_selection : Locates selection := by
  intro ts
  unfold selection
  split
  · exact located_rest _ _ _
  · split
    next step hstep => exact (locates_expression.map Selection.value).bind_keyword hstep
    next => exact (locates_selectItem.commaSeparated _).map fun _ => rfl

/-- The name that a collection goes by fails where it is missed. -/
theorem locates_givenName : Locates givenName := by
  intro ts
  unfold givenName
  split
  next step hstep =>
    exact ((locates_identifier.map some).bind_keyword hstep).map fun _ => rfl
  next =>
    split
    · split
      · exact List.suffix_cons _ _
      · exact located_all _ _
    · exact located_all _ _

/-- A direction never fails. -/
theorem locates_direction : Locates direction := by
  intro ts
  unfold direction
  split
  next _ _ step hstep => exact suffix_of_keyword? hstep
  next _ _ step _ hstep => exact suffix_of_keyword? hstep
  next => exact located_all _ _

/-- An entry of an ORDER BY list fails where its expression does, or at the front if that is no
path. -/
theorem locates_orderItem : Locates orderItem := by
  intro ts
  refine (locates_expression ts).follow fun step hrest => ?_
  split
  · have hdirection := locates_direction.map (OrderItem.mk step.value) step.rest
    have hafter := hdirection.map (f := step.afterOptional) fun _ => rfl
    exact hafter.of_suffix hrest
  · exact ⟨ts, List.suffix_refl ts, rfl⟩

/-- A statement fails where a part of it does. -/
theorem locates_statement : Locates statement := by
  have hopening : Locates opening :=
    (locates_keyword _).bindOptional fun _ => locates_topCount.after? _
  have hsource : Locates source :=
    (locates_keyword _).bind fun _ =>
      locates_identifier.bindOptional fun _ => locates_givenName.map _
  have hbare : Locates bare :=
    hopening.bind fun _ => locates_selection.bind fun _ => hsource.map _
  have hfiltered : Locates filtered :=
    hbare.bindOptional fun _ => (locates_expression.after? _).map _
  have horder : Locates orderList :=
    (locates_keyword _).bind fun _ => locates_orderItem.commaSeparated
  exact hfiltered.bindOptional fun _ => (horder.after? _).map _

/-- **Where parsing fails.** A text that has tokens but is no statement fails where some of the last
tokens begin. -/
theorem exists_suffix_of_parse {text : String} {ts : List Token} {fault : LocatedFault}
    (htokens : tokens text = .ok ts) (h : parse text = .error fault) :
    ∃ left, left <:+ ts ∧ fault.offset = offsetOf left := by
  have hread := locates_statement ts
  rw [parse, htokens] at h
  change (statement ts).bind _ = _ at h
  rcases bind_eq_error_iff.mp h with h | ⟨step, hstep, h⟩
  · rw [h] at hread
    exact hread
  · rw [hstep] at hread
    split at h
    · cases h
    · rw [← Except.error.inj h]
      exact ⟨step.rest, hread, rfl⟩

end Folio.Query
