import Folio.Proofs.Query.Lexemes
import Folio.Proofs.Query.PhraseReading
import Folio.Query.Parser

/-!
# Written expressions are parsed

The lexemes of an expression are a phrase of its level. Parentheses lead any expression back to the
tightest level, and what stands inside them needs one nesting level less than the whole. So a written
expression is parsed again as it was, if it fits into the nesting levels of the parser and is not too
tall.
-/

namespace Folio.Query

open Folio.Expr (enclosure)

/-! ## Expressions -/

variable {n : Nat} {e : Expr}

/-- The lexemes of an expression are a phrase if there are enough nesting levels. -/
def IsPhrase (e : Expr) : Prop := ∀ n, e.nesting ≤ n → Phrase n e.level e.lexemes e

/-- An expression is a phrase of the loosest level. -/
theorem IsPhrase.whole (h : IsPhrase e) (hn : e.nesting ≤ n) : Phrase n .conditional e.lexemes e :=
  (h n hn).of_le (Nat.zero_le _)

/-- At its place an expression is a phrase, in parentheses if it needs them. -/
theorem IsPhrase.at (h : IsPhrase e) (place : Precedence) (hn : enclosure place e + e.nesting ≤ n) :
    Phrase n place (e.lexemesAt place) e := by
  unfold Expr.lexemesAt
  cases hloose : e.isLoose place with
  | true =>
    have hinside : e.nesting < n := by
      simp only [enclosure, hloose, if_true] at hn
      omega
    have hphrase : Phrase n .primary (enclosedIf true e.lexemes) e :=
      .parentheses hinside (h.whole (Nat.le_refl _))
    exact hphrase.of_le (by cases place <;> decide)
  | false =>
    have hphrase := h n (by simpa [enclosure, hloose] using hn)
    exact hphrase.of_le (by simpa [Expr.isLoose] using hloose)

/-- The expressions of a list with their lexemes. -/
def partsOf (items : List Expr) : List (Part Expr) := items.map fun item => ⟨item.lexemes, item⟩

/-- The lexemes of the parts are those of the expressions. -/
theorem lexemes_partsOf (items : List Expr) :
    (partsOf items).map Part.lexemes = Expr.lexemesItems items := by
  simp [partsOf, Expr.lexemesItems_eq_map]

/-- The values of the parts are the expressions. -/
theorem value_partsOf (items : List Expr) : (partsOf items).map Part.value = items := by
  simp [partsOf, Function.comp_def]

/-- The items of a list leave a nesting level to the list. -/
theorem lt_of_partsOf {items : List Expr} (hn : Expr.nestingItems items ≤ n)
    (hitems : partsOf items ≠ []) : n - 1 < n := by
  cases items with
  | nil => exact absurd rfl hitems
  | cons item rest =>
    have hitem := Expr.nestingItems_le_iff.mp hn item List.mem_cons_self
    omega

/-- The items of a list are phrases with one nesting level less. -/
theorem phrase_partsOf {items : List Expr} (h : ∀ item ∈ items, IsPhrase item)
    (hn : Expr.nestingItems items ≤ n) :
    ∀ part ∈ partsOf items, Phrase (n - 1) .conditional part.lexemes part.value := by
  refine List.forall_mem_map.mpr fun item hitem => (h item hitem).whole ?_
  have hdeeper := Expr.nestingItems_le_iff.mp hn item hitem
  omega

/-- Objects whose values are phrases are phrases. -/
theorem phrase_object {entries : List (String × Expr)} (h : ∀ entry ∈ entries, IsPhrase entry.2)
    (hn : Expr.nestingEntries entries ≤ n) :
    Phrase n .primary (Expr.object entries).lexemes (.object entries) := by
  let members : List Member :=
    entries.map fun entry => ⟨.string entry.1, entry.1, ⟨entry.2.lexemes, entry.2⟩⟩
  have hdeeper (entry : String × Expr) (hentry : entry ∈ entries) : 1 + entry.2.nesting ≤ n :=
    Expr.nestingEntries_le_iff.mp hn entry hentry
  have hroom : members ≠ [] → n - 1 < n := by
    intro hmembers
    obtain ⟨_, hmember⟩ := List.exists_mem_of_ne_nil _ hmembers
    obtain ⟨entry, hentry, -⟩ := List.mem_map.mp hmember
    have hlt := hdeeper entry hentry
    omega
  have hphrase := Phrase.object hroom
    (List.forall_mem_map.mpr fun entry _ => IsKey.string entry.1)
    (List.forall_mem_map.mpr fun entry hentry => (h entry hentry).whole
      (by have hle := hdeeper entry hentry; omega))
  have hrows : members.map Member.lexemes = Expr.lexemesEntries entries := by
    rw [Expr.lexemesEntries_eq_map, List.map_map]
    rfl
  have hentries : members.map Member.entry = entries := by
    rw [List.map_map]
    exact List.map_id entries
  rwa [hrows, hentries] at hphrase

/-- The lexeme of an operator joins the operands of its level. -/
theorem op?_lexeme (op : BinaryOp) : op.level.op? op.lexeme = some op := by
  cases op with
  | relation r => cases r <;> rfl
  | arithmetic a => cases a <;> rfl
  | _ => rfl

/-- The lexeme of a constant that can be written is a phrase. -/
theorem phrase_literal {v : Value} (h : Expr.isWritableNode (.literal v) = true) :
    Phrase n .primary [v.lexeme] (.literal v) := by
  cases v with
  | number x => exact .number x
  | string s => exact .string s
  | bool b => cases b <;> exact .constant rfl
  | absent => exact .constant rfl
  | null => exact .constant rfl
  | array items => cases h
  | object entries => cases h

/-- Names are not reserved. -/
theorem not_reserved_of_isName {name : String} (h : Expr.isName name = true) :
    Keyword.ofWord? name = none := by
  simpa using (Bool.and_eq_true_iff.mp h).2

/-- **Written expressions.** The lexemes of an expression that can be written are a phrase of its
level. -/
theorem isPhrase_of_isWritable {e : Expr} (h : e.isWritable = true) : IsPhrase e := by
  induction e using Expr.induction_children with
  | step e ih =>
    obtain ⟨hroot, hwritable⟩ := Expr.every_iff.mp h
    have hchild (child : Expr) (hmem : child ∈ e.children) : IsPhrase child :=
      ih child hmem (hwritable child hmem)
    intro n hn
    -- one case per production; the numbers of levels left differ between the children
    cases e with
    | literal v => exact phrase_literal hroot
    | parameter name => exact .parameter name
    | identifier name => exact .identifier (not_reserved_of_isName hroot)
    | property base key =>
      rw [Expr.nesting, Nat.max_le] at hn
      exact .keyed (Nat.lt_of_succ_le (by omega)) ((hchild base (by simp [Expr.children])).at _ hn.1)
        ((hchild key (by simp [Expr.children])).whole (Nat.le_refl _))
    | array items =>
      have hphrase := Phrase.array (lt_of_partsOf hn) (phrase_partsOf hchild hn)
      rwa [lexemes_partsOf, value_partsOf] at hphrase
    | object entries =>
      exact phrase_object (fun entry hentry => hchild entry.2 (List.mem_map_of_mem hentry)) hn
    | unary op operand =>
      have hoperand := hchild operand (by simp [Expr.children])
      rw [Expr.nesting] at hn
      cases op with
      | not => exact .not (by omega) (by decide) (hoperand.at UnaryOp.not.level (Nat.le_refl _))
      | sign s =>
        have hsign : sign? (UnaryOp.sign s).lexeme = some s := by cases s <;> rfl
        exact .sign (by omega) hsign (hoperand.at (UnaryOp.sign s).level (Nat.le_refl _))
    | binary op left right =>
      rw [Expr.nesting, Nat.max_le] at hn
      exact .binary (op?_lexeme op) ((hchild left (by simp [Expr.children])).at _ hn.1)
        ((hchild right (by simp [Expr.children])).at _ hn.2)
    | conditional test consequent alternate =>
      rw [Expr.nesting, Nat.max_le] at hn
      refine .conditional (m := n - 1) (by omega) ((hchild test (by simp [Expr.children])).at _ hn.1)
        ((hchild consequent (by simp [Expr.children])).whole (by omega))
        ((hchild alternate (by simp [Expr.children])).whole (by omega))
    | among needle choices =>
      rw [Expr.nesting, Nat.max_le] at hn
      have hphrase := Phrase.among (.plain (w := "IN") (by decide))
        ((hchild needle List.mem_cons_self).at _ hn.1) (lt_of_partsOf hn.2)
        (phrase_partsOf (fun choice hchoice => hchild choice (List.mem_cons_of_mem needle hchoice))
          hn.2)
      rwa [lexemes_partsOf, value_partsOf] at hphrase
    | between value low high =>
      rw [Expr.nesting, Nat.max_le, Nat.max_le] at hn
      exact .between (.plain (w := "BETWEEN") (by decide))
        ((hchild value (by simp [Expr.children])).at _ hn.1)
        ((hchild low (by simp [Expr.children])).at _ hn.2.1) (by decide)
        ((hchild high (by simp [Expr.children])).at _ hn.2.2)
    | call name args =>
      obtain ⟨hname, hupper⟩ := Bool.and_eq_true_iff.mp hroot
      have hphrase := Phrase.call (not_reserved_of_isName hname) (lt_of_partsOf hn)
        (phrase_partsOf hchild hn)
      rwa [lexemes_partsOf, value_partsOf, eq_of_beq hupper] at hphrase
    | userCall name args =>
      have hphrase := Phrase.userCall (w := "udf") name (by decide) (lt_of_partsOf hn)
        (phrase_partsOf hchild hn)
      rwa [lexemes_partsOf, value_partsOf] at hphrase

/-- An expression that can be written is read as a whole within the limits of nesting and height. -/
theorem takes_expression (hwritable : e.isWritable = true) (hnesting : e.nesting < maxNesting)
    (hheight : e.height ≤ maxHeight) {rest : List Lexeme} (hstops : stops .conditional rest = true) :
    Takes expression (e.lexemes ++ rest) e rest := by
  intro ts hts
  obtain ⟨step, hstep, hvalue, hrest⟩ :=
    ((isPhrase_of_isWritable hwritable).whole (Nat.le_refl _)).inside hnesting hstops ts hts
  refine ⟨step, ?_, hvalue, hrest⟩
  have hlow : ¬maxHeight < step.value.depth := by rw [hvalue, Expr.depth_eq_height]; omega
  rw [expression, hstep]
  exact if_neg hlow

/-! ## Statements -/

/-- The lexemes of a statement that selects the value of an expression. -/
def valueLexemes (e : Expr) : List Lexeme :=
  [.word "SELECT", .word "VALUE"] ++ e.lexemes ++ [.word "FROM", .word "c"]

/-- Expressions have a lexeme. -/
theorem lexemes_ne_nil (e : Expr) : e.lexemes ≠ [] := by
  cases e <;> simp [Expr.lexemes]

/-- The text of such a statement. -/
theorem toList_valueText (e : Expr) :
    ("SELECT VALUE " ++ e.render ++ " FROM c").toList = spaced (valueLexemes e) := by
  have hopening : [Lexeme.word "SELECT", .word "VALUE"] ≠ [] := List.cons_ne_nil _ _
  have hselected := List.append_ne_nil_of_left_ne_nil hopening e.lexemes
  rw [valueLexemes, spaced_append hselected (List.cons_ne_nil _ _),
    spaced_append hopening (lexemes_ne_nil e), String.toList_append, String.toList_append,
    Expr.render, String.toList_ofList]
  simp [spaced_cons_cons, spaced_singleton, Lexeme.written]

/-- A collection is read without another name where the text ends. -/
theorem takes_source {collection : String} (h : Keyword.ofWord? collection = none) :
    Takes source [.word "FROM", .word collection, .finish] (collection, none) [.finish] := by
  have hfrom : Keyword.ofWord? "FROM" = some .fromCollection := by decide
  have hgiven : Takes givenName [.finish] none [.finish] := by
    intro ts hts
    obtain ⟨offset, tail, rfl, htail⟩ := exists_token hts
    exact ⟨.leaving none (⟨.finish, offset⟩ :: tail), rfl, rfl, congrArg _ htail⟩
  exact (takes_keyword hfrom _).bind ((takes_identifier h _).bindOptional (hgiven.map _))

/-- SELECT is read without a count where none follows. -/
theorem takes_opening (rest : List Lexeme) :
    Takes opening (.word "SELECT" :: .word "VALUE" :: rest) none (.word "VALUE" :: rest) := by
  have hselect : Keyword.ofWord? "SELECT" = some .select := by decide
  exact (takes_keyword hselect _).bindOptional
    (takes_after?_none (keyword?_eq_none (by decide)) rest)

/-- The value of an expression is selected where the expression ends. -/
theorem takes_selection (hwritable : e.isWritable = true) (hnesting : e.nesting < maxNesting)
    (hheight : e.height ≤ maxHeight) {rest : List Lexeme} (hstops : stops .conditional rest = true) :
    Takes selection (.word "VALUE" :: (e.lexemes ++ rest)) (.value e) rest := by
  intro ts hts
  obtain ⟨offset, tail, rfl, htail⟩ := exists_token hts
  have hvalue : Keyword.ofWord? "VALUE" = some .value := by decide
  have hexpression := (takes_expression hwritable hnesting hheight hstops).map Selection.value
  simp only [selection, keyword?_cons hvalue]
  exact (hexpression tail htail).bind

/-- The tokens of a statement that selects the value of an expression are parsed. -/
theorem takes_statement (hwritable : e.isWritable = true) (hnesting : e.nesting < maxNesting)
    (hheight : e.height ≤ maxHeight) :
    Takes statement (valueLexemes e ++ [.finish]) ⟨none, .value e, "c", none, none, []⟩
      [.finish] := by
  have hbare : Takes bare (valueLexemes e ++ [.finish]) ⟨none, .value e, "c", none, none, []⟩
      [.finish] := by
    rw [valueLexemes, List.append_assoc, List.append_assoc]
    exact (takes_opening _).bind ((takes_selection hwritable hnesting hheight rfl).bind
      ((takes_source (by decide)).map _))
  have hfiltered : Takes filtered (valueLexemes e ++ [.finish])
      ⟨none, .value e, "c", none, none, []⟩ [.finish] :=
    hbare.bindOptional ((takes_after?_none (fun _ _ => rfl) []).map _)
  exact hfiltered.bindOptional ((takes_after?_none (fun _ _ => rfl) []).map _)

/-- The lexemes of such a statement are legible if the expression can be written. -/
theorem legibleRow_valueLexemes (h : e.isWritable = true) : LegibleRow (valueLexemes e) := by
  have hopening : LegibleRow [.word "SELECT", .word "VALUE"] :=
    .cons (legible_word (by decide)) (.cons (legible_word (by decide)) (List.forall_mem_nil _))
  have hsource : LegibleRow [.word "FROM", .word "c"] :=
    .cons (legible_word (by decide)) (.cons (legible_word (by decide)) (List.forall_mem_nil _))
  exact (hopening.append (legibleRow_lexemes h)).append hsource

/-- **Parsing what is written.** The text that selects the value of an expression is parsed to the
statement that selects its value, if the expression can be written and is within the limits of
nesting and height. -/
theorem parse_render {e : Expr} (hwritable : e.isWritable = true) (hnesting : e.nesting < maxNesting)
    (hheight : e.height ≤ maxHeight) :
    parse ("SELECT VALUE " ++ e.render ++ " FROM c") =
      .ok ⟨none, .value e, "c", none, none, []⟩ := by
  obtain ⟨ts, htokens, hlexemes⟩ := tokensFrom_spaced (legibleRow_valueLexemes hwritable)
    (Text.byteLength (spaced (valueLexemes e))) rfl
  obtain ⟨step, hstep, hvalue, hrest⟩ := takes_statement hwritable hnesting hheight ts hlexemes
  have hend : current step.rest = .finish := by
    obtain ⟨offset, tail, htail, -⟩ := exists_token hrest
    rw [htail, current]
  have htext : tokens ("SELECT VALUE " ++ e.render ++ " FROM c") = .ok ts := by
    rw [tokens, toList_valueText, htokens]
  rw [parse, htext]
  simp only [bind, Except.bind, hstep, if_pos hend, hvalue]
  rfl

/-- The right operand of a difference and alternatives in a test stand in parentheses; the test, its
negation, the conjunction and the condition need none. -/
theorem parse_render_condition :
    let e : Expr := .conditional
      (.binary .and
        (.unary .not (.among
          (.binary (.arithmetic .subtract) (.identifier "x")
            (.binary (.arithmetic .subtract) (.identifier "y") (.literal (.number (.ofNat 7)))))
          [.parameter "@p", .property (.identifier "z") (.literal (.string "k"))]))
        (.between (.binary .coalesce (.identifier "a") (.identifier "b"))
          (.unary (.sign .minus) (.literal (.number (.ofNat 1))))
          (.userCall "f" [.array [.literal (.bool true)], .call "ABS" [.identifier "c"]])))
      (.literal (.string "s")) (.literal .null)
    e.isWritable = true ∧ e.nesting < maxNesting ∧ e.height ≤ maxHeight ∧
      parse ("SELECT VALUE NOT x - ( y - 7 ) IN ( @p , z [ \"k\" ] ) AND " ++
          "( a ?? b ) BETWEEN - 1 AND udf . f ( [ true ] , ABS ( c ) ) ? \"s\" : null FROM c") =
        .ok ⟨none, .value e, "c", none, none, []⟩ := by
  intro e
  have hwritable : e.isWritable = true := by decide +kernel
  have hnesting : e.nesting < maxNesting := by decide +kernel
  have hheight : e.height ≤ maxHeight := by decide +kernel
  refine ⟨hwritable, hnesting, hheight, ?_⟩
  refine Eq.trans (congrArg parse ?_) (parse_render hwritable hnesting hheight)
  decide +kernel

end Folio.Query
