import Folio.Proofs.Query.Phrases

/-!
# Phrases are read

The reader of a level takes the phrases of the level that its nesting levels are enough for. Each rule
of the grammar has its lemma: what the parts of a phrase are taken as tells what the phrase is taken
as. On the levels whose operators group to the left, a phrase also leads the longer rows that begin
with it.
-/

namespace Folio.Query

/-- The reader of a level takes lexemes of an expression, and the lexemes lead a longer row if
operators of the level group to the left. -/
structure ReadAt (inner : Inner) (level : Precedence) (ls : List Lexeme) (e : Expr) : Prop where
  takes : TakesAt inner level ls e
  leads : level.isLoop = true → LeadsAt inner level ls e

section

variable {inner : Inner} {level loose tight : Precedence} {ls : List Lexeme} {e : Expr}

/-- On a level that groups to the left, leading is enough. -/
theorem ReadAt.of_leads (h : LeadsAt inner level ls e) : ReadAt inner level ls e :=
  ⟨h.takes, fun _ => h⟩

/-- On any other level, taking is enough. -/
theorem ReadAt.of_takes (hloop : level.isLoop = false) (h : TakesAt inner level ls e) :
    ReadAt inner level ls e :=
  ⟨h, fun hgroups => by rw [hloop] at hgroups; cases hgroups⟩

/-- What is read on a level is read on every looser one. -/
theorem ReadAt.of_le (h : ReadAt inner tight ls e) (hle : loose.rank ≤ tight.rank) :
    ReadAt inner loose ls e := by
  refine ⟨h.takes.of_le hle, fun hloop => ?_⟩
  rcases Nat.lt_or_eq_of_le hle with hlt | heq
  · have hnext := Precedence.rank_tighter hlt
    exact (h.takes.of_le (by omega)).leads hloop
  · obtain rfl := Precedence.eq_of_rank_eq heq
    exact h.leads hloop

end

/-- An expression is taken one nesting level deeper. -/
def TakesInside (n : Nat) (part : Part Expr) : Prop :=
  ∀ rest, stops .conditional rest = true →
    Takes (Inner.within n).expression (part.lexemes ++ rest) part.value rest

variable {inner : Inner} {n : Nat} {level : Precedence} {ls ks ws rs : List Lexeme} {e : Expr}

/-- What the reader of expressions takes is taken inside with one nesting level more. -/
theorem TakesAt.inside {m : Nat} {part : Part Expr}
    (h : TakesAt (Inner.within m) .conditional part.lexemes part.value) :
    TakesInside (m + 1) part := h

/-! ## Operands -/

/-- Constants are read. -/
theorem readAt_constant {w : String} {v : Value} (h : constant? w = some v) :
    ReadAt inner .primary [.word w] (.literal v) := by
  refine .of_takes rfl fun rest _ ts hts => ?_
  obtain ⟨offset, tail, rfl, htail⟩ := exists_token hts
  refine ⟨.leaving (.literal v) tail, ?_, rfl, htail⟩
  change wordExpr inner w offset tail = _
  unfold wordExpr
  rw [h]

/-- Constants that are written as one lexeme of their own are read. -/
theorem readAt_lexeme {l : Lexeme}
    (h : ∀ offset tail, primary inner (⟨l, offset⟩ :: tail) = .ok (.leaving e tail)) :
    ReadAt inner .primary [l] e := by
  refine .of_takes rfl fun rest _ ts hts => ?_
  obtain ⟨offset, tail, rfl, htail⟩ := exists_token hts
  exact ⟨.leaving e tail, h offset tail, rfl, htail⟩

/-- A word that is not reserved is no constant. -/
theorem constant?_of_not_reserved {w : String} (h : Keyword.ofWord? w = none) :
    constant? w = none := by
  rw [constant?, h]

/-- Names of the document are read where no call follows. -/
theorem readAt_identifier {w : String} (h : Keyword.ofWord? w = none) :
    ReadAt inner .primary [.word w] (.identifier w) := by
  refine .of_takes rfl fun rest hstops ts hts => ?_
  obtain ⟨offset, tail, rfl, htail⟩ := exists_token hts
  obtain rfl : tail.map Token.lexeme = rest := htail
  refine ⟨.leaving (.identifier w) tail, ?_, rfl, rfl⟩
  change wordExpr inner w offset tail = _
  unfold wordExpr
  simp only [constant?_of_not_reserved h, h, ne_eq, not_true_eq_false, if_false]
  split
  next => cases hstops
  next => cases hstops
  next => rfl

/-- An expression in parentheses is read as an operand. -/
theorem readAt_parentheses (h : TakesInside n ⟨ls, e⟩) :
    ReadAt (Inner.within n) .primary (.symbol .openParen :: (ls ++ [.symbol .closeParen])) e := by
  refine .of_takes rfl fun rest _ ts hts => ?_
  simp only [List.cons_append, List.append_assoc, List.nil_append] at hts
  obtain ⟨offset, tail, rfl, htail⟩ := exists_token hts
  exact ((h _ rfl).before tail htail).past

/-! ## Lists -/

/-- No expression begins with a closing symbol. -/
theorem refuses_closing {s : Symbol} (hs : s = .closeParen ∨ s = .closeBracket) (n : Nat) :
    Refuses (Inner.within n).expression (.symbol s) := by
  cases n with
  | zero => exact fun offset ts => ⟨_, rfl⟩
  | succ n =>
    have hprimary : Refuses (primary (Inner.within n)) (.symbol s) := by
      rcases hs with rfl | rfl <;> exact refuses_primary_symbol (by decide) (by decide) (by decide)
    exact hprimary.conditional (by rcases hs with rfl | rfl <;> rfl) fun _ _ => rfl

/-- Lexemes of a list before others are its rows, the closing symbol and the others. -/
theorem listed_append (first last : Symbol) (rows : List (List Lexeme)) (rest : List Lexeme) :
    listed first last rows ++ rest =
      .symbol first :: (separated rows ++ .symbol last :: rest) := by
  simp [listed]

/-- Expressions with commas between them are taken up to a closing symbol. -/
theorem takes_items {last : Symbol} (hlast : last = .closeParen ∨ last = .closeBracket)
    {items : List (Part Expr)} (h : ∀ item ∈ items, TakesInside n item) (rest : List Lexeme) :
    Takes (closedList last (Inner.within n).expression)
      (separated (items.map Part.lexemes) ++ .symbol last :: rest) (items.map Part.value) rest := by
  refine takes_closedList (by rcases hlast with rfl | rfl <;> decide) (refuses_closing hlast n)
    (fun item hitem next hnext rest => h item hitem _ ?_) rest
  rcases hnext with rfl | rfl
  · rcases hlast with rfl | rfl <;> rfl
  · rfl

/-- Arrays are read. -/
theorem readAt_array {items : List (Part Expr)} (h : ∀ item ∈ items, TakesInside n item) :
    ReadAt (Inner.within n) .primary (listed .openBracket .closeBracket (items.map Part.lexemes))
      (.array (items.map Part.value)) := by
  refine .of_takes rfl fun rest _ ts hts => ?_
  rw [listed_append] at hts
  obtain ⟨offset, tail, rfl, htail⟩ := exists_token hts
  exact (((takes_items (.inr rfl) h rest).map Expr.array) tail htail).past

/-- The key of an entry is taken. -/
theorem takes_entryKey {l : Lexeme} {name : String} (h : IsKey l name) (rest : List Lexeme) :
    Takes entryKey (l :: rest) name rest := by
  intro ts hts
  obtain ⟨offset, tail, rfl, htail⟩ := exists_token hts
  cases h <;> exact ⟨.leaving name tail, rfl, rfl, htail⟩

/-- Objects are read. -/
theorem readAt_object {members : List Member}
    (hkeys : ∀ member ∈ members, IsKey member.key member.name)
    (h : ∀ member ∈ members, TakesInside n member.value) :
    ReadAt (Inner.within n) .primary (listed .openBrace .closeBrace (members.map Member.lexemes))
      (.object (members.map Member.entry)) := by
  have hrefuses : Refuses (entry (Inner.within n)) (.symbol .closeBrace) := fun offset ts => ⟨_, rfl⟩
  let parts : List (Part (String × Expr)) :=
    members.map fun member => ⟨member.lexemes, member.entry⟩
  have hparts : ∀ part ∈ parts, TakesPart (entry (Inner.within n)) .closeBrace part := by
    refine List.forall_mem_map.mpr fun member hmember next hnext rest => ?_
    refine (takes_entryKey (hkeys member hmember) _).bind ((takes_symbol _ _).bind (Takes.map ?_ _))
    refine h member hmember _ ?_
    rcases hnext with rfl | rfl <;> rfl
  have htakes (rest : List Lexeme) : Takes (closedList .closeBrace (entry (Inner.within n)))
      (separated (members.map Member.lexemes) ++ .symbol .closeBrace :: rest)
      (members.map Member.entry) rest := by
    simpa only [parts, List.map_map, Function.comp_def] using
      takes_closedList (by decide) hrefuses hparts rest
  refine .of_takes rfl fun rest _ ts hts => ?_
  rw [listed_append] at hts
  obtain ⟨offset, tail, rfl, htail⟩ := exists_token hts
  exact (((htakes rest).map Expr.object) tail htail).past

/-- Calls of built-in functions are read. -/
theorem readAt_call {w : String} {args : List (Part Expr)} (hname : Keyword.ofWord? w = none)
    (h : ∀ arg ∈ args, TakesInside n arg) :
    ReadAt (Inner.within n) .primary
      (.word w :: listed .openParen .closeParen (args.map Part.lexemes))
      (.call (asciiUpper w) (args.map Part.value)) := by
  refine .of_takes rfl fun rest _ ts hts => ?_
  rw [List.cons_append, listed_append] at hts
  obtain ⟨offset, tail, rfl, htail⟩ := exists_token hts
  obtain ⟨paren, more, rfl, hmore⟩ := exists_token htail
  change Yields (wordExpr _ w offset _) _ _
  unfold wordExpr
  simp only [constant?_of_not_reserved hname, hname, ne_eq, not_true_eq_false, if_false]
  exact (((takes_items (.inl rfl) h rest).map (Expr.call (asciiUpper w))) more hmore).past.past

/-- The qualifier of functions that the caller provides is not reserved. -/
theorem ofWord?_of_isUserQualifier {w : String} (h : isUserQualifier w = true) :
    Keyword.ofWord? w = none := by
  have hupper : asciiUpper w = "UDF" := eq_of_beq h
  rw [Keyword.ofWord?, hupper]
  decide

/-- Calls of functions that the caller provides are read. -/
theorem readAt_userCall {w name : String} {args : List (Part Expr)}
    (hw : isUserQualifier w = true) (h : ∀ arg ∈ args, TakesInside n arg) :
    ReadAt (Inner.within n) .primary
      (.word w :: .symbol .dot :: .word name ::
        listed .openParen .closeParen (args.map Part.lexemes))
      (.userCall name (args.map Part.value)) := by
  refine .of_takes rfl fun rest _ ts hts => ?_
  simp only [List.cons_append, listed_append] at hts
  obtain ⟨offset, tail, rfl, htail⟩ := exists_token hts
  obtain ⟨dot, called, rfl, hcalled⟩ := exists_token htail
  have hcall : Takes (userCall (Inner.within n)) (.word name :: .symbol .openParen ::
      (separated (args.map Part.lexemes) ++ .symbol .closeParen :: rest))
      (.userCall name (args.map Part.value)) rest :=
    (takes_name name _).bind ((takes_symbol .openParen _).bind
      ((takes_items (.inl rfl) h rest).map (Expr.userCall name)))
  have hyields := hcall called hcalled
  obtain ⟨place, others, rfl, hothers⟩ := exists_token hcalled
  obtain ⟨paren, more, rfl, hmore⟩ := exists_token hothers
  have hreserved := ofWord?_of_isUserQualifier hw
  change Yields (wordExpr _ w offset _) _ _
  unfold wordExpr
  simp only [constant?_of_not_reserved hreserved, hreserved, ne_eq, not_true_eq_false, if_false, hw,
    if_true]
  exact hyields.past.past

/-! ## Accesses -/

/-- Where no call follows, none follows after an access by name. -/
theorem stops_named {rest : List Lexeme} (h : stops .primary rest = true) (key : String) :
    stops .primary (.symbol .dot :: .word key :: rest) = true := by
  cases rest with
  | nil => rfl
  | cons l rest =>
    cases l with
    | symbol s =>
      cases s with
      | openParen => cases h
      | _ => rfl
    | _ => rfl

/-- An access by name is read after its base. -/
theorem ReadAt.named (h : ReadAt inner .access ls e) (key : String) :
    ReadAt inner .access (ls ++ [.symbol .dot, .word key])
      (.property e (.literal (.string key))) := by
  refine .of_leads fun rest whole left hstops hextends => ?_
  rw [List.append_assoc]
  refine h.leads rfl _ whole left (stops_named hstops key)
    (extends_of_some (fun ts hts => ?_) hextends)
  obtain ⟨offset, tail, rfl, htail⟩ := exists_token hts
  exact ⟨_, rfl, (((takes_name key rest).map _) tail htail).past⟩

/-- An access by key is read after its base. -/
theorem ReadAt.keyed {key : Expr} (h : ReadAt (Inner.within n) .access ls e)
    (hkey : TakesInside n ⟨ks, key⟩) :
    ReadAt (Inner.within n) .access (ls ++ .symbol .openBracket :: (ks ++ [.symbol .closeBracket]))
      (.property e key) := by
  refine .of_leads fun rest whole left hstops hextends => ?_
  rw [List.append_assoc]
  refine h.leads rfl _ whole left rfl (extends_of_some (fun ts hts => ?_) hextends)
  simp only [List.cons_append, List.append_assoc, List.nil_append] at hts
  obtain ⟨offset, tail, rfl, htail⟩ := exists_token hts
  exact ⟨_, rfl, (((hkey _ rfl).before.map (Expr.property e)) tail htail).past⟩

/-! ## Operators -/

/-- Negations are read one nesting level deeper. -/
theorem readAt_not {w : String} (hnot : Keyword.ofWord? w = some .not)
    (h : TakesAt (Inner.within n) .negation ls e) :
    ReadAt (Inner.within (n + 1)) .negation (.word w :: ls) (.unary .not e) := by
  refine .of_takes rfl fun rest hstops ts hts => ?_
  obtain ⟨offset, tail, rfl, htail⟩ := exists_token hts
  change Yields (Query.negation (Inner.within (n + 1)) _) _ rest
  rw [Query.negation, keyword?_cons hnot]
  exact ((Takes.map (h rest hstops) (Expr.unary .not)) tail htail).bind

/-- Signed operands are read one nesting level deeper. -/
theorem readAt_sign {l : Lexeme} {s : Sign} (hsign : sign? l = some s)
    (h : TakesAt (Inner.within n) .signed ls e) :
    ReadAt (Inner.within (n + 1)) .signed (l :: ls) (.unary (.sign s) e) := by
  refine .of_takes rfl fun rest hstops ts hts => ?_
  obtain ⟨offset, tail, rfl, htail⟩ := exists_token hts
  change Yields (Query.signed (Inner.within (n + 1)) _) _ rest
  rw [Query.signed, hsign]
  exact ((Takes.map (h rest hstops) (Expr.unary (.sign s))) tail htail).past

/-- Operators between two operands are read, the left operand on their own level. -/
theorem ReadAt.binary {l : Lexeme} {op : BinaryOp} {right : Expr} (hop : level.op? l = some op)
    (hleft : ReadAt inner level ls e) (hright : ReadAt inner level.tighter rs right) :
    ReadAt inner level (ls ++ l :: rs) (.binary op e right) := by
  -- the left operand leads the row: the operator and the right operand extend it
  refine .of_leads fun rest whole remaining hstops hextends => ?_
  rw [List.append_assoc]
  refine hleft.leads (isLoop_of_op? hop) _ whole remaining (stops_of_op? hop _)
    (extends_of_some (fun ts hts => ?_) hextends)
  rw [List.cons_append] at hts
  obtain ⟨offset, tail, rfl, htail⟩ := exists_token hts
  exact ⟨_, extension_of_op? hop e offset tail,
    (((hright.takes rest hstops).map (Expr.binary op e)) tail htail).past⟩

/-- The words of a test end the levels tighter than relations. -/
theorem TestWords.stops {negated : Bool} {test : WordTest} (h : TestWords negated test ws)
    (rest : List Lexeme) : Query.stops .bitOr (ws ++ rest) = true := by
  have hword {w : String} {test : WordTest}
      (h : WordTest.ofKeyword? (Keyword.ofWord? w) = some test) :
      (Lexeme.word w).continues = some .relational := by
    unfold WordTest.ofKeyword? at h
    split at h <;> simp_all [Lexeme.continues]
  cases h with
  | plain h => simp [Query.stops, continuation_cons, hword h, Precedence.rank]
  | negated hnot h => simp [Query.stops, continuation_cons, Lexeme.continues, hnot, Precedence.rank]

/-- The words of a test extend an operand by what the test compares it with. -/
theorem TestWords.extension {negated : Bool} {test : WordTest} (h : TestWords negated test ws)
    {ts : List Token} {rest : List Lexeme} (hts : ts.map Token.lexeme = ws ++ rest) (inner : Inner)
    (left : Expr) : ∃ words : Step (Bool × WordTest) ts.length,
      words.value = (negated, test) ∧ words.rest.map Token.lexeme = rest ∧
      inner.extension .relational left ts = some (words.bind fun (negated, test) =>
        (testOf inner left test).map (negatedIf negated)) := by
  cases h with
  | plain h =>
    obtain ⟨offset, tail, rfl, htail⟩ := exists_token hts
    refine ⟨.leaving (false, test) tail, rfl, htail, ?_⟩
    simp only [Inner.extension, nextRelation?, relationOp?, wordTest?, h, Option.map_some]
  | @negated w v _ hnot h =>
    obtain ⟨offset, tail, rfl, htail⟩ := exists_token hts
    obtain ⟨place, more, rfl, hmore⟩ := exists_token htail
    refine ⟨(Progress.leaving (true, test) more).past, rfl, hmore, ?_⟩
    have hplain : WordTest.ofKeyword? (some .not) = none := rfl
    simp only [Inner.extension, nextRelation?, relationOp?, wordTest?, hnot, hplain, h, if_true,
      Option.map_some]

/-- A test of an operand is read on the level of relations. -/
theorem ReadAt.test {negated : Bool} {test : WordTest} {left : Expr}
    (hwords : TestWords negated test ws) (hleft : ReadAt inner .relational ls left)
    (htest : ∀ rest, stops .bitOr rest = true → Takes (testOf inner left test) (rs ++ rest) e rest) :
    ReadAt inner .relational (ls ++ (ws ++ rs)) (negatedIf negated e) := by
  refine .of_leads fun rest whole remaining hstops hextends => ?_
  rw [List.append_assoc, List.append_assoc]
  refine hleft.leads rfl _ whole remaining (hwords.stops _)
    (extends_of_some (fun ts hts => ?_) hextends)
  obtain ⟨words, hvalue, hrest, hextension⟩ := hwords.extension hts inner left
  refine ⟨_, hextension, Yields.bind ?_⟩
  rw [hvalue]
  exact ((htest rest hstops).map (negatedIf negated)) words.rest hrest

/-- A list is compared with up to its closing parenthesis. -/
theorem takes_among {choices : List (Part Expr)} (h : ∀ choice ∈ choices, TakesInside n choice)
    (needle : Expr) (rest : List Lexeme) :
    Takes (testOf (Inner.within n) needle .among)
      (listed .openParen .closeParen (choices.map Part.lexemes) ++ rest)
      (.among needle (choices.map Part.value)) rest := by
  rw [listed_append]
  exact (takes_symbol _ _).bind ((takes_items (.inl rfl) h rest).map (Expr.among needle))

/-- An interval is compared with up to where its end ends. -/
theorem takes_between {w : String} {highs rest : List Lexeme} {high : Expr}
    (hand : Keyword.ofWord? w = some .and) (hlow : TakesAt inner .bitOr ls e)
    (hhigh : TakesAt inner .bitOr highs high) (value : Expr) (hstops : stops .bitOr rest = true) :
    Takes (testOf inner value .between) (ls ++ .word w :: highs ++ rest)
      (.between value e high) rest := by
  have hand' : stops .bitOr (.word w :: (highs ++ rest)) = true := by
    simp [stops, continuation_cons, Lexeme.continues, hand, Precedence.rank]
  rw [List.append_assoc]
  exact (hlow _ hand').bind ((takes_keyword hand _).bind
    ((hhigh rest hstops).map (Expr.between value e)))

/-- Conditionals are read, the branches one nesting level deeper. -/
theorem readAt_conditional {cs as : List Lexeme} {consequent alternate : Expr}
    (htest : TakesAt (Inner.within n) .alternatives ls e)
    (hconsequent : TakesInside n ⟨cs, consequent⟩) (halternate : TakesInside n ⟨as, alternate⟩) :
    ReadAt (Inner.within n) .conditional (ls ++ .symbol .question :: (cs ++ .symbol .colon :: as))
      (.conditional e consequent alternate) := by
  refine .of_takes rfl fun rest hstops => ?_
  rw [List.append_assoc]
  refine Takes.bindOptional (htest _ rfl) fun ts hts => ?_
  simp only [List.cons_append, List.append_assoc] at hts
  obtain ⟨offset, tail, rfl, htail⟩ := exists_token hts
  have hbranches : Takes (((Inner.within n).expression.before .colon).bind fun consequent =>
      (Inner.within n).expression.map (Expr.conditional e consequent))
      (cs ++ .symbol .colon :: (as ++ rest)) (.conditional e consequent alternate) rest :=
    (hconsequent _ rfl).before.bind ((halternate rest hstops).map _)
  exact (hbranches tail htail).past.past

/-! ## Phrases -/

/-- More than no nesting levels are one and others. -/
theorem exists_deeper {m n k : Nat} (hm : m < n) (hk : n ≤ k) : ∃ j, k = j + 1 ∧ m ≤ j :=
  ⟨k - 1, by omega, by omega⟩

/-- **Phrases.** The readers with enough nesting levels left read a phrase on its level. -/
theorem Phrase.readAt {e : Expr} (h : Phrase n level ls e) :
    ∀ k, n ≤ k → ReadAt (Inner.within k) level ls e := by
  have hinside {m n k : Nat} {part : Part Expr}
      (h : ∀ k, m ≤ k → ReadAt (Inner.within k) .conditional part.lexemes part.value) (hm : m < n)
      (hk : n ≤ k) : TakesInside k part := by
    obtain ⟨j, rfl, hj⟩ := exists_deeper hm hk
    exact (h j hj).takes.inside
  have hitems {m n k : Nat} {items : List (Part Expr)}
      (h : ∀ item ∈ items, ∀ k, m ≤ k →
        ReadAt (Inner.within k) .conditional item.lexemes item.value)
      (hm : items ≠ [] → m < n) (hk : n ≤ k) : ∀ item ∈ items, TakesInside k item :=
    fun item hitem => hinside (h item hitem) (hm (List.ne_nil_of_mem hitem)) hk
  induction h with
  | number x => exact fun k _ => readAt_lexeme fun _ _ => rfl
  | string s => exact fun k _ => readAt_lexeme fun _ _ => rfl
  | parameter name => exact fun k _ => readAt_lexeme fun _ _ => rfl
  | constant h => exact fun k _ => readAt_constant h
  | identifier h => exact fun k _ => readAt_identifier h
  | parentheses hm _ ih => exact fun k hk => readAt_parentheses (hinside ih hm hk)
  | array hm _ ih => exact fun k hk => readAt_array (hitems ih hm hk)
  | object hm hkeys _ ih =>
    exact fun k hk => readAt_object hkeys fun member hmember =>
      hinside (ih member hmember) (hm (List.ne_nil_of_mem hmember)) hk
  | call hname hm _ ih => exact fun k hk => readAt_call hname (hitems ih hm hk)
  | userCall name hw hm _ ih => exact fun k hk => readAt_userCall hw (hitems ih hm hk)
  | named _ key ih => exact fun k hk => (ih k hk).named key
  | keyed hm _ _ ihbase ihkey => exact fun k hk => (ihbase k hk).keyed (hinside ihkey hm hk)
  | sign hm hsign _ ih =>
    intro k hk
    obtain ⟨j, rfl, hj⟩ := exists_deeper hm hk
    exact readAt_sign hsign (ih j hj).takes
  | binary hop _ _ ihleft ihright => exact fun k hk => (ihleft k hk).binary hop (ihright k hk)
  | among hwords _ hm _ ihneedle ih =>
    exact fun k hk => (ihneedle k hk).test hwords fun rest _ =>
      takes_among (hitems ih hm hk) _ rest
  | between hwords _ _ hand _ ihvalue ihlow ihhigh =>
    exact fun k hk => (ihvalue k hk).test hwords fun rest hstops =>
      takes_between hand (ihlow k hk).takes (ihhigh k hk).takes _ hstops
  | not hm hnot _ ih =>
    intro k hk
    obtain ⟨j, rfl, hj⟩ := exists_deeper hm hk
    exact readAt_not hnot (ih j hj).takes
  | conditional hm _ _ _ ihtest ihconsequent ihalternate =>
    exact fun k hk => readAt_conditional (ihtest k hk).takes (hinside ihconsequent hm hk)
      (hinside ihalternate hm hk)
  | looser _ ih => exact fun k hk => (ih k hk).of_le (Precedence.rank_le_rank_tighter _)

/-- A phrase is taken inside if a nesting level is left to what it stands in. -/
theorem Phrase.inside {m : Nat} (h : Phrase m .conditional ls e) (hm : m < n) {rest : List Lexeme}
    (hstops : stops .conditional rest = true) :
    Takes (Inner.within n).expression (ls ++ rest) e rest := by
  obtain ⟨j, rfl, hj⟩ := exists_deeper hm (Nat.le_refl n)
  exact (h.readAt j hj).takes rest hstops

end Folio.Query
