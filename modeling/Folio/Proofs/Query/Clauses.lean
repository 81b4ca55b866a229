import Folio.Proofs.Query.Derivation

/-!
# Clauses

The grammar of statements as rules, beside that of expressions: which lexemes are which part of a
statement. The readers of statements keep to the rules.
-/

namespace Folio.Query

/-! ## Rules -/

/-- What a keyword introduces by a rule, or nothing. -/
inductive Introduced {α : Type} (k : Keyword) (rule : List Lexeme → α → Prop) :
    List Lexeme → Option α → Prop where
  | absent : Introduced k rule [] none
  | present {w : String} {ls : List Lexeme} {a : α} (hw : Keyword.ofWord? w = some k)
    (h : rule ls a) : Introduced k rule (.word w :: ls) (some a)

/-- Any word is a name. -/
def IsName (ls : List Lexeme) (w : String) : Prop := ls = [.word w]

/-- A whole number that is not negative is a count, the greatest one at most. -/
inductive IsCount : List Lexeme → Nat → Prop where
  | number {x : Number} (h : (x.isWhole && 0 ≤ x.rank) = true) :
    IsCount [.number x] (min x.truncate.toNat maxCount)

/-- An entry of a SELECT list: an expression, perhaps with a name. -/
inductive IsSelectItem (n : Nat) : List Lexeme → SelectItem → Prop where
  | item {es gs : List Lexeme} {e : Expr} {given : Option String} (h : Phrase n .conditional es e)
    (hgiven : Introduced .asAlias IsName gs given) : IsSelectItem n (es ++ gs) ⟨e, given⟩

/-- What to select: the document, the value of an expression or a list that is not empty. -/
inductive IsSelection (n : Nat) : List Lexeme → Selection → Prop where
  | all : IsSelection n [.symbol .star] .all
  | value {w : String} {ls : List Lexeme} {e : Expr} (hw : Keyword.ofWord? w = some .value)
    (h : Phrase n .conditional ls e) : IsSelection n (.word w :: ls) (.value e)
  | items {ls : List Lexeme} {items : List SelectItem} (hne : items ≠ [])
    (h : InParts (IsSelectItem n) ls items) : IsSelection n ls (.items items)

/-- The name that a collection goes by: none, or one that is not reserved, perhaps after `AS`. -/
inductive IsGivenName : List Lexeme → Option String → Prop where
  | absent : IsGivenName [] none
  | bare {w : String} (h : Keyword.ofWord? w = none) : IsGivenName [.word w] (some w)
  | introduced {v w : String} (hv : Keyword.ofWord? v = some .asAlias)
    (h : Keyword.ofWord? w = none) : IsGivenName [.word v, .word w] (some w)

/-- A direction; ascending if none is written. -/
inductive IsDirection : List Lexeme → Direction → Prop where
  | implied : IsDirection [] .ascending
  | ascending {w : String} (h : Keyword.ofWord? w = some .ascending) :
    IsDirection [.word w] .ascending
  | descending {w : String} (h : Keyword.ofWord? w = some .descending) :
    IsDirection [.word w] .descending

/-- An entry of an ORDER BY list: a proper path with its direction. -/
inductive IsOrderItem (n : Nat) : List Lexeme → OrderItem → Prop where
  | item {es ds : List Lexeme} {e : Expr} {d : Direction} (h : Phrase n .conditional es e)
    (hpath : isProperPath e = true) (hdirection : IsDirection ds d) :
    IsOrderItem n (es ++ ds) ⟨e, d⟩

/-- A list after ORDER. -/
inductive IsOrder (n : Nat) : List Lexeme → List OrderItem → Prop where
  | items {w : String} {ls : List Lexeme} {items : List OrderItem}
    (hw : Keyword.ofWord? w = some .byKeys) (hne : items ≠ [])
    (h : InParts (IsOrderItem n) ls items) : IsOrder n (.word w :: ls) items

/-- SELECT, perhaps with a count. -/
inductive IsOpening : List Lexeme → Option Nat → Prop where
  | select {w : String} {ls : List Lexeme} {top : Option Nat}
    (hw : Keyword.ofWord? w = some .select) (h : Introduced .top IsCount ls top) :
    IsOpening (.word w :: ls) top

/-- FROM with the collection and the name that it goes by. -/
inductive IsSource : List Lexeme → String × Option String → Prop where
  | source {w collection : String} {ls : List Lexeme} {given : Option String}
    (hw : Keyword.ofWord? w = some .fromCollection) (hcollection : Keyword.ofWord? collection = none)
    (h : IsGivenName ls given) : IsSource (.word w :: .word collection :: ls) (collection, given)

/-- A statement up to its collection. -/
inductive IsBare (n : Nat) : List Lexeme → Statement → Prop where
  | parts {os ss fs : List Lexeme} {top : Option Nat} {chosen : Selection} {collection : String}
    {given : Option String} (hopening : IsOpening os top) (hselection : IsSelection n ss chosen)
    (hsource : IsSource fs (collection, given)) :
    IsBare n (os ++ (ss ++ fs)) ⟨top, chosen, collection, given, none, []⟩

/-- A statement up to its filter. -/
inductive IsFiltered (n : Nat) : List Lexeme → Statement → Prop where
  | parts {ls fs : List Lexeme} {s : Statement} {filter : Option Expr} (h : IsBare n ls s)
    (hfilter : Introduced .whereFilter (Phrase n .conditional) fs filter) :
    IsFiltered n (ls ++ fs) { s with filter := filter }

/-- A statement; a number of nesting levels is enough for each of its expressions. -/
inductive IsStatement (n : Nat) : List Lexeme → Statement → Prop where
  | parts {ls os : List Lexeme} {s : Statement} {order : Option (List OrderItem)}
    (h : IsFiltered n ls s) (horder : Introduced .order (IsOrder n) os order) :
    IsStatement n (ls ++ os) { s with order := order.getD [] }

/-- A text is a statement up to its end; a number of nesting levels is enough for each of its
expressions. -/
def IsQuery (n : Nat) (text : String) (s : Statement) : Prop :=
  ∃ ls ts, IsStatement n ls s ∧ tokens text = .ok ts ∧ ts.map Token.lexeme = ls ++ [.finish]

/-! ## Readers -/

/-- Whole expressions are phrases. -/
theorem obeys_expression : Obeys (Phrase (maxNesting - 1) .conditional) expression := by
  intro ts step hstep
  obtain ⟨found, hfound, hstep⟩ := bind_eq_ok_iff.mp hstep
  split at hstep
  next => cases hstep
  next =>
    rw [← pure_eq_ok_iff.mp hstep]
    obtain ⟨taken, hts, hfinish, -, hphrase⟩ := (obeyInside maxNesting).expression ts found hfound
    exact ⟨taken, hts, hfinish, hphrase⟩

/-- What a keyword introduces is read, or nothing. -/
theorem obeys_after? {α : Type} {rule : List Lexeme → α → Prop} {p : Parser α} (h : Obeys rule p)
    (k : Keyword) : Obeys (Introduced k rule) (after? k p) :=
  h.after? .absent fun _ _ _ => .present

/-- Counts are read. -/
theorem obeys_topCount : Obeys IsCount topCount := by
  intro ts
  unfold topCount
  split
  · split
    next hcount => exact keepsTo_token nofun (.number hcount)
    next => exact nofun
  · exact nofun

/-- Entries of SELECT lists are read. -/
theorem obeys_selectItem : Obeys (IsSelectItem (maxNesting - 1)) selectItem := by
  refine obeys_expression.bindOptional fun es e hphrase => ?_
  have hgiven : Obeys (Introduced .asAlias IsName) (after? .asAlias name) :=
    obeys_after? obeys_name .asAlias
  exact fun ts => (hgiven ts).map fun gs given hgiven => .item hphrase hgiven

/-- Selections are read. -/
theorem obeys_selection : Obeys (IsSelection (maxNesting - 1)) selection := by
  intro ts
  unfold selection
  split
  · exact keepsTo_token nofun .all
  · split
    next step hstep =>
      exact keepsTo_past_keyword hstep _ fun w hw =>
        (obeys_expression step.rest).map fun ls e hphrase => .value hw hphrase
    next =>
      exact (obeys_commaSeparated obeys_selectItem _).map fun ls items hitems =>
        .items hitems.1 hitems.2

/-- Names that collections go by are read. -/
theorem obeys_givenName : Obeys IsGivenName givenName := by
  intro ts
  unfold givenName
  split
  next step hstep =>
    refine (keepsTo_past_keyword hstep _ fun v hv => (obeys_identifier step.rest).map ?_).weaken _
    rintro _ w ⟨hw, rfl⟩
    exact .introduced hv hw
  next =>
    split
    next w offset rest =>
      split
      next hw => exact (keepsTo_token (by simp) (.bare hw)).weaken _
      next => exact keepsTo_nothing .absent
    next => exact keepsTo_nothing .absent

/-- Directions are read. -/
theorem obeys_direction : Obeys IsDirection direction := by
  intro ts
  unfold direction
  split
  next step _ hstep =>
    obtain ⟨w, offset, hw, hts⟩ := eq_of_keyword? hstep
    exact keepsTo_ok (congrArg (List.map Token.lexeme) hts) (by simp) (.descending hw)
  next step _ hstep =>
    obtain ⟨w, offset, hw, hts⟩ := eq_of_keyword? hstep
    exact keepsTo_ok (congrArg (List.map Token.lexeme) hts) (by simp) (.ascending hw)
  next => exact keepsTo_nothing .implied

/-- Entries of ORDER BY lists are read. -/
theorem obeys_orderItem : Obeys (IsOrderItem (maxNesting - 1)) orderItem := by
  intro ts last hlast
  obtain ⟨step, hstep, hlast⟩ := bind_eq_ok_iff.mp hlast
  obtain ⟨es, hts, hfinish, hphrase⟩ := obeys_expression ts step hstep
  split at hlast
  next hpath =>
    have hitem : KeepsTo (fun ls => IsOrderItem (maxNesting - 1) (es ++ ls)) step.rest
        (direction.map (fun d => (⟨step.value, d⟩ : OrderItem)) step.rest) :=
      (obeys_direction step.rest).map fun ds d hdirection => .item hphrase hpath hdirection
    exact (hitem.weaken _).front hts hfinish (fun _ _ hitem => hitem) last hlast
  next => cases hlast

/-- Lists after ORDER are read. -/
theorem obeys_orderList : Obeys (IsOrder (maxNesting - 1)) orderList := by
  refine (obeys_keyword .byKeys).bind ?_
  rintro _ _ ⟨w, hw, rfl⟩ ts
  exact (obeys_commaSeparated obeys_orderItem ts).mono fun ls items hitems =>
    .items hw hitems.1 hitems.2

/-- SELECT is read, perhaps with a count. -/
theorem obeys_opening : Obeys IsOpening opening := by
  refine (obeys_keyword .select).bindOptional ?_
  rintro _ _ ⟨w, hw, rfl⟩ ts
  exact (obeys_after? obeys_topCount .top ts).mono fun ls top htop => .select hw htop

/-- FROM is read with a collection. -/
theorem obeys_source : Obeys IsSource source := by
  refine (obeys_keyword .fromCollection).bind ?_
  rintro _ _ ⟨w, hw, rfl⟩
  refine obeys_identifier.bindOptional ?_
  rintro _ collection ⟨hcollection, rfl⟩ ts
  exact (obeys_givenName ts).map fun ls given hgiven => .source hw hcollection hgiven

/-- Statements are read up to their collection. -/
theorem obeys_bare : Obeys (IsBare (maxNesting - 1)) bare := by
  refine obeys_opening.bind fun os top hopening => ?_
  refine obeys_selection.bind fun ss chosen hselection => ?_
  exact obeys_source.map fun fs (collection, given) hsource => .parts hopening hselection hsource

/-- Statements are read up to their filter. -/
theorem obeys_filtered : Obeys (IsFiltered (maxNesting - 1)) filtered := by
  refine obeys_bare.bindOptional fun ls s hbare ts => ?_
  exact (obeys_after? obeys_expression .whereFilter ts).map fun fs filter hfilter =>
    .parts hbare hfilter

/-- **Statements.** What the reader of statements takes is a statement by the rules. -/
theorem obeys_statement : Obeys (IsStatement (maxNesting - 1)) statement := by
  refine obeys_filtered.bindOptional fun ls s hfiltered ts => ?_
  exact (obeys_after? obeys_orderList .order ts).map fun os order horder => .parts hfiltered horder

end Folio.Query
