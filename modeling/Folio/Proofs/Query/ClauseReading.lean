import Folio.Proofs.Query.Clauses

/-!
# Clauses are read

The reader of statements takes what is a statement by the rules, if the reader of whole expressions
takes its expressions. Where that reader may fail because an expression is too deep, the reader of
statements may fail so, too, and in no other way.
-/

namespace Folio.Query

variable {α β : Type} {n : Nat} {bound : List Token → Nat} {deep : Prop}

/-! ## Readings that may be too deep -/

/-- The outcome of a reading is a value and the lexemes that are left. If it may be, the reading is too
deep instead. -/
def Meets (deep : Prop) (reading : Reading α n) (a : α) (rest : List Lexeme) : Prop :=
  (deep ∧ ∃ offset, reading = .error ⟨offset, .tooDeep⟩) ∨ Yields reading a rest

/-- A reader takes a value from lexemes and leaves the rest, or it is too deep if it may be. -/
def Tries (deep : Prop) (p : (ts : List Token) → Reading α (bound ts)) (input : List Lexeme) (a : α)
    (rest : List Lexeme) : Prop :=
  ∀ ts : List Token, ts.map Token.lexeme = input → Meets deep (p ts) a rest

section

variable {a : α} {b : β} {input middle rest : List Lexeme}

/-- A reading whose step is turned into another meets what the other yields. -/
theorem Meets.map {m : Nat} {reading : Reading α n} {left : List Lexeme} {f : Step α n → Step β m}
    (h : Meets deep reading a rest)
    (hf : ∀ step, step.value = a → step.rest.map Token.lexeme = rest →
      (f step).value = b ∧ (f step).rest.map Token.lexeme = left) :
    Meets deep (reading.map f) b left := by
  rcases h with ⟨hdeep, offset, rfl⟩ | ⟨step, rfl, hvalue, hrest⟩
  · exact .inl ⟨hdeep, offset, rfl⟩
  · exact .inr ⟨f step, rfl, hf step hvalue hrest⟩

/-- A reading under a larger bound meets the same. -/
theorem Meets.weaken {reading : Reading α n} (h : Meets deep reading a rest) {m : Nat}
    (hle : n ≤ m) : Meets deep (reading.map (Progress.weaken · hle)) a rest :=
  h.map fun _ hvalue hrest => ⟨hvalue, hrest⟩

/-- A reading after a token meets the same. -/
theorem Meets.past {reading : Reading α n} (h : Meets deep reading a rest) :
    Meets deep (past reading) a rest := h.weaken (Nat.le_succ n)

/-- A reading after a step meets what the later reading meets. -/
theorem Meets.after {step : Step α n} {next : α → Parser β}
    (h : Meets deep (next step.value step.rest) b rest) : Meets deep (step.bind next) b rest :=
  h.weaken (Nat.le_of_lt step.shorter)

/-- So does a reading after a step that may take nothing. -/
theorem Meets.afterOptional {step : Step α n} {next : α → OptionalParser β}
    (h : Meets deep (next step.value step.rest) b rest) :
    Meets deep (step.bindOptional next) b rest := h.weaken step.shorter

/-- A reading goes on from what an earlier one yields. -/
theorem Meets.bind {m : Nat} {reading : Reading α n} {next : Step α n → Reading β m}
    (h : Meets deep reading a middle)
    (hnext : ∀ step, step.value = a → step.rest.map Token.lexeme = middle →
      Meets deep (next step) b rest) : Meets deep (reading.bind next) b rest := by
  rcases h with ⟨hdeep, offset, rfl⟩ | ⟨step, rfl, hvalue, hrest⟩
  · exact .inl ⟨hdeep, offset, rfl⟩
  · exact hnext step hvalue hrest

/-- What is taken is tried. -/
theorem Takes.tries {p : (ts : List Token) → Reading α (bound ts)} (h : Takes p input a rest) :
    Tries deep p input a rest := fun ts hts => .inr (h ts hts)

/-- A mapped reader tries the mapped value. -/
theorem Tries.map {p : (ts : List Token) → Reading α (bound ts)} (h : Tries deep p input a rest)
    (f : α → β) : Tries deep (fun ts => (p ts).map (Progress.map f)) input (f a) rest :=
  fun ts hts => (h ts hts).map fun _ hvalue hrest => ⟨congrArg f hvalue, hrest⟩

/-- Readers one after another try what they try one after another. -/
theorem Tries.readOn {p : Parser α} {next : α → (ts : List Token) → Reading β (bound ts)}
    {hbound : ∀ ts, bound ts ≤ ts.length + 1} (h : Tries deep p input a middle)
    (hnext : Tries deep (next a) middle b rest) : Tries deep (readOn p next hbound) input b rest := by
  refine fun ts hts => (h ts hts).bind ?_
  rintro step rfl hmiddle
  exact (hnext step.rest hmiddle).weaken _

/-- So they do if the second reader takes a token. -/
theorem Tries.bind {p : Parser α} {next : α → Parser β} (h : Tries deep p input a middle)
    (hnext : Tries deep (next a) middle b rest) : Tries deep (p.bind next) input b rest := by
  rw [bind_eq_readOn]
  exact h.readOn hnext

/-- So they do if the second reader may take nothing. -/
theorem Tries.bindOptional {p : Parser α} {next : α → OptionalParser β}
    (h : Tries deep p input a middle) (hnext : Tries deep (next a) middle b rest) :
    Tries deep (p.bindOptional next) input b rest := by
  rw [bindOptional_eq_readOn]
  exact h.readOn hnext

/-- One or more parts with commas between them are tried before a lexeme that is no comma. -/
theorem tries_commaSeparated {element : Parser α} {l : Lexeme} (hl : l ≠ .symbol .comma)
    {part : Part α} {others : List (Part α)}
    (h : ∀ x ∈ part :: others, ∀ next, next = .symbol .comma ∨ next = l → ∀ tail,
      Tries deep element (x.lexemes ++ next :: tail) x.value (next :: tail)) (tail : List Lexeme) :
    Tries deep (commaSeparated element)
      (separated ((part :: others).map Part.lexemes) ++ l :: tail)
      ((part :: others).map Part.value) (l :: tail) := by
  induction others generalizing part with
  | nil =>
    intro ts hts
    rw [List.map_cons, List.map_nil, separated_singleton] at hts
    rw [commaSeparated.eq_def]
    refine (h part List.mem_cons_self l (.inr rfl) tail ts hts).bind ?_
    rintro ⟨value, left, hleft⟩ rfl hrest
    dsimp only at hrest ⊢
    split
    next => exact absurd (List.cons.inj hrest).1.symm hl
    next => exact .inr ⟨_, rfl, rfl, hrest⟩
  | cons next others ih =>
    obtain ⟨hpart, hothers⟩ := List.forall_mem_cons.mp h
    intro ts hts
    rw [List.map_cons, List.map_cons, separated_cons_cons, List.append_assoc,
      List.cons_append] at hts
    rw [commaSeparated.eq_def]
    refine (hpart _ (.inl rfl) _ ts hts).bind ?_
    rintro ⟨value, left, hleft⟩ rfl hrest
    obtain ⟨offset, more, rfl, hmore⟩ := exists_token hrest
    refine (ih hothers more hmore).bind ?_
    rintro ⟨values, last, hlast⟩ hvalues hrest
    exact .inr ⟨_, rfl, congrArg _ hvalues, hrest⟩

end

/-! ## Keywords -/

/-- The keyword that a lexeme is. -/
def Lexeme.keyword? : Lexeme → Option Keyword
  | .word w => Keyword.ofWord? w
  | _ => none

/-- A keyword is not found where there is another lexeme. -/
theorem keyword?_of_ne {k : Keyword} {l : Lexeme} (h : l.keyword? ≠ some k) (offset : Nat)
    (ts : List Token) : Query.keyword? k (⟨l, offset⟩ :: ts) = none := by
  cases l with
  | word w => exact keyword?_eq_none h offset ts
  | _ => rfl

/-- No expression goes on with a keyword that is no operator and no word of a test. -/
theorem continues_of_keyword? {l : Lexeme} {k : Keyword} (h : l.keyword? = some k)
    (hk : k ∉ [Keyword.or, .and, .not, .inList, .between]) : l.continues = none := by
  cases l with
  | word w =>
    change Keyword.ofWord? w = some k at h
    cases k <;> simp_all [Lexeme.continues]
  | _ => cases h

/-- Every level ends where expressions do not go on. -/
theorem stops_of_continues {l : Lexeme} (h : l.continues = none) (level : Precedence)
    (rest : List Lexeme) : stops level (l :: rest) = true := by
  have hdot : l ≠ .symbol .dot := by
    rintro rfl
    cases h
  simp [stops, continuation_cons hdot, h]

section

variable {a : α} {k : Keyword} {rule : List Lexeme → α → Prop} {ls tail : List Lexeme} {o : Option α}
  {l : Lexeme}

/-- What may be introduced begins with its keyword, if it is there. -/
theorem Introduced.exists_head (h : Introduced k rule ls o) (l : Lexeme) (tail : List Lexeme) :
    ∃ first more, ls ++ l :: tail = first :: more ∧ (first = l ∨ first.keyword? = some k) := by
  cases h with
  | absent => exact ⟨l, tail, rfl, .inl rfl⟩
  | present hw h => exact ⟨_, _, rfl, .inr hw⟩

/-- What a keyword introduces is tried, or nothing is taken. -/
theorem Introduced.tries {p : Parser α} (h : Introduced k rule ls o) (hl : l.keyword? ≠ some k)
    (hp : ∀ ls a, o = some a → rule ls a → Tries deep p (ls ++ l :: tail) a (l :: tail)) :
    Tries deep (after? k p) (ls ++ l :: tail) o (l :: tail) := by
  cases h with
  | absent => exact (takes_after?_none (keyword?_of_ne hl) tail).tries
  | @present w ls a hw h =>
    intro ts hts
    obtain ⟨offset, rest, rfl, hrest⟩ := exists_token hts
    have hintroduced : Meets deep (Step.bind (.leaving () rest) fun _ => p.map some) (some a)
        (l :: tail) := Meets.after (((hp ls a rfl h).map some) rest hrest)
    unfold after?
    rw [keyword?_cons hw]
    exact hintroduced.past

end

/-! ## Expressions -/

/-- The reader of whole expressions tries an expression, wherever it is written as a phrase. -/
def Tried (deep : Prop) (n : Nat) (e : Expr) : Prop :=
  ∀ ls rest, Phrase n .conditional ls e → stops .conditional rest = true →
    Tries deep expression (ls ++ rest) e rest

/-- What an expression may begin with, as far as other clauses could. -/
def Lexeme.Begins (l : Lexeme) : Prop :=
  l ≠ .symbol .star ∧ l.keyword? ≠ some .value ∧ l.keyword? ≠ some .top

/-- Symbols other than the star begin expressions. -/
theorem begins_symbol {s : Symbol} (h : s ≠ .star) : (Lexeme.symbol s).Begins :=
  ⟨fun heq => h (Lexeme.symbol.inj heq), nofun, nofun⟩

/-- A phrase begins like an expression. -/
theorem Phrase.exists_head {level : Precedence} {ls : List Lexeme} {e : Expr}
    (h : Phrase n level ls e) : ∃ l tail, ls = l :: tail ∧ l.Begins := by
  have hword {w : String} (h : Keyword.ofWord? w = none) : (Lexeme.word w).Begins := by
    simp [Lexeme.Begins, Lexeme.keyword?, h]
  have happend {ls : List Lexeme} (h : ∃ l tail, ls = l :: tail ∧ l.Begins) (rs : List Lexeme) :
      ∃ l tail, ls ++ rs = l :: tail ∧ l.Begins := by
    obtain ⟨l, tail, rfl, hl⟩ := h
    exact ⟨l, tail ++ rs, rfl, hl⟩
  induction h with
  | number x => exact ⟨_, _, rfl, nofun, nofun, nofun⟩
  | string s => exact ⟨_, _, rfl, nofun, nofun, nofun⟩
  | parameter name => exact ⟨_, _, rfl, nofun, nofun, nofun⟩
  | @constant n w v h =>
    refine ⟨_, _, rfl, ?_⟩
    unfold constant? at h
    split at h <;> simp_all [Lexeme.Begins, Lexeme.keyword?]
  | identifier h => exact ⟨_, _, rfl, hword h⟩
  | parentheses => exact ⟨_, _, rfl, begins_symbol (by decide)⟩
  | array => exact ⟨_, _, rfl, begins_symbol (by decide)⟩
  | object => exact ⟨_, _, rfl, begins_symbol (by decide)⟩
  | call hname => exact ⟨_, _, rfl, hword hname⟩
  | userCall name hw => exact ⟨_, _, rfl, hword (ofWord?_of_isUserQualifier hw)⟩
  | named _ _ ih => exact happend ih _
  | keyed _ _ _ ih => exact happend ih _
  | sign hm hsign =>
    refine ⟨_, _, rfl, ?_⟩
    unfold sign? at hsign
    split at hsign <;> first | exact begins_symbol (by decide) | cases hsign
  | binary _ _ _ ih => exact happend ih _
  | among _ _ _ _ ih => exact happend ih _
  | between _ _ _ _ _ ih => exact happend ih _
  | not hm hnot => exact ⟨_, _, rfl, by simp [Lexeme.Begins, Lexeme.keyword?, hnot]⟩
  | conditional _ _ _ _ ih => exact happend ih _
  | looser _ ih => exact ih

/-! ## Clauses -/

variable {ls tail : List Lexeme} {l : Lexeme}

/-- A count is taken. -/
theorem IsCount.takes {k : Nat} (h : IsCount ls k) (rest : List Lexeme) :
    Takes topCount (ls ++ rest) k rest := by
  cases h with
  | number hcount =>
    intro ts hts
    obtain ⟨offset, left, rfl, hleft⟩ := exists_token hts
    exact ⟨.leaving _ left, if_pos hcount, rfl, hleft⟩

/-- An entry of a SELECT list is tried where its expression ends. -/
theorem IsSelectItem.tries {item : SelectItem} (h : IsSelectItem n ls item)
    (hexpr : Tried deep n item.expr) (hends : l.continues = none)
    (has : l.keyword? ≠ some .asAlias) :
    Tries deep selectItem (ls ++ l :: tail) item (l :: tail) := by
  cases h with
  | @item es gs e given hphrase hgiven =>
    rw [List.append_assoc]
    have hstops : stops .conditional (gs ++ l :: tail) = true := by
      obtain ⟨first, more, heq, rfl | hfirst⟩ := hgiven.exists_head l tail
      · exact heq ▸ stops_of_continues hends _ _
      · exact heq ▸ stops_of_continues (continues_of_keyword? hfirst (by decide)) _ _
    refine (hexpr es _ hphrase hstops).bindOptional (Tries.map (hgiven.tries has ?_) _)
    rintro _ name - rfl
    exact (takes_name name _).tries

/-- A list of parts by a rule is read before a lexeme that is no comma, if each part is. -/
theorem InParts.tries {α : Type} {rule : List Lexeme → α → Prop} {p : Parser α} {as : List α}
    (h : InParts rule ls as) (hne : as ≠ []) (hl : l ≠ .symbol .comma)
    (hp : ∀ rs a, a ∈ as → rule rs a → ∀ next, next = .symbol .comma ∨ next = l → ∀ tail,
      Tries deep p (rs ++ next :: tail) a (next :: tail)) :
    Tries deep (commaSeparated p) (ls ++ l :: tail) as (l :: tail) := by
  obtain ⟨parts, hparts, rfl, rfl⟩ := h
  cases parts with
  | nil => exact absurd rfl hne
  | cons part others =>
    exact tries_commaSeparated hl (fun x hx next hnext tail =>
      hp x.lexemes x.value (List.mem_map_of_mem hx) (hparts x hx) next hnext tail) tail

/-- A list in parts begins like one of its parts. -/
theorem InParts.exists_head {α : Type} {rule : List Lexeme → α → Prop} {P : Lexeme → Prop}
    {as : List α} (h : InParts rule ls as) (hne : as ≠ [])
    (hrule : ∀ ls a, rule ls a → ∃ l tail, ls = l :: tail ∧ P l) :
    ∃ l tail, ls = l :: tail ∧ P l := by
  obtain ⟨parts, hparts, rfl, rfl⟩ := h
  cases parts with
  | nil => exact absurd rfl hne
  | cons part others =>
    obtain ⟨l, tail, hpart, hl⟩ := hrule _ _ (hparts part List.mem_cons_self)
    cases others with
    | nil => exact ⟨l, tail, by rw [List.map_cons, List.map_nil, separated_singleton, hpart], hl⟩
    | cons next others =>
      exact ⟨l, _, by rw [List.map_cons, List.map_cons, separated_cons_cons, hpart]; rfl, hl⟩

/-- An entry of a SELECT list begins like an expression. -/
theorem IsSelectItem.exists_head {item : SelectItem} (h : IsSelectItem n ls item) :
    ∃ l tail, ls = l :: tail ∧ l.Begins := by
  cases h with
  | item hphrase =>
    obtain ⟨l, tail, rfl, hl⟩ := hphrase.exists_head
    exact ⟨l, _, rfl, hl⟩

/-- A selection is tried before `FROM`. -/
theorem IsSelection.tries {chosen : Selection} (h : IsSelection n ls chosen)
    (hexprs : ∀ e ∈ chosen.exprs, Tried deep n e) (hl : l.keyword? = some .fromCollection) :
    Tries deep selection (ls ++ l :: tail) chosen (l :: tail) := by
  have hends : l.continues = none := continues_of_keyword? hl (by decide)
  have hcomma : l ≠ .symbol .comma := by
    rintro rfl
    cases hl
  intro ts hts
  cases h with
  | all =>
    obtain ⟨offset, rest, rfl, hrest⟩ := exists_token hts
    exact .inr ⟨.leaving .all rest, rfl, rfl, hrest⟩
  | @value w es e hw hphrase =>
    obtain ⟨offset, rest, rfl, hrest⟩ := exists_token hts
    have htried := hexprs e List.mem_cons_self es _ hphrase (stops_of_continues hends _ tail)
    unfold selection
    simp only [keyword?_cons hw]
    exact Meets.after (htried.map Selection.value rest hrest)
  | @items _ items hne hitems =>
    obtain ⟨first, more, rfl, hstar, hvalue, -⟩ :=
      hitems.exists_head hne fun _ _ => IsSelectItem.exists_head
    obtain ⟨offset, rest, rfl, hrest⟩ := exists_token hts
    have hnone : Query.keyword? .value (⟨first, offset⟩ :: rest) = none :=
      keyword?_of_ne hvalue offset rest
    have hlist : Tries deep (commaSeparated selectItem) (first :: more ++ l :: tail) items
        (l :: tail) := by
      refine hitems.tries hne hcomma fun rs item hmem hitem next hnext tail => ?_
      have htried := hexprs item.expr (List.mem_map_of_mem hmem)
      rcases hnext with rfl | rfl
      · exact hitem.tries htried rfl nofun
      · exact hitem.tries htried hends (by rw [hl]; decide)
    have hselection : selection (⟨first, offset⟩ :: rest) =
        (commaSeparated selectItem (⟨first, offset⟩ :: rest)).map (Progress.map .items) := by
      cases first with
      | symbol s =>
        cases s with
        | star => exact absurd rfl hstar
        | _ => simp only [selection, hnone]
      | _ => simp only [selection, hnone]
    rw [hselection]
    exact (hlist _ hts).map fun _ hvalue hrest => ⟨congrArg _ hvalue, hrest⟩

/-- A selection does not begin with `TOP`. -/
theorem IsSelection.exists_head {chosen : Selection} (h : IsSelection n ls chosen) :
    ∃ l tail, ls = l :: tail ∧ l.keyword? ≠ some .top := by
  cases h with
  | all => exact ⟨_, _, rfl, nofun⟩
  | value hw => exact ⟨_, _, rfl, by simp [Lexeme.keyword?, hw]⟩
  | items hne hitems =>
    obtain ⟨l, tail, rfl, hl⟩ := hitems.exists_head hne fun _ _ => IsSelectItem.exists_head
    exact ⟨l, tail, rfl, hl.2.2⟩

/-- SELECT is tried, perhaps with a count. -/
theorem IsOpening.tries {top : Option Nat} (h : IsOpening ls top) (hl : l.keyword? ≠ some .top) :
    Tries deep opening (ls ++ l :: tail) top (l :: tail) := by
  cases h with
  | @select w os _ hw htop =>
    refine Tries.bindOptional (takes_keyword hw (os ++ l :: tail)).tries (htop.tries hl ?_)
    exact fun _ _ _ hcount => (hcount.takes _).tries

/-- What follows the source of a statement: its filter, its order or its end. -/
def Lexeme.EndsSource (l : Lexeme) : Prop :=
  l = .finish ∨ l.keyword? = some .whereFilter ∨ l.keyword? = some .order

/-- The name that a collection goes by is taken where its source ends. -/
theorem IsGivenName.takes {given : Option String} (h : IsGivenName ls given) (hl : l.EndsSource) :
    Takes givenName (ls ++ l :: tail) given (l :: tail) := by
  intro ts hts
  cases h with
  | absent =>
    refine ⟨.leaving none ts, ?_, rfl, hts⟩
    obtain ⟨offset, rest, rfl, -⟩ := exists_token hts
    have has : l.keyword? ≠ some .asAlias := by
      rcases hl with rfl | hl | hl <;> simp_all [Lexeme.keyword?]
    cases l with
    | word w =>
      have hreserved : Keyword.ofWord? w ≠ none := by
        rcases hl with hl | hl | hl <;> simp_all [Lexeme.keyword?]
      simp only [givenName, keyword?_of_ne has, if_neg hreserved]
    | _ => simp only [givenName, keyword?_of_ne has]
  | @bare w hw =>
    obtain ⟨offset, rest, rfl, hrest⟩ := exists_token hts
    have has : Keyword.ofWord? w ≠ some .asAlias := by simp [hw]
    refine ⟨(Progress.leaving (some w) rest).past, ?_, rfl, hrest⟩
    simp only [givenName, keyword?_eq_none has, if_pos hw]
  | @introduced v w hv hw =>
    obtain ⟨offset, rest, rfl, hrest⟩ := exists_token hts
    have hname : Yields (Step.bind (.leaving () rest) fun _ => identifier.map some) (some w)
        (l :: tail) := Yields.bind (((takes_identifier hw _).map some) rest hrest)
    simp only [givenName, keyword?_cons hv]
    exact hname.past

/-- A source is taken where it ends. -/
theorem IsSource.takes {found : String × Option String} (h : IsSource ls found)
    (hl : l.EndsSource) : Takes Query.source (ls ++ l :: tail) found (l :: tail) := by
  cases h with
  | source hw hcollection hgiven =>
    exact (takes_keyword hw _).bind ((takes_identifier hcollection _).bindOptional
      ((hgiven.takes hl).map _))

/-- A direction is taken before anything that is none. -/
theorem IsDirection.takes {d : Direction} (h : IsDirection ls d)
    (hascending : l.keyword? ≠ some .ascending) (hdescending : l.keyword? ≠ some .descending) :
    Takes direction (ls ++ l :: tail) d (l :: tail) := by
  intro ts hts
  cases h with
  | implied =>
    refine ⟨.leaving .ascending ts, ?_, rfl, hts⟩
    obtain ⟨offset, rest, rfl, -⟩ := exists_token hts
    simp only [direction, keyword?_of_ne hascending, keyword?_of_ne hdescending]
  | @ascending w hw =>
    obtain ⟨offset, rest, rfl, hrest⟩ := exists_token hts
    have hne : Keyword.ofWord? w ≠ some .descending := by simp [hw]
    refine ⟨(Progress.leaving .ascending rest).past, ?_, rfl, hrest⟩
    simp only [direction, keyword?_eq_none hne, keyword?_cons hw]
    rfl
  | @descending w hw =>
    obtain ⟨offset, rest, rfl, hrest⟩ := exists_token hts
    refine ⟨(Progress.leaving .descending rest).past, ?_, rfl, hrest⟩
    simp only [direction, keyword?_cons hw]
    rfl

/-- An entry of an ORDER BY list is tried where its direction ends. -/
theorem IsOrderItem.tries {item : OrderItem} (h : IsOrderItem n ls item)
    (hexpr : Tried deep n item.expr) (hl : l.keyword? = none) (hends : l.continues = none) :
    Tries deep orderItem (ls ++ l :: tail) item (l :: tail) := by
  have hne (k : Keyword) : l.keyword? ≠ some k := by simp [hl]
  cases h with
  | @item es ds e d hphrase hpath hdirection =>
    have hstops : stops .conditional (ds ++ l :: tail) = true := by
      cases hdirection with
      | implied => exact stops_of_continues hends _ _
      | ascending hw =>
        exact stops_of_continues (continues_of_keyword? (l := .word _) hw (by decide)) _ _
      | descending hw =>
        exact stops_of_continues (continues_of_keyword? (l := .word _) hw (by decide)) _ _
    intro ts hts
    rw [List.append_assoc] at hts
    refine (hexpr es _ hphrase hstops ts hts).bind ?_
    rintro step rfl hrest
    have hread : Tries deep (direction.map fun d => (⟨step.value, d⟩ : OrderItem)) (ds ++ l :: tail)
        ⟨step.value, d⟩ (l :: tail) := ((hdirection.takes (hne _) (hne _)).map _).tries
    rw [if_pos hpath]
    exact (hread step.rest hrest).afterOptional

/-- A list after ORDER is tried at the end of the text. -/
theorem IsOrder.tries {items : List OrderItem} (h : IsOrder n ls items)
    (hexprs : ∀ item ∈ items, Tried deep n item.expr) :
    Tries deep orderList (ls ++ [.finish]) items [.finish] := by
  cases h with
  | @items w rs _ hw hne hitems =>
    refine Tries.bind (takes_keyword hw (rs ++ [.finish])).tries ?_
    refine hitems.tries hne nofun fun rs item hmem hitem next hnext tail => ?_
    rcases hnext with rfl | rfl <;> exact hitem.tries (hexprs item hmem) rfl rfl

/-! ## Statements -/

/-- Expressions do not go on where a source ends. -/
theorem Lexeme.EndsSource.continues (h : l.EndsSource) : l.continues = none := by
  rcases h with rfl | h | h
  · rfl
  · exact continues_of_keyword? h (by decide)
  · exact continues_of_keyword? h (by decide)

/-- A statement up to its collection is tried where its source ends. -/
theorem IsBare.tries {s : Statement} (h : IsBare n ls s)
    (hexprs : ∀ e ∈ s.selection.exprs, Tried deep n e) (hl : l.EndsSource) :
    Tries deep bare (ls ++ l :: tail) s (l :: tail) := by
  cases h with
  | @parts os ss fs top chosen collection given hopening hselection hsource =>
    have hread : Tries deep Query.source (fs ++ l :: tail) (collection, given) (l :: tail) :=
      (hsource.takes hl).tries
    obtain ⟨first, more, rfl, hfirst⟩ := hselection.exists_head
    have hchosen : Tries deep selection (first :: more ++ (fs ++ l :: tail)) chosen
        (fs ++ l :: tail) := by
      cases hsource with
      | source hw => exact hselection.tries hexprs hw
    rw [List.append_assoc, List.append_assoc]
    exact (hopening.tries hfirst).bind (hchosen.bind (hread.map _))

/-- A statement up to its filter is tried before its order and at its end. -/
theorem IsFiltered.tries {s : Statement} (h : IsFiltered n ls s)
    (hexprs : ∀ e ∈ s.selection.exprs ++ s.filter.toList, Tried deep n e)
    (hl : l = .finish ∨ l.keyword? = some .order) :
    Tries deep filtered (ls ++ l :: tail) s (l :: tail) := by
  cases h with
  | @parts ls fs s filter hbare hfilter =>
    obtain ⟨hselection, hfilters⟩ := List.forall_mem_append.mp hexprs
    have hends : l.EndsSource := hl.imp_right .inr
    have hwhere : l.keyword? ≠ some .whereFilter := by
      rcases hl with rfl | hl <;> simp_all [Lexeme.keyword?]
    have hread : Tries deep (after? .whereFilter expression) (fs ++ l :: tail) filter
        (l :: tail) := by
      refine hfilter.tries hwhere fun es e he hphrase => ?_
      exact hfilters e (by rw [he]; exact List.mem_cons_self) es _ hphrase
        (stops_of_continues hends.continues _ tail)
    obtain ⟨first, more, heq, hfirst⟩ := hfilter.exists_head l tail
    have hbareEnds : first.EndsSource := by
      rcases hfirst with rfl | hfirst
      · exact hends
      · exact .inr (.inl hfirst)
    rw [List.append_assoc]
    refine Tries.bindOptional ?_ (hread.map _)
    rw [heq]
    exact hbare.tries hselection hbareEnds

/-- **Statements.** The reader of statements tries a statement up to the end of the text, if the reader
of whole expressions tries its expressions. -/
theorem IsStatement.tries {s : Statement} (h : IsStatement n ls s)
    (hexprs : ∀ e ∈ s.exprs, Tried deep n e) :
    Tries deep statement (ls ++ [.finish]) s [.finish] := by
  cases h with
  | @parts ls os s order hfiltered horder =>
    obtain ⟨hunordered, hordered⟩ := List.forall_mem_append.mp hexprs
    have hread : Tries deep (after? .order orderList) (os ++ [.finish]) order [.finish] := by
      refine horder.tries nofun fun rs items hitems hrule => hrule.tries fun item hmem => ?_
      exact hordered item.expr (List.mem_map_of_mem (by rw [hitems]; exact hmem))
    obtain ⟨first, more, heq, hfirst⟩ := horder.exists_head .finish []
    rw [List.append_assoc]
    refine Tries.bindOptional ?_ (hread.map _)
    rw [heq]
    exact hfiltered.tries hunordered hfirst

end Folio.Query
