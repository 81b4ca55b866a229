import Folio.Proofs.Query.Parsing
import Folio.Proofs.Query.Rendering
import Folio.Proofs.Sequence

/-!
# Readers on given lexemes

A reader takes a value from lexemes and leaves the rest, whatever the places of the tokens are. What
a reader that is put together of others takes follows from what these take.
-/

namespace Folio.Query

variable {α β : Type} {n : Nat} {bound : List Token → Nat}

/-- The outcome of a reading is a value, and the lexemes that are left. -/
def Yields (reading : Reading α n) (a : α) (rest : List Lexeme) : Prop :=
  ∃ step, reading = .ok step ∧ step.value = a ∧ step.rest.map Token.lexeme = rest

/-- A reader takes a value from lexemes and leaves the rest. -/
def Takes (p : (ts : List Token) → Reading α (bound ts)) (input : List Lexeme) (a : α)
    (rest : List Lexeme) : Prop :=
  ∀ ts : List Token, ts.map Token.lexeme = input → Yields (p ts) a rest

/-- A reader fails on every token list that begins with a lexeme. -/
def Refuses (p : Parser α) (l : Lexeme) : Prop :=
  ∀ offset ts, ∃ fault, p (⟨l, offset⟩ :: ts) = .error fault

/-- Tokens of one lexeme and others are a token of it and tokens of the others. -/
theorem exists_token {ts : List Token} {l : Lexeme} {ls : List Lexeme}
    (h : ts.map Token.lexeme = l :: ls) :
    ∃ offset rest, ts = ⟨l, offset⟩ :: rest ∧ rest.map Token.lexeme = ls := by
  obtain ⟨⟨found, offset⟩, rest, rfl, rfl, hrest⟩ := List.map_eq_cons_iff.mp h
  exact ⟨offset, rest, rfl, hrest⟩

/-! ## Sequences -/

/-- A reading under a larger bound has the same outcome. -/
theorem Yields.weaken {reading : Reading α n} {a : α} {rest : List Lexeme}
    (h : Yields reading a rest) {m : Nat} (hle : n ≤ m) :
    Yields (reading.map (Progress.weaken · hle)) a rest := by
  obtain ⟨step, rfl, rfl, rfl⟩ := h
  exact ⟨step.weaken hle, rfl, rfl, rfl⟩

/-- A reading after a token has the same outcome. -/
theorem Yields.past {reading : Reading α n} {a : α} {rest : List Lexeme}
    (h : Yields reading a rest) : Yields (past reading) a rest := h.weaken (Nat.le_succ n)

/-- A mapped reading has the mapped value. -/
theorem Yields.map {reading : Reading α n} {a : α} {rest : List Lexeme}
    (h : Yields reading a rest) (f : α → β) :
    Yields (reading.map (Progress.map f)) (f a) rest := by
  obtain ⟨step, rfl, rfl, rfl⟩ := h
  exact ⟨step.map f, rfl, rfl, rfl⟩

/-- A reading after a step has the outcome of the later reading. -/
theorem Yields.bind {step : Step α n} {next : α → Parser β} {b : β} {rest : List Lexeme}
    (h : Yields (next step.value step.rest) b rest) : Yields (step.bind next) b rest :=
  h.weaken (Nat.le_of_lt step.shorter)

section

variable {a : α} {b : β} {input middle rest : List Lexeme}

/-- A mapped reader takes the mapped value. -/
theorem Takes.map {p : (ts : List Token) → Reading α (bound ts)} (h : Takes p input a rest)
    (f : α → β) : Takes (fun ts => (p ts).map (Progress.map f)) input (f a) rest :=
  fun ts hts => (h ts hts).map f

/-- Readers one after another take what they take one after another. -/
theorem Takes.readOn {p : Parser α} {next : α → (ts : List Token) → Reading β (bound ts)}
    {hbound : ∀ ts, bound ts ≤ ts.length + 1} (h : Takes p input a middle)
    (hnext : Takes (next a) middle b rest) : Takes (readOn p next hbound) input b rest := by
  intro ts hts
  obtain ⟨first, hfirst, rfl, hmiddle⟩ := h ts hts
  rw [Query.readOn, hfirst]
  exact (hnext first.rest hmiddle).weaken _

/-- So they do if the second reader takes a token. -/
theorem Takes.bind {p : Parser α} {next : α → Parser β} (h : Takes p input a middle)
    (hnext : Takes (next a) middle b rest) : Takes (p.bind next) input b rest := by
  rw [bind_eq_readOn]
  exact h.readOn hnext

/-- So they do if the second reader may take nothing. -/
theorem Takes.bindOptional {p : Parser α} {next : α → OptionalParser β} (h : Takes p input a middle)
    (hnext : Takes (next a) middle b rest) : Takes (p.bindOptional next) input b rest := by
  rw [bindOptional_eq_readOn]
  exact h.readOn hnext

/-- A symbol is taken. -/
theorem takes_symbol (s : Symbol) (rest : List Lexeme) :
    Takes (symbol s) (.symbol s :: rest) () rest := by
  intro ts hts
  obtain ⟨offset, tail, rfl, htail⟩ := exists_token hts
  exact ⟨.leaving () tail, if_pos rfl, rfl, htail⟩

/-- A word that is a keyword is found at the front. -/
theorem keyword?_cons {k : Keyword} {w : String} (h : Keyword.ofWord? w = some k) (offset : Nat)
    (ts : List Token) : keyword? k (⟨.word w, offset⟩ :: ts) = some (.leaving () ts) :=
  if_pos h

/-- A word that is another keyword or none is not found. -/
theorem keyword?_eq_none {k : Keyword} {w : String} (h : Keyword.ofWord? w ≠ some k) (offset : Nat)
    (ts : List Token) : keyword? k (⟨.word w, offset⟩ :: ts) = none :=
  if_neg h

/-- Where a keyword is found, its word is the first token, and the others are left. -/
theorem eq_of_keyword? {k : Keyword} {ts : List Token} {step : Step Unit ts.length}
    (h : keyword? k ts = some step) :
    ∃ w offset, Keyword.ofWord? w = some k ∧ ts = ⟨.word w, offset⟩ :: step.rest := by
  unfold keyword? at h
  split at h
  next w offset rest =>
    split at h
    next hword =>
      cases h
      exact ⟨w, offset, hword, rfl⟩
    next => cases h
  next => cases h

/-- A keyword is taken. -/
theorem takes_keyword {k : Keyword} {w : String} (h : Keyword.ofWord? w = some k)
    (rest : List Lexeme) : Takes (keyword k) (.word w :: rest) () rest := by
  intro ts hts
  obtain ⟨offset, tail, rfl, htail⟩ := exists_token hts
  exact ⟨.leaving () tail, by rw [keyword, keyword?_cons h], rfl, htail⟩

/-- Nothing is taken where the keyword that introduces it is missing. -/
theorem takes_after?_none {k : Keyword} {p : Parser α} {l : Lexeme}
    (h : ∀ offset ts, keyword? k (⟨l, offset⟩ :: ts) = none) (rest : List Lexeme) :
    Takes (after? k p) (l :: rest) none (l :: rest) := by
  intro ts hts
  refine ⟨.leaving none ts, ?_, rfl, hts⟩
  obtain ⟨offset, tail, rfl, -⟩ := exists_token hts
  rw [after?, h]

/-- A word is taken as a name. -/
theorem takes_name (w : String) (rest : List Lexeme) : Takes name (.word w :: rest) w rest := by
  intro ts hts
  obtain ⟨offset, tail, rfl, htail⟩ := exists_token hts
  exact ⟨.leaving w tail, rfl, rfl, htail⟩

/-- A word that is not reserved is taken as an identifier. -/
theorem takes_identifier {w : String} (h : Keyword.ofWord? w = none) (rest : List Lexeme) :
    Takes identifier (.word w :: rest) w rest := by
  intro ts hts
  obtain ⟨offset, tail, rfl, htail⟩ := exists_token hts
  exact ⟨.leaving w tail, if_pos h, rfl, htail⟩

/-- A value before a symbol is taken with the symbol. -/
theorem Takes.before {p : Parser α} {s : Symbol} (h : Takes p input a (.symbol s :: rest)) :
    Takes (p.before s) input a rest :=
  h.bind ((takes_symbol s rest).map fun _ => a)

end

/-! ## Extensions -/

section

variable {a b c : α} {more : Extension α} {input middle rest : List Lexeme}

/-- What extends a value, on given lexemes. -/
def Extends (more : Extension α) (b : α) (input : List Lexeme) (a : α) (rest : List Lexeme) : Prop :=
  ∀ (n : Nat) (left : Step α n), left.value = b → left.rest.map Token.lexeme = input →
    Yields (left.extend more) a rest

/-- A value stays as it is where nothing extends it. -/
theorem extends_of_none (h : ∀ ts : List Token, ts.map Token.lexeme = input → more b ts = none) :
    Extends more b input b input := by
  rintro n left rfl hinput
  refine ⟨left, ?_, rfl, hinput⟩
  rw [Step.extend.eq_def, h left.rest hinput]

/-- Where something extends a value, the outcome is extended in turn. -/
theorem extends_of_some (h : ∀ ts : List Token, ts.map Token.lexeme = input →
    ∃ reading, more b ts = some reading ∧ Yields reading c middle)
    (hnext : Extends more c middle a rest) : Extends more b input a rest := by
  rintro n left rfl hinput
  obtain ⟨reading, hmore, step, rfl, rfl, hmiddle⟩ := h left.rest hinput
  rw [Step.extend.eq_def, hmore]
  exact hnext n (left.after step) rfl hmiddle

/-- An extended reader takes a value and what extends it. -/
theorem Takes.extended {p : Parser α} (h : Takes p input b middle)
    (hmore : Extends more b middle a rest) : Takes (p.extended more) input a rest := by
  intro ts hts
  obtain ⟨step, hstep, rfl, hmiddle⟩ := h ts hts
  rw [Parser.extended, hstep]
  exact hmore _ step rfl hmiddle

/-- An extended reader refuses what the reader refuses. -/
theorem Refuses.extended {p : Parser α} {l : Lexeme} (h : Refuses p l) (more : Extension α) :
    Refuses (p.extended more) l := by
  intro offset ts
  obtain ⟨fault, hfault⟩ := h offset ts
  exact ⟨fault, by rw [Parser.extended, hfault]; rfl⟩

/-- A reader that goes on refuses what the first reader refuses. -/
theorem Refuses.bindOptional {p : Parser α} {next : α → OptionalParser β} {l : Lexeme}
    (h : Refuses p l) : Refuses (p.bindOptional next) l := by
  intro offset ts
  obtain ⟨fault, hfault⟩ := h offset ts
  exact ⟨fault, by rw [Parser.bindOptional, hfault]; rfl⟩

end

/-! ## Lists -/

/-- A value with the lexemes that it is written with. -/
structure Part (α : Type) where
  lexemes : List Lexeme
  value : α

section

variable {element : Parser α} {close : Symbol}

/-- A part is taken before a comma or the closing symbol. -/
def TakesPart (element : Parser α) (close : Symbol) (part : Part α) : Prop :=
  ∀ next, next = close ∨ next = .comma → ∀ rest,
    Takes element (part.lexemes ++ .symbol next :: rest) part.value (.symbol next :: rest)

/-- Parts with commas between them are taken up to the closing symbol. -/
theorem takes_elements (hclose : close ≠ .comma) {part : Part α} {others : List (Part α)}
    (h : ∀ x ∈ part :: others, TakesPart element close x) (rest : List Lexeme) :
    Takes (elements close element)
      (separated ((part :: others).map Part.lexemes) ++ .symbol close :: rest)
      ((part :: others).map Part.value) rest := by
  induction others generalizing part with
  | nil =>
    intro ts hts
    rw [List.map_cons, List.map_nil, separated_singleton] at hts
    obtain ⟨⟨value, left, hshorter⟩, hstep, hvalue, hleft⟩ :=
      h part List.mem_cons_self close (.inl rfl) rest ts hts
    obtain ⟨offset, tail, rfl, htail⟩ := exists_token hleft
    refine ⟨⟨[value], tail, Nat.lt_of_succ_lt hshorter⟩, ?_, congrArg (· :: []) hvalue, htail⟩
    rw [elements.eq_def, hstep]
    exact if_pos rfl
  | cons next others ih =>
    obtain ⟨hpart, hothers⟩ := List.forall_mem_cons.mp h
    intro ts hts
    rw [List.map_cons, List.map_cons, separated_cons_cons, List.append_assoc,
      List.cons_append] at hts
    obtain ⟨⟨value, left, hshorter⟩, hstep, hvalue, hleft⟩ := hpart .comma (.inr rfl) _ ts hts
    obtain ⟨offset, tail, rfl, htail⟩ := exists_token hleft
    obtain ⟨⟨values, last, hlast⟩, hlater, hvalues, hrest⟩ := ih hothers tail htail
    refine ⟨⟨value :: values, last, Nat.lt_trans hlast (Nat.lt_of_succ_lt hshorter)⟩, ?_,
      congrArg₂ List.cons hvalue hvalues, hrest⟩
    rw [elements.eq_def, hstep]
    simp only [bind, Except.bind, if_neg (Ne.symm hclose), if_pos, hlater]
    rfl

/-- A closed list is taken up to its closing symbol, if no element begins with that symbol. -/
theorem takes_closedList (hclose : close ≠ .comma) (hrefuses : Refuses element (.symbol close))
    {parts : List (Part α)} (h : ∀ part ∈ parts, TakesPart element close part)
    (rest : List Lexeme) :
    Takes (closedList close element)
      (separated (parts.map Part.lexemes) ++ .symbol close :: rest) (parts.map Part.value)
      rest := by
  intro ts hts
  cases parts with
  | nil =>
    obtain ⟨offset, tail, rfl, htail⟩ := exists_token hts
    exact ⟨.leaving [] tail, if_pos rfl, rfl, htail⟩
  | cons part others =>
    have hread := takes_elements hclose h rest ts hts
    -- the list is not taken for an empty one: its first element is refused at the closing symbol
    unfold closedList
    split
    next s offset tail =>
      have hne : s ≠ close := by
        rintro rfl
        obtain ⟨fault, hfault⟩ := hrefuses offset tail
        obtain ⟨step, hstep, -⟩ := hread
        rw [elements.eq_def, hfault] at hstep
        cases hstep
      rw [if_neg hne]
      exact hread
    next => exact hread

end

end Folio.Query
