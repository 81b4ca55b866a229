import Folio.Proofs.Query.Parsing
import Folio.Proofs.Query.Taking

/-!
# Readers that keep to rules

A rule tells which lexemes are written for which values. A reader keeps to a rule if the lexemes that
it takes are written for the value that it makes of them, and if it never takes the end of the text. A
reader that is put together of others keeps to the rule that is put together of theirs.
-/

namespace Folio.Query

variable {α β : Type} {n : Nat} {bound : List Token → Nat}

/-- What a reading takes of tokens is written for its value, and it is not the end of the text. -/
def KeepsTo (rule : List Lexeme → α → Prop) (ts : List Token) (reading : Reading α n) : Prop :=
  ∀ step, reading = .ok step → ∃ taken,
    ts.map Token.lexeme = taken ++ step.rest.map Token.lexeme ∧ .finish ∉ taken ∧
      rule taken step.value

/-- What a reader takes is written for the value that it reads. -/
def Obeys (rule : List Lexeme → α → Prop) (p : (ts : List Token) → Reading α (bound ts)) : Prop :=
  ∀ ts, KeepsTo rule ts (p ts)

/-! ## Readings -/

section

variable {rule : List Lexeme → α → Prop} {whole : List Lexeme → β → Prop} {ts : List Token}
  {reading : Reading α n}

/-- A value that leaves some of the tokens is written with the others. -/
theorem keepsTo_ok {step : Step α n} {taken : List Lexeme}
    (hts : ts.map Token.lexeme = taken ++ step.rest.map Token.lexeme) (htaken : .finish ∉ taken)
    (h : rule taken step.value) : KeepsTo rule ts (.ok step) := by
  rintro _ ⟨⟩
  exact ⟨taken, hts, htaken, h⟩

/-- A value that is read from no token is written with nothing. -/
theorem keepsTo_nothing {a : α} (h : rule [] a) : KeepsTo rule ts (.ok (.leaving a ts)) :=
  keepsTo_ok rfl List.not_mem_nil h

/-- A value that is read from one token is written with its lexeme. -/
theorem keepsTo_token {t : Token} {a : α} (ht : t.lexeme ≠ .finish) (h : rule [t.lexeme] a) :
    KeepsTo rule (t :: ts) (.ok (.leaving a ts)) := by
  have hts : (t :: ts).map Token.lexeme = [t.lexeme] ++ ts.map Token.lexeme := rfl
  exact keepsTo_ok hts (List.mem_singleton.not.mpr ht.symm) h

/-- A reading keeps to every rule that follows from its rule. -/
theorem KeepsTo.mono {whole : List Lexeme → α → Prop} (h : KeepsTo rule ts reading)
    (hwhole : ∀ ls a, rule ls a → whole ls a) : KeepsTo whole ts reading := by
  intro step hstep
  obtain ⟨taken, hts, hfinish, htaken⟩ := h step hstep
  exact ⟨taken, hts, hfinish, hwhole _ _ htaken⟩

/-- A mapped reading takes what the reading takes. -/
theorem KeepsTo.map (h : KeepsTo rule ts reading) {f : α → β}
    (hwhole : ∀ ls a, rule ls a → whole ls (f a)) :
    KeepsTo whole ts (reading.map (Progress.map f)) := by
  intro step hstep
  obtain ⟨earlier, hearlier, rfl⟩ := map_eq_ok_iff.mp hstep
  obtain ⟨taken, hts, hfinish, htaken⟩ := h earlier hearlier
  exact ⟨taken, hts, hfinish, hwhole _ _ htaken⟩

/-- So does a reading under a larger bound. -/
theorem KeepsTo.weaken (h : KeepsTo rule ts reading) {m : Nat} (hle : n ≤ m) :
    KeepsTo rule ts (reading.map (Progress.weaken · hle)) := by
  intro step hstep
  obtain ⟨earlier, hearlier, rfl⟩ := map_eq_ok_iff.mp hstep
  exact h earlier hearlier

/-- A reading of what is left takes the lexemes before it, too. -/
theorem KeepsTo.front {whole : List Lexeme → α → Prop} {front : List Lexeme} {left : List Token}
    (h : KeepsTo rule left reading) (hts : ts.map Token.lexeme = front ++ left.map Token.lexeme)
    (hfront : .finish ∉ front) (hwhole : ∀ ls a, rule ls a → whole (front ++ ls) a) :
    KeepsTo whole ts reading := by
  intro step hstep
  obtain ⟨taken, hleft, hfinish, htaken⟩ := h step hstep
  refine ⟨front ++ taken, by rw [hts, hleft, List.append_assoc], ?_, hwhole _ _ htaken⟩
  exact List.mem_append.not.mpr (not_or.mpr ⟨hfront, hfinish⟩)

/-- A reading after a token takes the token, too. -/
theorem KeepsTo.past {whole : List Lexeme → α → Prop} {t : Token} (h : KeepsTo rule ts reading)
    (ht : t.lexeme ≠ .finish) (hwhole : ∀ ls a, rule ls a → whole (t.lexeme :: ls) a) :
    KeepsTo whole (t :: ts) (past reading) := by
  have hts : (t :: ts).map Token.lexeme = [t.lexeme] ++ ts.map Token.lexeme := rfl
  exact (h.weaken (Nat.le_succ n)).front hts (List.mem_singleton.not.mpr ht.symm) hwhole

/-- A reading after a keyword takes the word, too. -/
theorem keepsTo_past_keyword {k : Keyword} {found : Step Unit ts.length}
    (hfound : keyword? k ts = some found) {m : Nat} (hle : n ≤ m)
    (h : ∀ w, Keyword.ofWord? w = some k →
      KeepsTo (fun ls => rule (.word w :: ls)) found.rest reading) :
    KeepsTo rule ts (reading.map (Progress.weaken · hle)) := by
  obtain ⟨w, offset, hword, hts⟩ := eq_of_keyword? hfound
  have hlexemes : ts.map Token.lexeme = [.word w] ++ found.rest.map Token.lexeme :=
    congrArg (List.map Token.lexeme) hts
  exact ((h w hword).weaken hle).front hlexemes (by simp) fun _ _ hrule => hrule

end

/-! ## Readers -/

section

variable {rule : List Lexeme → α → Prop} {whole : List Lexeme → β → Prop} {p : Parser α}

/-- A mapped reader takes what the reader takes. -/
theorem Obeys.map (h : Obeys rule p) {f : α → β} (hwhole : ∀ ls a, rule ls a → whole ls (f a)) :
    Obeys whole (p.map f) := fun ts => (h ts).map hwhole

/-- Readers one after another take lexemes one after another. -/
theorem Obeys.readOn {next : α → (ts : List Token) → Reading β (bound ts)}
    {hbound : ∀ ts, bound ts ≤ ts.length + 1} (h : Obeys rule p)
    (hnext : ∀ front a, rule front a → Obeys (fun ls => whole (front ++ ls)) (next a)) :
    Obeys whole (readOn p next hbound) := by
  intro ts last hlast
  obtain ⟨step, hstep, hlast⟩ := bind_eq_ok_iff.mp hlast
  obtain ⟨front, hts, hfinish, hfront⟩ := h ts step hstep
  exact ((hnext front step.value hfront step.rest).weaken _).front hts hfinish
    (fun _ _ hwhole => hwhole) last hlast

/-- So it is if the second reader takes a token. -/
theorem Obeys.bind {next : α → Parser β} (h : Obeys rule p)
    (hnext : ∀ front a, rule front a → Obeys (fun ls => whole (front ++ ls)) (next a)) :
    Obeys whole (p.bind next) := by
  rw [bind_eq_readOn]
  exact h.readOn hnext

/-- So it is if the second reader may take nothing. -/
theorem Obeys.bindOptional {next : α → OptionalParser β} (h : Obeys rule p)
    (hnext : ∀ front a, rule front a → Obeys (fun ls => whole (front ++ ls)) (next a)) :
    Obeys whole (p.bindOptional next) := by
  rw [bindOptional_eq_readOn]
  exact h.readOn hnext

/-- A symbol is taken for itself. -/
theorem obeys_symbol (s : Symbol) : Obeys (fun ls _ => ls = [.symbol s]) (symbol s) := by
  intro ts
  unfold symbol
  split
  · split
    next hs => exact keepsTo_token nofun (by rw [hs])
    next => exact nofun
  · exact nofun

/-- A keyword is taken for a word that is the keyword. -/
theorem obeys_keyword (k : Keyword) :
    Obeys (fun ls _ => ∃ w, Keyword.ofWord? w = some k ∧ ls = [.word w]) (keyword k) := by
  intro ts
  unfold keyword
  split
  next step hstep =>
    obtain ⟨w, offset, hword, hts⟩ := eq_of_keyword? hstep
    exact keepsTo_ok (congrArg (List.map Token.lexeme) hts) (by simp) ⟨w, hword, rfl⟩
  next => exact nofun

/-- A name is taken for a word. -/
theorem obeys_name : Obeys (fun ls w => ls = [.word w]) name := by
  intro ts
  unfold name
  split
  · exact keepsTo_token nofun rfl
  · exact nofun

/-- An identifier is taken for a word that is not reserved. -/
theorem obeys_identifier :
    Obeys (fun ls w => Keyword.ofWord? w = none ∧ ls = [.word w]) identifier := by
  intro ts
  unfold identifier
  split
  · split
    next hword => exact keepsTo_token nofun ⟨hword, rfl⟩
    next => exact nofun
  · exact nofun

/-- A value before a symbol is taken with the symbol. -/
theorem Obeys.before {whole : List Lexeme → α → Prop} {s : Symbol} (h : Obeys rule p)
    (hwhole : ∀ ls a, rule ls a → whole (ls ++ [.symbol s]) a) : Obeys whole (p.before s) := by
  refine h.bind fun front a hfront => (obeys_symbol s).map ?_
  rintro _ _ rfl
  exact hwhole front a hfront

/-- What a keyword introduces is taken with the keyword, or nothing is. -/
theorem Obeys.after? {whole : List Lexeme → Option α → Prop} {k : Keyword} (h : Obeys rule p)
    (hnone : whole [] none)
    (hsome : ∀ w ls a, Keyword.ofWord? w = some k → rule ls a → whole (.word w :: ls) (some a)) :
    Obeys whole (Query.after? k p) := by
  intro ts
  unfold Query.after?
  split
  next => exact keepsTo_nothing hnone
  next step hstep =>
    exact (keepsTo_past_keyword hstep _ fun w hword =>
      (h step.rest).map fun ls a => hsome w ls a hword).weaken _

end

/-! ## Extensions -/

section

variable {rule : List Lexeme → α → Prop} {more : Extension α}

/-- Extensions keep to a rule: what an extension takes continues what its value is written with. -/
def Extension.Obeys (rule : List Lexeme → α → Prop) (more : Extension α) : Prop :=
  ∀ front a, rule front a → ∀ ts reading, more a ts = some reading →
    KeepsTo (fun ls => rule (front ++ ls)) ts reading

/-- What extends a step takes what continues the step. -/
theorem keepsTo_extend (hmore : more.Obeys rule) {left : Step α n} {front : List Lexeme}
    {ts : List Token} (hts : ts.map Token.lexeme = front ++ left.rest.map Token.lexeme)
    (hfinish : .finish ∉ front) (hfront : rule front left.value) :
    KeepsTo rule ts (left.extend more) := by
  intro last hlast
  unfold Step.extend at hlast
  split at hlast
  next => exact keepsTo_ok hts hfinish hfront last hlast
  next reading hreading =>
    obtain ⟨step, hstep, hlast⟩ := bind_eq_ok_iff.mp hlast
    obtain ⟨taken, hrest, hend, htaken⟩ :=
      hmore front left.value hfront left.rest reading hreading step hstep
    have hlonger : ts.map Token.lexeme = (front ++ taken) ++ step.rest.map Token.lexeme := by
      rw [hts, hrest, List.append_assoc]
    have hneither : .finish ∉ front ++ taken := List.mem_append.not.mpr (not_or.mpr ⟨hfinish, hend⟩)
    have hshorter : (left.after step).rest.length < left.rest.length := step.shorter
    have hlater : KeepsTo rule ts (Step.extend more (left.after step)) :=
      keepsTo_extend hmore hlonger hneither htaken
    exact hlater last hlast
termination_by left.rest.length
decreasing_by exact hshorter

/-- An extended reader takes a value and what continues it. -/
theorem Obeys.extended {p : Parser α} (h : Obeys rule p) (hmore : more.Obeys rule) :
    Obeys rule (p.extended more) := by
  intro ts last hlast
  obtain ⟨step, hstep, hlast⟩ := bind_eq_ok_iff.mp hlast
  obtain ⟨front, hts, hfinish, hfront⟩ := h ts step hstep
  exact keepsTo_extend hmore hts hfinish hfront last hlast

end

/-! ## Lists -/

section

variable {rule : List Lexeme → α → Prop} {element : Parser α} {ts : List Token}

/-- A list is written in parts: values by a rule, separated by commas. -/
def InParts (rule : List Lexeme → α → Prop) (ls : List Lexeme) (as : List α) : Prop :=
  ∃ parts : List (Part α), (∀ part ∈ parts, rule part.lexemes part.value) ∧
    ls = separated (parts.map Part.lexemes) ∧ as = parts.map Part.value

/-- One value is a list in parts. -/
theorem inParts_singleton {ls : List Lexeme} {a : α} (h : rule ls a) : InParts rule ls [a] :=
  ⟨[⟨ls, a⟩], List.forall_mem_singleton.mpr h, (separated_singleton ls).symm, rfl⟩

/-- A value and a comma before a list that is not empty make a longer one. -/
theorem InParts.cons {ls rest : List Lexeme} {a : α} {as : List α} (h : rule ls a)
    (hrest : InParts rule rest as) (has : as ≠ []) :
    InParts rule (ls ++ .symbol .comma :: rest) (a :: as) := by
  obtain ⟨parts, hparts, rfl, rfl⟩ := hrest
  refine ⟨⟨ls, a⟩ :: parts, List.forall_mem_cons.mpr ⟨h, hparts⟩, ?_, rfl⟩
  cases parts with
  | nil => exact absurd rfl has
  | cons next parts => simp [separated_cons_cons]

/-- Elements up to a closing symbol are taken in parts, with the symbol. -/
theorem keepsTo_elements {close : Symbol} (h : Obeys rule element) (ts : List Token) :
    KeepsTo (fun ls as => as ≠ [] ∧ ∃ rows, ls = rows ++ [.symbol close] ∧ InParts rule rows as) ts
      (elements close element ts) := by
  intro last hlast
  unfold elements at hlast
  obtain ⟨⟨first, rest, hrest⟩, hfirst, hlast⟩ := bind_eq_ok_iff.mp hlast
  obtain ⟨front, hts, hfinish, hfront⟩ := h ts _ hfirst
  simp only at hlast
  split at hlast
  next s offset more hmore =>
    have hshorter : more.length < ts.length := Nat.lt_of_succ_lt hmore
    split at hlast
    next hs =>
      rw [← pure_eq_ok_iff.mp hlast]
      refine ⟨front ++ [.symbol close], ?_, by simp [hfinish], List.cons_ne_nil _ _, front, rfl,
        inParts_singleton hfront⟩
      rw [hts, ← hs]
      simp
    next =>
      split at hlast
      next hs =>
        obtain ⟨⟨others, left, hleft⟩, hothers, hlast⟩ := bind_eq_ok_iff.mp hlast
        obtain ⟨_, hmorets, hend, hne, rows, rfl, hrows⟩ := keepsTo_elements h more _ hothers
        rw [← pure_eq_ok_iff.mp hlast]
        refine ⟨(front ++ .symbol .comma :: rows) ++ [.symbol close], ?_, by simp_all,
          List.cons_ne_nil _ _, _, rfl, .cons hfront hrows hne⟩
        rw [hts, ← hs, List.map_cons, hmorets]
        simp
      next => cases hlast
  next => cases hlast
termination_by ts.length
decreasing_by exact hshorter

/-- A closed list is taken in parts, with its closing symbol. -/
theorem Obeys.closedList {close : Symbol} {whole : List Lexeme → List α → Prop}
    (h : Obeys rule element)
    (hwhole : ∀ rows as, InParts rule rows as → whole (rows ++ [.symbol close]) as) :
    Obeys whole (closedList close element) := by
  intro ts
  have helements (ts : List Token) : KeepsTo whole ts (elements close element ts) := by
    intro last hlast
    obtain ⟨_, hts, hfinish, -, rows, rfl, hrows⟩ := keepsTo_elements h ts last hlast
    exact ⟨_, hts, hfinish, hwhole rows _ hrows⟩
  unfold Query.closedList
  split
  next s offset rest =>
    split
    next hs => exact keepsTo_token nofun (hs ▸ hwhole [] [] ⟨[], List.forall_mem_nil _, rfl, rfl⟩)
    next => exact helements _
  next => exact helements _

/-- One or more elements are taken in parts. -/
theorem obeys_commaSeparated (h : Obeys rule element) :
    Obeys (fun ls as => as ≠ [] ∧ InParts rule ls as) (commaSeparated element) := by
  intro ts last hlast
  unfold commaSeparated at hlast
  obtain ⟨⟨first, rest, hrest⟩, hfirst, hlast⟩ := bind_eq_ok_iff.mp hlast
  obtain ⟨front, hts, hfinish, hfront⟩ := h ts _ hfirst
  simp only at hlast
  split at hlast
  next offset more hmore =>
    have hshorter : more.length < ts.length := Nat.lt_of_succ_lt hmore
    obtain ⟨⟨others, left, hleft⟩, hothers, hlast⟩ := bind_eq_ok_iff.mp hlast
    obtain ⟨rows, hmorets, hend, hne, hrows⟩ := obeys_commaSeparated h more _ hothers
    rw [← pure_eq_ok_iff.mp hlast]
    refine ⟨front ++ .symbol .comma :: rows, ?_, by simp [hfinish, hend], List.cons_ne_nil _ _,
      .cons hfront hrows hne⟩
    rw [hts, List.map_cons, hmorets]
    simp
  next =>
    rw [← pure_eq_ok_iff.mp hlast]
    exact ⟨front, hts, hfinish, List.cons_ne_nil _ _, inParts_singleton hfront⟩
termination_by ts => ts.length
decreasing_by exact hshorter

end

end Folio.Query
