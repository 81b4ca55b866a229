import Folio.Proofs.Sequence
import Folio.Query.Parser

/-!
# Values that readers read

What a reader that is put together of others can read follows from what these can read. So what holds
of all expressions that the reader of whole expressions reads holds of all expressions in a parsed
statement. The reader of statements checks each order item: a parsed statement is ordered by proper
paths only.
-/

namespace Folio

/-- The expressions of a selection, in their order. -/
def Selection.exprs : Selection → List Expr
  | .all => []
  | .value e => [e]
  | .items selected => selected.map SelectItem.expr

/-- The expressions of a statement: those of its selection, its filter and those of its order. -/
def Statement.exprs (s : Statement) : List Expr :=
  s.selection.exprs ++ s.filter.toList ++ s.order.map OrderItem.expr

end Folio

namespace Folio.Query

/-- A reader can read a value from some list of tokens. -/
def Reads {α : Type} {bound : List Token → Nat} (p : (ts : List Token) → Reading α (bound ts))
    (a : α) : Prop :=
  ∃ ts step, p ts = .ok step ∧ step.value = a

variable {α β : Type} {bound : List Token → Nat}

/-! ## Combinators -/

/-- Reads a value and then what it calls for. Whether the second reader has to take a token is told by
its bound. -/
def readOn (p : Parser α) (next : α → (ts : List Token) → Reading β (bound ts))
    (hbound : ∀ ts, bound ts ≤ ts.length + 1) : Parser β := fun ts =>
  (p ts).bind fun step => (next step.value step.rest).map
    (Progress.weaken · (Nat.le_trans (hbound step.rest) step.shorter))

/-- A reader after another one reads on. -/
theorem bind_eq_readOn (p : Parser α) (next : α → Parser β) :
    p.bind next = readOn p next fun ts => Nat.le_succ ts.length := rfl

/-- A reader, perhaps of nothing, after another one reads on. -/
theorem bindOptional_eq_readOn (p : Parser α) (next : α → OptionalParser β) :
    p.bindOptional next = readOn p next fun ts => Nat.le_refl (ts.length + 1) := rfl

/-- Reading and then turning the value into another reads the other value. -/
theorem Reads.of_map {p : (ts : List Token) → Reading α (bound ts)} {f : α → β} {b : β}
    (h : Reads (fun ts => (p ts).map (Progress.map f)) b) : ∃ a, Reads p a ∧ f a = b := by
  obtain ⟨ts, step, hstep, rfl⟩ := h
  obtain ⟨earlier, hearlier, rfl⟩ := map_eq_ok_iff.mp hstep
  exact ⟨earlier.value, ⟨ts, earlier, hearlier, rfl⟩, rfl⟩

/-- Reading on reads what the first value calls for. -/
theorem Reads.of_readOn {p : Parser α} {next : α → (ts : List Token) → Reading β (bound ts)}
    {hbound : ∀ ts, bound ts ≤ ts.length + 1} {b : β} (h : Reads (readOn p next hbound) b) :
    ∃ a, Reads p a ∧ Reads (next a) b := by
  obtain ⟨ts, step, hstep, rfl⟩ := h
  obtain ⟨first, hfirst, hstep⟩ := bind_eq_ok_iff.mp hstep
  obtain ⟨second, hsecond, rfl⟩ := map_eq_ok_iff.mp hstep
  exact ⟨first.value, ⟨ts, first, hfirst, rfl⟩, first.rest, second, hsecond, rfl⟩

/-- So does a reader after another one. -/
theorem Reads.of_bind {p : Parser α} {next : α → Parser β} {b : β} (h : Reads (p.bind next) b) :
    ∃ a, Reads p a ∧ Reads (next a) b := by
  rw [bind_eq_readOn] at h
  exact h.of_readOn

/-- So does a reader, perhaps of nothing, after another one. -/
theorem Reads.of_bindOptional {p : Parser α} {next : α → OptionalParser β} {b : β}
    (h : Reads (p.bindOptional next) b) : ∃ a, Reads p a ∧ Reads (next a) b := by
  rw [bindOptional_eq_readOn] at h
  exact h.of_readOn

/-- What a keyword introduces is read by the reader after the keyword. -/
theorem Reads.of_after? {k : Keyword} {p : Parser α} {a : α} (h : Reads (after? k p) (some a)) :
    Reads p a := by
  obtain ⟨ts, step, hstep, hvalue⟩ := h
  unfold after? at hstep
  split at hstep
  · rw [← Except.ok.inj hstep] at hvalue
    cases hvalue
  · obtain ⟨earlier, hearlier, rfl⟩ := map_eq_ok_iff.mp hstep
    obtain ⟨found, hfound, rfl⟩ := map_eq_ok_iff.mp hearlier
    obtain ⟨last, hlast, rfl⟩ := map_eq_ok_iff.mp hfound
    exact ⟨_, last, hlast, Option.some.inj hvalue⟩

/-- Each element of a list is read by the reader of elements. -/
theorem reads_of_mem_commaSeparated {element : Parser α} {ts : List Token}
    {step : Step (List α) ts.length} (h : commaSeparated element ts = .ok step) :
    ∀ a ∈ step.value, Reads element a := by
  unfold commaSeparated at h
  obtain ⟨⟨first, rest, hrest⟩, hfirst, h⟩ := bind_eq_ok_iff.mp h
  have hreads : Reads element first := ⟨ts, _, hfirst, rfl⟩
  simp only at h
  split at h
  next _ _ _ more hmore =>
    have hshorter : more.length < ts.length := Nat.lt_of_succ_lt hmore
    obtain ⟨⟨others, last, hlast⟩, hothers, h⟩ := bind_eq_ok_iff.mp h
    rw [← pure_eq_ok_iff.mp h]
    exact List.forall_mem_cons.mpr ⟨hreads, reads_of_mem_commaSeparated hothers⟩
  next =>
    rw [← pure_eq_ok_iff.mp h]
    exact List.forall_mem_singleton.mpr hreads
termination_by ts.length
decreasing_by exact hshorter

/-! ## Properties of all values that are read -/

/-- Every value that a reader can read has a property. -/
def Only (P : α → Prop) (p : (ts : List Token) → Reading α (bound ts)) : Prop := ∀ a, Reads p a → P a

/-- Any value is a value. -/
theorem only_any (p : Parser α) : Only (fun _ => True) p := fun _ _ => trivial

section

variable {P : α → Prop} {Q : β → Prop}

/-- Mapped values have a property if the map gives it to them. -/
theorem Only.map {p : Parser α} {f : α → β} (hp : Only P p) (hf : ∀ a, P a → Q (f a)) :
    Only Q (p.map f) := by
  intro b hb
  obtain ⟨a, ha, rfl⟩ := hb.of_map
  exact hf a (hp a ha)

/-- Values read on have a property if they do whatever was read before. -/
theorem Only.readOn {p : Parser α} {next : α → (ts : List Token) → Reading β (bound ts)}
    {hbound : ∀ ts, bound ts ≤ ts.length + 1} (hp : Only P p) (hnext : ∀ a, P a → Only Q (next a)) :
    Only Q (readOn p next hbound) := by
  intro b hb
  obtain ⟨a, ha, hb⟩ := hb.of_readOn
  exact hnext a (hp a ha) b hb

/-- So do those of a reader after another one. -/
theorem Only.bind {p : Parser α} {next : α → Parser β} (hp : Only P p)
    (hnext : ∀ a, P a → Only Q (next a)) : Only Q (p.bind next) := by
  rw [bind_eq_readOn]
  exact hp.readOn hnext

/-- So do those of a reader, perhaps of nothing, after another one. -/
theorem Only.bindOptional {p : Parser α} {next : α → OptionalParser β} (hp : Only P p)
    (hnext : ∀ a, P a → Only Q (next a)) : Only Q (p.bindOptional next) := by
  rw [bindOptional_eq_readOn]
  exact hp.readOn hnext

/-- A value before a symbol keeps its property. -/
theorem Only.before {p : Parser α} {s : Symbol} (hp : Only P p) : Only P (p.before s) :=
  hp.bind fun _ ha => (only_any _).map fun _ _ => ha

/-- A step of a reader has the property that all its values have. -/
theorem Only.of_past {p : Parser α} (hp : Only P p) {ts : List Token}
    {step : Step α (ts.length + 1)} (h : past (p ts) = .ok step) : P step.value := by
  obtain ⟨earlier, hearlier, rfl⟩ := map_eq_ok_iff.mp h
  exact hp _ ⟨ts, earlier, hearlier, rfl⟩

/-- What extends a step keeps a property of its value, if each extension does. -/
theorem only_of_extend {more : Extension α}
    (hmore : ∀ a ts reading step, P a → more a ts = some reading → reading = .ok step →
      P step.value) {n : Nat} {left step : Step α n} (hleft : P left.value)
    (h : left.extend more = .ok step) : P step.value := by
  unfold Step.extend at h
  split at h
  next => exact Except.ok.inj h ▸ hleft
  next reading hreading =>
    obtain ⟨next, hnext, h⟩ := bind_eq_ok_iff.mp h
    exact only_of_extend hmore (hmore _ _ _ _ hleft hreading hnext) h
termination_by left.rest.length
decreasing_by exact next.shorter

/-- Extended values have a property that each extension keeps. -/
theorem Only.extended {p : Parser α} {more : Extension α} (hp : Only P p)
    (hmore : ∀ a ts reading step, P a → more a ts = some reading → reading = .ok step →
      P step.value) : Only P (p.extended more) := by
  rintro _ ⟨ts, step, hstep, rfl⟩
  obtain ⟨first, hfirst, hstep⟩ := bind_eq_ok_iff.mp hstep
  exact only_of_extend hmore (hp _ ⟨ts, first, hfirst, rfl⟩) hstep

/-- Elements up to a closing symbol have the property of elements. -/
theorem forall_mem_of_elements {close : Symbol} {element : Parser α} (helement : Only P element)
    {ts : List Token} {step : Step (List α) ts.length}
    (h : elements close element ts = .ok step) : ∀ a ∈ step.value, P a := by
  unfold elements at h
  obtain ⟨⟨first, rest, hrest⟩, hfirst, h⟩ := bind_eq_ok_iff.mp h
  have hP : P first := helement _ ⟨ts, _, hfirst, rfl⟩
  simp only at h
  split at h
  next s offset more hmore =>
    have hshorter : more.length < ts.length := Nat.lt_of_succ_lt hmore
    split at h
    · rw [← pure_eq_ok_iff.mp h]
      exact List.forall_mem_singleton.mpr hP
    · split at h
      · obtain ⟨⟨others, last, hlast⟩, hothers, h⟩ := bind_eq_ok_iff.mp h
        rw [← pure_eq_ok_iff.mp h]
        exact List.forall_mem_cons.mpr ⟨hP, forall_mem_of_elements helement hothers⟩
      · cases h
  next => cases h
termination_by ts.length
decreasing_by exact hshorter

/-- The elements of a closed list have the property of elements. -/
theorem Only.closedList {close : Symbol} {element : Parser α} (helement : Only P element) :
    Only (fun as => ∀ a ∈ as, P a) (closedList close element) := by
  rintro _ ⟨ts, step, hstep, rfl⟩
  unfold Query.closedList at hstep
  split at hstep
  · split at hstep
    · rw [← Except.ok.inj hstep]
      exact List.forall_mem_nil _
    · exact forall_mem_of_elements helement hstep
  · exact forall_mem_of_elements helement hstep

end

/-! ## Statements -/

/-- An order item is made of a whole expression that is a proper path. -/
theorem spec_of_reads_orderItem {item : OrderItem} (h : Reads orderItem item) :
    Reads expression item.expr ∧ isProperPath item.expr = true := by
  obtain ⟨ts, step, hstep, rfl⟩ := h
  obtain ⟨first, hfirst, hstep⟩ := bind_eq_ok_iff.mp hstep
  split at hstep
  next hproper =>
    obtain ⟨second, hsecond, rfl⟩ := map_eq_ok_iff.mp hstep
    obtain ⟨found, -, rfl⟩ := map_eq_ok_iff.mp hsecond
    exact ⟨⟨ts, first, hfirst, rfl⟩, hproper⟩
  next => cases hstep

/-- An entry of a SELECT list is made of a whole expression. -/
theorem reads_expression_of_selectItem {item : SelectItem} (h : Reads selectItem item) :
    Reads expression item.expr := by
  obtain ⟨e, he, h⟩ := h.of_bindOptional
  obtain ⟨given, -, rfl⟩ := h.of_map
  exact he

/-- A selection is made of whole expressions. -/
theorem reads_expression_of_selection {chosen : Selection} (h : Reads selection chosen) :
    ∀ e ∈ chosen.exprs, Reads expression e := by
  obtain ⟨ts, step, hstep, rfl⟩ := h
  unfold selection at hstep
  split at hstep
  · rw [← Except.ok.inj hstep]
    exact nofun
  · split at hstep
    · obtain ⟨last, hlast, rfl⟩ := map_eq_ok_iff.mp hstep
      obtain ⟨e, he, hvalue⟩ := Reads.of_map ⟨_, last, hlast, rfl⟩
      change ∀ e ∈ last.value.exprs, Reads expression e
      rw [← hvalue]
      exact List.forall_mem_singleton.mpr he
    · obtain ⟨last, hlast, rfl⟩ := map_eq_ok_iff.mp hstep
      refine List.forall_mem_map.mpr fun item hitem => ?_
      exact reads_expression_of_selectItem (reads_of_mem_commaSeparated hlast item hitem)

/-- A statement is made of whole expressions and of order items. -/
theorem reads_of_statement {s : Statement} (h : Reads statement s) :
    (∀ e ∈ s.selection.exprs ++ s.filter.toList, Reads expression e) ∧
      ∀ item ∈ s.order, Reads orderItem item := by
  obtain ⟨unordered, hunordered, h⟩ := h.of_bindOptional
  obtain ⟨order, horder, rfl⟩ := h.of_map
  obtain ⟨unfiltered, hunfiltered, h⟩ := hunordered.of_bindOptional
  obtain ⟨filter, hfilter, rfl⟩ := h.of_map
  obtain ⟨top, -, h⟩ := hunfiltered.of_bind
  obtain ⟨chosen, hchosen, h⟩ := h.of_bind
  obtain ⟨source, -, rfl⟩ := h.of_map
  constructor
  · refine List.forall_mem_append.mpr ⟨reads_expression_of_selection hchosen, ?_⟩
    cases filter with
    | none => exact nofun
    | some filter => exact List.forall_mem_singleton.mpr hfilter.of_after?
  · cases order with
    | none => exact nofun
    | some items =>
      obtain ⟨_, -, ts, step, hstep, rfl⟩ := horder.of_after?.of_bind
      exact reads_of_mem_commaSeparated hstep

/-- A text is parsed as what the reader of statements reads. -/
theorem reads_of_parse {text : String} {s : Statement} (h : parse text = .ok s) :
    Reads statement s := by
  obtain ⟨ts, -, h⟩ := bind_eq_ok_iff.mp h
  obtain ⟨step, hstep, h⟩ := bind_eq_ok_iff.mp h
  split at h
  · exact ⟨ts, step, hstep, pure_eq_ok_iff.mp h⟩
  · cases h

/-- **Parsed orders.** Every order item of a parsed statement is a proper path. -/
theorem isProperPath_of_parse {text : String} {s : Statement} (h : parse text = .ok s) :
    ∀ item ∈ s.order, isProperPath item.expr = true := fun item hitem =>
  (spec_of_reads_orderItem ((reads_of_statement (reads_of_parse h)).2 item hitem)).2

/-- **Parsed expressions.** What holds of all whole expressions that are read holds of all expressions
of a parsed statement. -/
theorem forall_exprs_of_parse {P : Expr → Prop} (hP : Only P expression) {text : String}
    {s : Statement} (h : parse text = .ok s) : ∀ e ∈ s.exprs, P e := by
  obtain ⟨hexprs, horder⟩ := reads_of_statement (reads_of_parse h)
  refine List.forall_mem_append.mpr ⟨fun e he => hP e (hexprs e he), ?_⟩
  refine List.forall_mem_map.mpr fun item hitem => ?_
  exact hP item.expr (spec_of_reads_orderItem (horder item hitem)).1

end Folio.Query
