import Folio.Proofs.Expr.Membership

/-!
# Membership as a disjunction

Membership in a list asks which of the equalities with its members hold, and so does the disjunction
of these equalities. The disjunction is unknown if none of them holds and one of them is unknown.
Membership is then false, unless the value that is searched for is absent itself. So the two differ
exactly if a present value equals no member and some member is absent, and a negated membership then
keeps rows that the negated disjunction does not keep.
-/

namespace Folio

/-! ## Values -/

namespace Value

variable {a b : Value} {items : List Value}

/-- Equality is unknown if a side is absent. -/
theorem equal_eq_unknown_iff :
    a.equal b = .unknown ↔ a.isAbsent = true ∨ b.isAbsent = true := by
  unfold equal
  split_ifs with habsent hkind
  · simpa using habsent
  · simp only [Bool.or_eq_true] at habsent
    cases a.deepEqual b <;> simp [Truth.ofBool, habsent]
  · simpa using habsent

/-- Whether a value is a member of a list: unknown only if the value is absent. -/
def membership (a : Value) (items : List Value) : Truth :=
  if a.isAbsent then .unknown else .ofBool (items.any fun item => (a.equal item).isTrue)

/-- What membership finds is what the equalities with the members settle: the value is absent, it
equals some member, or no member is absent. -/
def Settled (a : Value) (items : List Value) : Prop :=
  a.isAbsent = true ∨ (∃ item ∈ items, a.equal item = .true) ∨
    ∀ item ∈ items, item.isAbsent = false

/-- A value is a member if it equals some member. -/
theorem membership_eq_true_iff :
    a.membership items = .true ↔ ∃ item ∈ items, a.equal item = .true := by
  unfold membership
  split_ifs with habsent
  · have hunknown (item : Value) : a.equal item = .unknown := equal_eq_unknown_iff.mpr (.inl habsent)
    simp [hunknown]
  · simp [Truth.ofBool_eq_true_iff, Truth.isTrue]

/-- A value is no member if it is present and equals none. -/
theorem membership_eq_false_iff : a.membership items = .false ↔
    a.isAbsent = false ∧ ∀ item ∈ items, a.equal item ≠ .true := by
  unfold membership
  split_ifs with habsent
  · simp [habsent]
  · simp [habsent, Truth.ofBool_eq_false_iff, Truth.isTrue]

/-- Whether a value equals one of the first value and the others, by disjunctions from the left. -/
def equalsOne (a first : Value) (rest : List Value) : Truth :=
  (rest.map a.equal).foldl .or (a.equal first)

variable {first : Value} {rest : List Value}

/-- The disjunction is true if some equality is. -/
theorem equalsOne_eq_true_iff :
    a.equalsOne first rest = .true ↔ ∃ item ∈ first :: rest, a.equal item = .true := by
  rw [equalsOne, Truth.foldl_or_eq_true_iff, ← List.map_cons, List.mem_map]

/-- The disjunction is false if all equalities are. -/
theorem equalsOne_eq_false_iff :
    a.equalsOne first rest = .false ↔ ∀ item ∈ first :: rest, a.equal item = .false := by
  rw [equalsOne, Truth.foldl_or_eq_false_iff, ← List.map_cons, List.forall_mem_map]

/-- Membership that is settled is false only if each equality is. -/
theorem Settled.forall_equal_eq_false (h : a.Settled items)
    (hmember : a.membership items = .false) : ∀ item ∈ items, a.equal item = .false := by
  obtain ⟨hpresent, hnone⟩ := membership_eq_false_iff.mp hmember
  intro item hitem
  rcases h with habsent | ⟨other, hother, hequal⟩ | hitems
  · simp [hpresent] at habsent
  · exact absurd hequal (hnone other hother)
  · have hknown : a.equal item ≠ .unknown := by
      simp [equal_eq_unknown_iff, hpresent, hitems item hitem]
    cases hequal : a.equal item with
    | true => exact absurd hequal (hnone item hitem)
    | false => rfl
    | unknown => exact absurd hequal hknown

/-- Where membership is not settled, it is false. -/
theorem membership_of_not_settled (h : ¬ a.Settled items) : a.membership items = .false := by
  simp only [Settled, not_or, not_exists, not_and, Bool.not_eq_true] at h
  exact membership_eq_false_iff.mpr ⟨h.1, h.2.1⟩

/-- Where membership is not settled, the disjunction is unknown: no equality is true and that with an
absent member is not false. -/
theorem equalsOne_of_not_settled (h : ¬ a.Settled (first :: rest)) :
    a.equalsOne first rest = .unknown := by
  simp only [Settled, not_or, not_forall, Bool.not_eq_false] at h
  obtain ⟨-, hnone, item, hitem, habsent⟩ := h
  cases hequal : a.equalsOne first rest with
  | true => exact absurd (equalsOne_eq_true_iff.mp hequal) hnone
  | false =>
    have hunknown : a.equal item = .unknown := equal_eq_unknown_iff.mpr (.inr habsent)
    rw [equalsOne_eq_false_iff.mp hequal item hitem] at hunknown
    cases hunknown
  | unknown => rfl

/-- Membership is the disjunction of the equalities exactly where it is settled. -/
theorem membership_eq_equalsOne_iff :
    a.membership (first :: rest) = a.equalsOne first rest ↔ a.Settled (first :: rest) := by
  constructor
  · intro hsame
    by_contra hsettled
    rw [membership_of_not_settled hsettled, equalsOne_of_not_settled hsettled] at hsame
    cases hsame
  · intro hsettled
    rw [Truth.eq_iff, membership_eq_true_iff, equalsOne_eq_true_iff, equalsOne_eq_false_iff]
    refine ⟨Iff.rfl, hsettled.forall_equal_eq_false, fun hall => membership_eq_false_iff.mpr ⟨?_, ?_⟩⟩
    · have hfirst : a.equal first ≠ .unknown := by simp [hall first List.mem_cons_self]
      simp only [ne_eq, equal_eq_unknown_iff, not_or, Bool.not_eq_true] at hfirst
      exact hfirst.1
    · intro item hitem
      simp [hall item hitem]

end Value

/-! ## Expressions -/

namespace Expr

variable {scope : Scope} {e left right needle choice first chain : Expr} {rest : List Expr}
  {a : Value} {items : List Value} {t : Truth}

/-- A condition is true if its value is. -/
theorem test_eq_ok_true_iff :
    e.test scope = .ok true ↔ ∃ v, e.eval scope = .ok v ∧ Truth.ofValue v = .true := by
  simp only [test, bind_eq_ok_iff, pure_eq_ok_iff, Truth.isTrue, beq_iff_eq]

/-- An operator has a value if both operands do. -/
theorem eval_binary_eq_ok_iff {op : BinaryOp} {v : Value} :
    (binary op left right).eval scope = .ok v ↔
      ∃ a, left.eval scope = .ok a ∧ ∃ b, right.eval scope = .ok b ∧ op.apply a b = v := by
  simp only [eval, bind_eq_ok_iff, pure_eq_ok_iff]

/-- The negation of an expression whose value is that of a truth. -/
theorem eval_not (h : e.eval scope = .ok t.toValue) :
    (unary .not e).eval scope = .ok t.not.toValue := by
  rw [eval, h]
  simp [bind, Except.bind, pure, Except.pure, UnaryOp.apply]

/-- A negation keeps a row if what it negates is false. -/
theorem test_not_eq_ok_true_iff (h : e.eval scope = .ok t.toValue) :
    (unary .not e).test scope = .ok true ↔ t = .false := by
  simp [test_eq_ok_true_iff, eval_not h, Truth.not_eq_true_iff]

/-- The equalities of a needle with choices, joined by disjunctions from the left. -/
def equalsAny (needle first : Expr) (rest : List Expr) : Expr :=
  rest.foldl (fun chain choice => binary .or chain (binary .equal needle choice))
    (binary .equal needle first)

/-- The equality of a needle with a choice compares their values. -/
theorem eval_equal {b : Value} (hneedle : needle.eval scope = .ok a)
    (hchoice : choice.eval scope = .ok b) :
    (binary .equal needle choice).eval scope = .ok (a.equal b).toValue :=
  eval_binary_eq_ok_iff.mpr ⟨a, hneedle, b, hchoice, rfl⟩

/-- Further equalities are joined to a disjunction by their truths. -/
theorem eval_foldl_or (hneedle : needle.eval scope = .ok a)
    (hchain : chain.eval scope = .ok t.toValue) (hrest : evalItems scope rest = .ok items) :
    (rest.foldl (fun chain choice => binary .or chain (binary .equal needle choice)) chain).eval
      scope = .ok ((items.map a.equal).foldl .or t).toValue := by
  -- The chain grows on its right, so what holds of it is general in the chain.
  induction rest generalizing chain t items with
  | nil =>
    obtain rfl := Except.ok.inj hrest
    exact hchain
  | cons choice rest ih =>
    obtain ⟨b, hchoice, hrest⟩ := bind_eq_ok_iff.mp hrest
    obtain ⟨values, hvalues, hrest⟩ := bind_eq_ok_iff.mp hrest
    obtain rfl := pure_eq_ok_iff.mp hrest
    rw [List.foldl_cons, List.map_cons, List.foldl_cons]
    refine ih (eval_binary_eq_ok_iff.mpr ⟨_, hchain, _, eval_equal hneedle hchoice, ?_⟩) hvalues
    rw [BinaryOp.apply, Truth.ofValue_toValue, Truth.ofValue_toValue]

/-- The disjunction of the equalities with choices that have a value. -/
theorem eval_equalsAny {b : Value} (hneedle : needle.eval scope = .ok a)
    (hfirst : first.eval scope = .ok b) (hrest : evalItems scope rest = .ok items) :
    (equalsAny needle first rest).eval scope = .ok (a.equalsOne b items).toValue :=
  eval_foldl_or hneedle (eval_equal hneedle hfirst) hrest

/-- The membership in choices that have a value. -/
theorem eval_among_eq_membership {choices : List Expr} (hneedle : needle.eval scope = .ok a)
    (hchoices : evalItems scope choices = .ok items) :
    (among needle choices).eval scope = .ok (a.membership items).toValue := by
  cases habsent : a.isAbsent with
  | true =>
    rw [eval, hneedle, Value.membership, habsent]
    simp [bind, Except.bind, pure, Except.pure, habsent, Truth.toValue]
  | false =>
    rw [eval_among hneedle habsent hchoices, Value.membership, habsent]
    cases items.any fun item => (a.equal item).isTrue <;> rfl

/-- **Membership as a disjunction.** Let a needle and a list of choices have values. Then membership
has the value of the disjunction of the equalities exactly if the needle is absent, it equals some
choice, or no choice is absent, and under the same condition their negations have one value. In any
other case membership is false and the disjunction is unknown, so that the negated membership is true
and the negated disjunction is not. The negated disjunction is true only if every equality is false;
the negated membership is true as soon as the needle is present and no equality is true. -/
theorem eval_among_spec (hneedle : needle.eval scope = .ok a)
    (hchoices : evalItems scope (first :: rest) = .ok items) :
    (∃ t : Truth, (equalsAny needle first rest).eval scope = .ok t.toValue ∧
      (t = .true ↔ ∃ item ∈ items, a.equal item = .true) ∧
      (t = .false ↔ ∀ item ∈ items, a.equal item = .false)) ∧
    ((among needle (first :: rest)).eval scope = (equalsAny needle first rest).eval scope ↔
      a.Settled items) ∧
    ((unary .not (among needle (first :: rest))).eval scope =
        (unary .not (equalsAny needle first rest)).eval scope ↔ a.Settled items) ∧
    (¬ a.Settled items →
      (among needle (first :: rest)).eval scope = .ok (.bool false) ∧
      (equalsAny needle first rest).eval scope = .ok .absent ∧
      (unary .not (among needle (first :: rest))).eval scope = .ok (.bool true) ∧
      (unary .not (equalsAny needle first rest)).eval scope = .ok .absent) ∧
    ((unary .not (equalsAny needle first rest)).test scope = .ok true ↔
      ∀ item ∈ items, a.equal item = .false) ∧
    ((unary .not (among needle (first :: rest))).test scope = .ok true ↔
      a.isAbsent = false ∧ ∀ item ∈ items, a.equal item ≠ .true) := by
  have hmember := eval_among_eq_membership hneedle hchoices
  obtain ⟨b, hfirst, hchoices⟩ := bind_eq_ok_iff.mp hchoices
  obtain ⟨values, hrest, hchoices⟩ := bind_eq_ok_iff.mp hchoices
  obtain rfl := pure_eq_ok_iff.mp hchoices
  have hdisjunction := eval_equalsAny hneedle hfirst hrest
  refine ⟨⟨_, hdisjunction, Value.equalsOne_eq_true_iff, Value.equalsOne_eq_false_iff⟩, ?_, ?_, ?_,
    ?_, ?_⟩
  · rw [hmember, hdisjunction, Except.ok.injEq, Truth.toValue_inj]
    exact Value.membership_eq_equalsOne_iff
  · rw [eval_not hmember, eval_not hdisjunction, Except.ok.injEq, Truth.toValue_inj, Truth.not_inj]
    exact Value.membership_eq_equalsOne_iff
  · intro hsettled
    rw [Value.membership_of_not_settled hsettled] at hmember
    rw [Value.equalsOne_of_not_settled hsettled] at hdisjunction
    exact ⟨hmember, hdisjunction, eval_not hmember, eval_not hdisjunction⟩
  · rw [test_not_eq_ok_true_iff hdisjunction, Value.equalsOne_eq_false_iff]
  · rw [test_not_eq_ok_true_iff hmember, Value.membership_eq_false_iff]

/-- A value that is not among the choices, one of which is absent: the negated membership is true and
the negated disjunction is unknown. If the value is among the choices, the absent one makes no
difference. -/
theorem eval_among_spec_absent_choice :
    let scope : Scope := ⟨.object [("a", .string "x")], [], .empty⟩
    let present : Expr := .property (.identifier "c") (.literal (.string "a"))
    let missing : Expr := .property (.identifier "c") (.literal (.string "b"))
    ((unary .not (among present [.literal (.string "y"), missing])).eval scope = .ok (.bool true) ∧
      (unary .not (equalsAny present (.literal (.string "y")) [missing])).eval scope = .ok .absent) ∧
    (among present [missing, .literal (.string "x")]).eval scope =
      (equalsAny present missing [.literal (.string "x")]).eval scope := by
  intro scope present missing
  constructor
  · have hneedle : present.eval scope = .ok (.string "x") := rfl
    have hchoices : evalItems scope [.literal (.string "y"), missing] =
        .ok [.string "y", .absent] := rfl
    obtain ⟨-, -, -, hopen, -⟩ := eval_among_spec hneedle hchoices
    obtain ⟨-, -, hmember, hdisjunction⟩ := hopen (by simp [Value.Settled]; decide)
    exact ⟨hmember, hdisjunction⟩
  · have hneedle : present.eval scope = .ok (.string "x") := rfl
    have hchoices : evalItems scope [missing, .literal (.string "x")] =
        .ok [.absent, .string "x"] := rfl
    exact (eval_among_spec hneedle hchoices).2.1.mpr (.inr (.inl ⟨.string "x", by simp, by decide⟩))

end Expr

end Folio
