import Folio.Proofs.Expr.Nodes
import Folio.Proofs.Query.Parsing

/-!
# Parsed literals

Arrays and objects are written as expressions, so no literal that the parser makes is an array or an
object. This holds of every reader of the grammar if it holds of the readers one nesting level
deeper.
-/

namespace Folio

namespace Expr

/-- Whether an expression is no literal array or object. -/
def isPlainNode : Expr → Bool
  | .literal v => !v.isComposite
  | _ => true

/-- No literal in the expression is an array or an object. -/
def Plain (e : Expr) : Prop := e.every isPlainNode = true

/-- A literal that is plain is no array or object. -/
theorem Plain.literal {v : Value} (h : (Expr.literal v).Plain) : v.isComposite = false := by
  simpa [isPlainNode] using (every_iff.mp h).1

/-- The children of a plain expression are plain. -/
theorem Plain.child {child e : Expr} (h : e.Plain) (hchild : child ∈ e.children) : child.Plain :=
  (every_iff.mp h).2 child hchild

end Expr

namespace Query

/-! ## The grammar -/

/-- An expression that is no literal is plain if its children are. -/
theorem plain_of_children {e : Expr} (hroot : ∀ v, e ≠ .literal v)
    (hchildren : ∀ child ∈ e.children, child.Plain) : e.Plain := by
  refine Expr.every_iff.mpr ⟨?_, hchildren⟩
  cases e with
  | literal v => exact absurd rfl (hroot v)
  | _ => rfl

/-- A literal without parts is plain. -/
theorem plain_literal {v : Value} (h : v.isComposite = false) : (Expr.literal v).Plain :=
  Expr.every_iff.mpr ⟨by simp [Expr.isPlainNode, h], by simp [Expr.children]⟩

/-- The readers one nesting level deeper read plain expressions only. -/
structure PlainInner (inner : Inner) : Prop where
  expression : Only Expr.Plain inner.expression
  negation : Only Expr.Plain inner.negation
  signed : Only Expr.Plain inner.signed

section

variable {inner : Inner}

/-- Operators join plain operands to plain expressions. -/
theorem only_chain {op? : Lexeme → Option BinaryOp} {operand : Parser Expr}
    (h : Only Expr.Plain operand) : Only Expr.Plain (chain op? operand) := by
  refine h.extended fun left ts reading step hleft hmore hstep => ?_
  split at hmore
  · cases hmore
  · obtain ⟨op, -, rfl⟩ := Option.map_eq_some_iff.mp hmore
    refine Only.of_past (h.map fun right hright => ?_) hstep
    exact plain_of_children (by simp) (by simp [Expr.children, hleft, hright])

/-- A word begins a plain expression. -/
theorem plain_of_wordExpr (hinner : PlainInner inner) {word : String} {offset : Nat}
    {rest : List Token} {step : Step Expr (rest.length + 1)}
    (h : wordExpr inner word offset rest = .ok step) : step.value.Plain := by
  have hidentifier : (Expr.identifier word).Plain :=
    plain_of_children (by simp) (by simp [Expr.children])
  unfold wordExpr at h
  split at h
  next value hvalue =>
    rw [← Except.ok.inj h]
    refine plain_literal ?_
    unfold constant? at hvalue
    split at hvalue <;> cases hvalue <;> rfl
  next =>
    split at h
    · cases h
    · split at h
      · obtain ⟨earlier, hearlier, rfl⟩ := map_eq_ok_iff.mp h
        change earlier.value.Plain
        refine Only.of_past (hinner.expression.closedList.map fun args hargs => ?_) hearlier
        exact plain_of_children (by simp) hargs
      · dsimp only at h
        split at h
        · obtain ⟨earlier, hearlier, rfl⟩ := map_eq_ok_iff.mp h
          change earlier.value.Plain
          refine Only.of_past (p := userCall inner) ?_ hearlier
          refine (only_any _).bind fun called _ => ?_
          refine (only_any _).bind fun _ _ => ?_
          exact hinner.expression.closedList.map fun args hargs =>
            plain_of_children (by simp) hargs
        · exact Except.ok.inj h ▸ hidentifier
      · exact Except.ok.inj h ▸ hidentifier

/-- Operands are plain. -/
theorem only_primary (hinner : PlainInner inner) : Only Expr.Plain (primary inner) := by
  rintro _ ⟨ts, step, hstep, rfl⟩
  unfold primary at hstep
  split at hstep
  · exact Except.ok.inj hstep ▸ plain_literal rfl
  · exact Except.ok.inj hstep ▸ plain_literal rfl
  · rw [← Except.ok.inj hstep]
    exact plain_of_children (by simp [Progress.leaving])
      (by simp [Progress.leaving, Expr.children])
  · exact hinner.expression.before.of_past hstep
  · refine Only.of_past (hinner.expression.closedList.map fun items hitems => ?_) hstep
    exact plain_of_children (by simp) hitems
  · have hentry : Only (fun entry => entry.2.Plain) (entry inner) :=
      (only_any _).bind fun key _ =>
        (only_any _).bind fun _ _ =>
          hinner.expression.map fun _ he => he
    refine Only.of_past (hentry.closedList.map fun entries hentries => ?_) hstep
    exact plain_of_children (by simp) (List.forall_mem_map.mpr hentries)
  · exact plain_of_wordExpr hinner hstep
  · cases hstep

/-- Operands with property accesses are plain. -/
theorem only_access (hinner : PlainInner inner) : Only Expr.Plain (access inner) := by
  refine (only_primary hinner).extended fun base ts reading step hbase hmore hstep => ?_
  unfold nextAccess? at hmore
  split at hmore
  · obtain rfl := Option.some.inj hmore
    refine Only.of_past ((only_any _).map fun key _ => ?_) hstep
    have hkey : (Expr.literal (.string key)).Plain := plain_literal rfl
    exact plain_of_children (by simp) (by simp [Expr.children, hbase, hkey])
  · obtain rfl := Option.some.inj hmore
    refine Only.of_past (hinner.expression.before.map fun key hkey => ?_) hstep
    exact plain_of_children (by simp) (by simp [Expr.children, hbase, hkey])
  · cases hmore

/-- Signed operands are plain. -/
theorem only_signed (hinner : PlainInner inner) : Only Expr.Plain (signed inner) := by
  rintro _ ⟨ts, step, hstep, rfl⟩
  unfold signed at hstep
  split at hstep
  · exact only_access hinner _ ⟨_, step, hstep, rfl⟩
  · split at hstep
    · exact only_access hinner _ ⟨_, step, hstep, rfl⟩
    · refine Only.of_past (hinner.signed.map fun operand hoperand => ?_) hstep
      exact plain_of_children (by simp) (by simp [Expr.children, hoperand])

/-- Bitwise disjunctions are plain. -/
theorem only_bitOr (hinner : PlainInner inner) : Only Expr.Plain (bitOr inner) :=
  only_chain (only_chain (only_chain (only_chain (only_chain (only_chain (only_signed hinner))))))

/-- The negation of a plain expression is plain. -/
theorem plain_negatedIf {negated : Bool} {e : Expr} (h : e.Plain) : (negatedIf negated e).Plain := by
  cases negated with
  | false => exact h
  | true => exact plain_of_children (by simp [negatedIf]) (by simp [negatedIf, Expr.children, h])

/-- A test compares plain expressions. -/
theorem only_testOf (hinner : PlainInner inner) {left : Expr} (hleft : left.Plain)
    (test : WordTest) : Only Expr.Plain (testOf inner left test) := by
  cases test with
  | among =>
    refine (only_any _).bind fun _ _ => ?_
    exact hinner.expression.closedList.map fun choices hchoices =>
      plain_of_children (by simp) (List.forall_mem_cons.mpr ⟨hleft, hchoices⟩)
  | between =>
    refine (only_bitOr hinner).bind fun low hlow => ?_
    refine (only_any _).bind fun _ _ => ?_
    exact (only_bitOr hinner).map fun high hhigh =>
      plain_of_children (by simp) (by simp [Expr.children, hleft, hlow, hhigh])

/-- Relations and tests are plain. -/
theorem only_relational (hinner : PlainInner inner) : Only Expr.Plain (relational inner) := by
  refine (only_bitOr hinner).extended fun left ts reading step hleft hmore hstep => ?_
  unfold nextRelation? at hmore
  split at hmore
  · cases hmore
  · split at hmore
    · obtain rfl := Option.some.inj hmore
      refine Only.of_past ((only_bitOr hinner).map fun right hright => ?_) hstep
      exact plain_of_children (by simp) (by simp [Expr.children, hleft, hright])
    · obtain ⟨words, -, rfl⟩ := Option.map_eq_some_iff.mp hmore
      obtain ⟨last, hlast, rfl⟩ := map_eq_ok_iff.mp hstep
      exact (only_testOf hinner hleft words.value.2).map (fun _ he => plain_negatedIf he) _
        ⟨_, last, hlast, rfl⟩

/-- Tests after any number of `NOT` are plain. -/
theorem only_negation (hinner : PlainInner inner) : Only Expr.Plain (negation inner) := by
  rintro _ ⟨ts, step, hstep, rfl⟩
  unfold negation at hstep
  split at hstep
  · exact only_relational hinner _ ⟨_, step, hstep, rfl⟩
  · obtain ⟨last, hlast, rfl⟩ := map_eq_ok_iff.mp hstep
    refine (hinner.negation.map fun operand hoperand => ?_) _ ⟨_, last, hlast, rfl⟩
    exact plain_of_children (by simp) (by simp [Expr.children, hoperand])

/-- Expressions of the loosest level are plain. -/
theorem only_conditional (hinner : PlainInner inner) : Only Expr.Plain (conditional inner) := by
  refine Only.bindOptional (only_chain (only_chain (only_chain (only_negation hinner))))
    fun test htest => ?_
  rintro _ ⟨ts, step, hstep, rfl⟩
  unfold branches at hstep
  split at hstep
  · obtain ⟨earlier, hearlier, rfl⟩ := map_eq_ok_iff.mp hstep
    change earlier.value.Plain
    refine Only.of_past (hinner.expression.before.bind fun consequent hconsequent =>
      hinner.expression.map fun alternate halternate => ?_) hearlier
    exact plain_of_children (by simp)
      (by simp [Expr.children, htest, hconsequent, halternate])
  · exact Except.ok.inj hstep ▸ htest

end

/-- The readers with any number of nesting levels left read plain expressions only. -/
theorem plainInner_within (levels : Nat) : PlainInner (Inner.within levels) := by
  induction levels with
  | zero =>
    constructor <;> · rintro _ ⟨ts, step, hstep, -⟩; cases hstep
  | succ levels ih =>
    exact ⟨only_conditional ih, only_negation ih, only_signed ih⟩

/-- Whole expressions are plain. -/
theorem only_expression : Only Expr.Plain expression := by
  rintro _ ⟨ts, step, hstep, rfl⟩
  obtain ⟨found, hfound, hstep⟩ := bind_eq_ok_iff.mp hstep
  split at hstep
  · cases hstep
  · rw [← pure_eq_ok_iff.mp hstep]
    exact (plainInner_within maxNesting).expression _ ⟨ts, found, hfound, rfl⟩

/-- **Parsed filters.** No literal in the filter of a parsed statement is an array or an object. -/
theorem plain_of_parse {text : String} {s : Statement} (h : parse text = .ok s) :
    ∀ filter, s.filter = some filter → filter.Plain := fun filter hfilter =>
  forall_exprs_of_parse only_expression h filter (by simp [Statement.exprs, hfilter])

end Query

end Folio
