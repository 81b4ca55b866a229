import Folio.Expr.Resolution
import Folio.Proofs.Sequence

/-!
# Names in expressions

Names resolve in an expression if the name at its root does and they resolve in each of its
children. A fact about all expressions is proved by induction on the children.
-/

namespace Folio

/-- The code of an error that the resolution of names ends with. -/
def QueryError.IsNameFault (e : QueryError) : Prop :=
  e.code = .unresolvedIdentifier ∨ e.code = .unknownFunction

namespace Expr

/-! ## Children -/

/-- An expression of a list has no more nodes than the list. -/
theorem size_le_sizeItems {item : Expr} {items : List Expr} (h : item ∈ items) :
    item.size ≤ sizeItems items := by
  induction items with
  | nil => cases h
  | cons first rest ih =>
    rw [sizeItems]
    rcases List.mem_cons.mp h with rfl | hrest
    · exact Nat.le_add_right _ _
    · exact Nat.le_trans (ih hrest) (Nat.le_add_left _ _)

/-- A child has fewer nodes than its parent. -/
theorem size_lt_of_mem_children {child e : Expr} (h : child ∈ e.children) : child.size < e.size := by
  have hchild := size_le_sizeItems h
  rw [size_eq e]
  omega

/-- What holds of an expression as soon as it holds of its children holds of every expression. -/
theorem induction_children {P : Expr → Prop} (step : ∀ e, (∀ child ∈ e.children, P child) → P e)
    (e : Expr) : P e := by
  induction hsize : e.size using Nat.strongRecOn generalizing e with
  | ind size ih =>
    refine step e fun child hchild => ih child.size ?_ child rfl
    rw [← hsize]
    exact size_lt_of_mem_children hchild

/-! ## Resolution -/

/-- The names in an expression resolve, with `binding` as the name of the document. -/
def Resolved (binding : String) (e : Expr) : Prop := e.resolveNames binding = .ok ()

/-- Whether the name at the root of an expression resolves. -/
def resolveRoot (binding : String) : Expr → Except QueryError Unit
  | .identifier name => if name = binding then .ok () else .error (.unresolvedIdentifier name)
  | .call name args => resolveCall name args.length
  | _ => .ok ()

variable {binding : String} {e : Expr} {items : List Expr} {err : QueryError}

/-- The names in entries are those in their values. -/
theorem resolveEntries_eq (binding : String) (entries : List (String × Expr)) :
    resolveEntries binding entries = resolveItems binding (entries.map Prod.snd) := by
  induction entries with
  | nil => rfl
  | cons entry rest ih =>
    rw [resolveEntries, ih]
    rfl

/-- The name at the root is resolved first, then those in the children from left to right. -/
theorem resolveNames_eq (binding : String) (e : Expr) :
    e.resolveNames binding = e.resolveRoot binding >>= fun _ => resolveItems binding e.children := by
  have hlast (x : Except QueryError Unit) : (x >>= fun _ => .ok ()) = x := by cases x <;> rfl
  cases e with
  | identifier name => exact (hlast _).symm
  | object entries => exact resolveEntries_eq binding entries
  | _ => simp only [resolveNames, resolveRoot, children, resolveItems, hlast] <;> rfl

/-- Names resolve in a list if they do in each of its expressions. -/
theorem resolveItems_eq_ok_iff :
    resolveItems binding items = .ok () ↔ ∀ item ∈ items, item.Resolved binding := by
  induction items with
  | nil => simp [resolveItems]
  | cons item rest ih =>
    rw [resolveItems, bind_eq_ok_iff, ih, List.forall_mem_cons]
    exact ⟨fun ⟨_, hitem, hrest⟩ => ⟨hitem, hrest⟩, fun ⟨hitem, hrest⟩ => ⟨(), hitem, hrest⟩⟩

/-- A name that does not resolve in a list does not in one of its expressions. -/
theorem exists_of_resolveItems_eq_error (h : resolveItems binding items = .error err) :
    ∃ item ∈ items, item.resolveNames binding = .error err := by
  induction items with
  | nil => cases h
  | cons item rest ih =>
    rcases bind_eq_error_iff.mp h with hitem | ⟨_, -, hrest⟩
    · exact ⟨item, List.mem_cons_self, hitem⟩
    · obtain ⟨other, hother, hfails⟩ := ih hrest
      exact ⟨other, List.mem_cons_of_mem item hother, hfails⟩

/-- **Resolved names.** Names resolve in an expression if the one at its root does and they do in
each child. -/
theorem resolved_iff : e.Resolved binding ↔
    e.resolveRoot binding = .ok () ∧ ∀ child ∈ e.children, child.Resolved binding := by
  rw [Resolved, resolveNames_eq, bind_eq_ok_iff, ← resolveItems_eq_ok_iff]
  exact ⟨fun ⟨_, hroot, hchildren⟩ => ⟨hroot, hchildren⟩,
    fun ⟨hroot, hchildren⟩ => ⟨(), hroot, hchildren⟩⟩

/-- A call whose name resolves is of a built-in function. -/
theorem exists_builtin_of_resolved {name : String} {args : List Expr}
    (h : (Expr.call name args).Resolved binding) : ∃ f, Builtin.ofName? name = some f := by
  have hroot : resolveCall name args.length = .ok () := (resolved_iff.mp h).1
  unfold resolveCall at hroot
  cases hname : Builtin.ofName? name with
  | none =>
    rw [hname] at hroot
    cases hroot
  | some f => exact ⟨f, rfl⟩

/-- The root is refused for its name, or for a number of arguments that its function does not
take. -/
theorem isNameFault_of_resolveRoot (h : e.resolveRoot binding = .error err) : err.IsNameFault := by
  unfold resolveRoot at h
  split at h
  · split at h
    · cases h
    · rw [← Except.error.inj h]
      exact Or.inl rfl
  · unfold resolveCall at h
    split at h
    · split at h
      · cases h
      · rw [← Except.error.inj h]
        exact Or.inr rfl
    · rw [← Except.error.inj h]
      exact Or.inr rfl
  · cases h

/-- **Unresolved names.** The resolution of names fails for a name only. -/
theorem isNameFault_of_resolveNames (h : e.resolveNames binding = .error err) :
    err.IsNameFault := by
  induction e using induction_children with
  | step e ih =>
    rw [resolveNames_eq] at h
    rcases bind_eq_error_iff.mp h with hroot | ⟨_, -, hchildren⟩
    · exact isNameFault_of_resolveRoot hroot
    · obtain ⟨child, hchild, hfails⟩ := exists_of_resolveItems_eq_error hchildren
      exact ih child hchild hfails

end Expr

end Folio
