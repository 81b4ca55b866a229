import Folio.Proofs.Expr.Names

/-!
# Nodes of expressions

A test of all nodes is a test of the root and of all nodes of each child. The height is one more than
that of the tallest child, and the traversal with a stack finds it.
-/

namespace Folio.Expr

/-! ## Tests of all nodes -/

mutual

/-- Whether every node of an expression passes a test. -/
def every (p : Expr → Bool) : Expr → Bool
  | .literal v => p (.literal v)
  | .parameter name => p (.parameter name)
  | .identifier name => p (.identifier name)
  | .property base key => p (.property base key) && every p base && every p key
  | .array items => p (.array items) && everyItem p items
  | .object entries => p (.object entries) && everyEntry p entries
  | .unary op operand => p (.unary op operand) && every p operand
  | .binary op left right => p (.binary op left right) && every p left && every p right
  | .conditional test consequent alternate =>
    p (.conditional test consequent alternate) && every p test && every p consequent &&
      every p alternate
  | .among needle choices => p (.among needle choices) && every p needle && everyItem p choices
  | .between value low high => p (.between value low high) && every p value && every p low &&
      every p high
  | .call name args => p (.call name args) && everyItem p args
  | .userCall name args => p (.userCall name args) && everyItem p args

/-- Whether every node of each expression of a list passes a test. -/
def everyItem (p : Expr → Bool) : List Expr → Bool
  | [] => true
  | item :: rest => every p item && everyItem p rest

/-- Whether every node of the value of each entry passes a test. -/
def everyEntry (p : Expr → Bool) : List (String × Expr) → Bool
  | [] => true
  | (_, item) :: rest => every p item && everyEntry p rest

end

variable {p : Expr → Bool} {e : Expr}

/-- A test of the nodes of a list is one of each of its expressions. -/
theorem everyItem_iff {items : List Expr} :
    everyItem p items = true ↔ ∀ item ∈ items, item.every p = true := by
  induction items with
  | nil => simp [everyItem]
  | cons item rest ih => simp [everyItem, ih]

/-- A test of the nodes of entries is one of those of their values. -/
theorem everyEntry_eq {entries : List (String × Expr)} :
    everyEntry p entries = everyItem p (entries.map Prod.snd) := by
  induction entries with
  | nil => rfl
  | cons entry rest ih => simp [everyEntry, everyItem, ih]

/-- All nodes pass a test if the root does and all nodes of each child do. -/
theorem every_iff : e.every p = true ↔ p e = true ∧ ∀ child ∈ e.children, child.every p = true := by
  cases e <;> simp [every, children, everyEntry_eq, everyItem_iff, and_assoc]

/-! ## Height -/

/-- The values of entries are as tall as a list of them. -/
theorem heightEntries_eq (entries : List (String × Expr)) :
    heightEntries entries = heightItems (entries.map Prod.snd) := by
  induction entries with
  | nil => rfl
  | cons entry rest ih => simp [heightEntries, heightItems, ih]

/-- An expression is one taller than its tallest child. -/
theorem height_eq (e : Expr) : e.height = 1 + heightItems e.children := by
  cases e <;> simp [height, children, heightItems, heightEntries_eq]

/-- A list is as tall as its tallest expression. -/
theorem heightItems_le_iff {items : List Expr} {n : Nat} :
    heightItems items ≤ n ↔ ∀ item ∈ items, item.height ≤ n := by
  induction items with
  | nil => simp [heightItems]
  | cons item rest ih => rw [heightItems, Nat.max_le, ih, List.forall_mem_cons]

/-- The traversal stays within a bound if what was found does and each pending subtree does, from its
depth on. -/
theorem deepest_le_iff {found n : Nat} {pending : List (Expr × Nat)} : deepest found pending ≤ n ↔
    found ≤ n ∧ ∀ subtree ∈ pending, subtree.1.height + subtree.2 ≤ n + 1 := by
  fun_induction deepest found pending with
  | case1 found => simp
  | case2 found e depth rest ih =>
    -- the subtree stays within the bound if its root does and each child does from one level deeper
    have hchildren : e.height + depth ≤ n + 1 ↔
        depth ≤ n ∧ ∀ child ∈ e.children, child.height + (depth + 1) ≤ n + 1 := by
      rw [height_eq]
      constructor
      · intro h
        refine ⟨by omega, fun child hchild => ?_⟩
        have := heightItems_le_iff.mp (Nat.le_refl (heightItems e.children)) child hchild
        omega
      · rintro ⟨hdepth, hchildren⟩
        have := heightItems_le_iff (n := n - depth).mpr fun child hchild => by
          have := hchildren child hchild
          omega
        omega
    rw [ih, List.forall_mem_cons, hchildren]
    simp only [List.forall_mem_append, List.forall_mem_map, Nat.max_le]
    constructor
    · rintro ⟨⟨hfound, hdepth⟩, hsubtrees, hrest⟩
      exact ⟨hfound, ⟨hdepth, hsubtrees⟩, hrest⟩
    · rintro ⟨hfound, ⟨hdepth, hsubtrees⟩, hrest⟩
      exact ⟨⟨hfound, hdepth⟩, hsubtrees, hrest⟩

/-- The traversal with a stack finds the height. -/
theorem depth_eq_height (e : Expr) : e.depth = e.height := by
  have hbound (n : Nat) : e.depth ≤ n ↔ e.height ≤ n := by
    simp [depth, deepest_le_iff]
  exact Nat.le_antisymm ((hbound _).mpr (Nat.le_refl _)) ((hbound _).mp (Nat.le_refl _))

end Folio.Expr
