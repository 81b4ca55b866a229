import Folio.Proofs.Expr.Keyed
import Folio.Proofs.Query.Scoping
import Folio.Proofs.Text.Numeral
import Folio.Query.Execution

/-!
# Columns

The fields of a selection are named by their items: by the name that an item has of itself, and by a
running number if it has none. Items are named one by one, so two of them may get one name. A row has
a column for each item whose value is not absent. The object that is emitted keeps every column in its
place exactly if no two of them have one name; of columns with one name it keeps the last.
-/

namespace Folio

namespace SelectItem

variable {items : List SelectItem}

/-! ## Names -/

/-- The names of the fields of items. -/
def names (items : List SelectItem) : List String := (named 0 items).map Prod.fst

/-- The names that items have of themselves. -/
def ownNames (items : List SelectItem) : List String := items.filterMap ownName?

/-- The number of items without a name of their own. -/
def unnamed (items : List SelectItem) : Nat := items.countP fun item => item.ownName?.isNone

/-- The running number of an unnamed item, which counts the unnamed ones before it. -/
def runningName (count : Nat) : String := "$" ++ toString (count + 1)

/-- Different running numbers are different names. -/
theorem runningName_inj {j k : Nat} : runningName j = runningName k ↔ j = k := by
  refine ⟨fun h => ?_, congrArg runningName⟩
  have htext : toString (j + 1) = toString (k + 1) := (String.append_right_inj "$").mp h
  have hj : IsNumeral (toString (j + 1)) (j + 1 : Nat) := isNumeral_toString _
  have hk : IsNumeral (toString (k + 1)) (k + 1 : Nat) := isNumeral_toString _
  rw [htext] at hj
  have hsame := hj.unique hk
  omega

/-- The first item is named by its own name or by the running number. -/
theorem named_cons (count : Nat) (item : SelectItem) (rest : List SelectItem) :
    named count (item :: rest) =
      match item.ownName? with
      | some name => (name, item.expr) :: named count rest
      | none => (runningName count, item.expr) :: named (count + 1) rest := by
  rw [named]
  rfl

/-- An item has its own name, or the running number of the unnamed items before it. -/
theorem getElem?_named (count : Nat) (items : List SelectItem) (i : Nat) :
    ((named count items).map Prod.fst)[i]? = items[i]?.map fun item =>
      item.ownName?.getD (runningName (count + unnamed (items.take i))) := by
  induction items generalizing count i with
  | nil => rfl
  | cons item rest ih =>
    rw [named_cons]
    cases i with
    | zero => cases hname : item.ownName? <;> simp [unnamed, hname]
    | succ i =>
      cases hname : item.ownName? with
      | some name => simp [ih, unnamed, hname]
      | none => simp [ih, unnamed, hname, Nat.add_assoc, Nat.add_comm 1]

/-- The names of items are their own names and running numbers, in some order. -/
theorem map_fst_named_perm (count : Nat) (items : List SelectItem) :
    ((named count items).map Prod.fst).Perm
      (ownNames items ++ (List.range' count (unnamed items)).map runningName) := by
  -- The count is general, since an unnamed item takes the first number and leaves the next ones.
  induction items generalizing count with
  | nil => exact .rfl
  | cons item rest ih =>
    rw [named_cons]
    cases hname : item.ownName? with
    | some name =>
      simpa [ownNames, unnamed, hname] using ih count
    | none =>
      have hrest := ((ih (count + 1)).cons (runningName count)).trans List.perm_middle.symm
      simpa [ownNames, unnamed, hname, List.range'_succ] using hrest

/-- **Different names.** The names of items are different exactly if their own names are, and none of
these is a running number that is in use. -/
theorem nodup_names_iff : (names items).Nodup ↔
    (ownNames items).Nodup ∧ ∀ count < unnamed items, runningName count ∉ ownNames items := by
  have hrunning : ((List.range' 0 (unnamed items)).map runningName).Nodup :=
    (List.nodup_range' 1).map fun _ _ h => runningName_inj.mp h
  rw [names, (map_fst_named_perm 0 items).nodup_iff, List.nodup_append]
  constructor
  · rintro ⟨hown, -, hapart⟩
    refine ⟨hown, fun count hcount hmem => hapart _ hmem _ ?_ rfl⟩
    exact List.mem_map_of_mem (List.mem_range'_1.mpr ⟨Nat.zero_le _, by omega⟩)
  · rintro ⟨hown, hfree⟩
    refine ⟨hown, hrunning, fun name hname other hother hsame => ?_⟩
    obtain ⟨count, hcount, rfl⟩ := List.mem_map.mp hother
    have hlt := (List.mem_range'_1.mp hcount).2
    exact hfree count (by omega) (hsame ▸ hname)

end SelectItem

/-! ## Columns -/

namespace Value

/-- The columns of a row with these names and values: for each value that is not absent, its name and
what it is emitted as. -/
def columns (names : List String) (values : List Value) : List (String × Json) :=
  (names.zip values).filterMap fun column => column.2.emitted.map (column.1, ·)

/-- Columns are named in the order of the names. -/
theorem map_fst_columns_sublist (names : List String) (values : List Value) :
    ((columns names values).map Prod.fst).Sublist names := by
  induction names generalizing values with
  | nil => exact List.Sublist.slnil
  | cons name names ih =>
    cases values with
    | nil => exact List.nil_sublist _
    | cons v values =>
      rw [columns, List.zip_cons_cons, List.filterMap_cons]
      cases v.emitted with
      | none => exact (ih values).cons name
      | some json => exact (ih values).cons_cons name

/-- An object is emitted with the columns of its keys and values, set one after another. -/
theorem emitted_zip (names : List String) (values : List Value) :
    (object (names.zip values)).emitted =
      some (.object (Entries.ofList (columns names values))) := by
  rw [columns, ← toJsonEntries_cleanEntries]
  rfl

end Value

/-- Entries whose expressions have values are evaluated to their keys with these values. -/
theorem Expr.evalEntries_of_evalItems {scope : Scope} {entries : List (String × Expr)}
    {values : List Value} (h : evalItems scope (entries.map Prod.snd) = .ok values) :
    evalEntries scope entries = .ok ((entries.map Prod.fst).zip values) := by
  induction entries generalizing values with
  | nil => rfl
  | cons entry rest ih =>
    obtain ⟨v, hv, h⟩ := bind_eq_ok_iff.mp h
    obtain ⟨others, hothers, h⟩ := bind_eq_ok_iff.mp h
    obtain rfl := pure_eq_ok_iff.mp h
    rw [evalEntries, hv, ih hothers]
    rfl

open SelectItem in
/-- **Columns.** Let a statement that selects items compile, and let its items have values in a scope.
The row is then an object in which each item has its value under its name, which is its own name or
else the running number of the unnamed items before it. What is emitted for the row are all its
columns, in the order of the items, exactly if no two columns have one name, and in particular if no
two items do; in any case it is the last column with a name that is found there. No two items have
one name exactly if no two of their own names are the same and none of these is a running number
that is in use. -/
theorem Statement.columns_spec {s : Statement} {items : List SelectItem} {p : Procedure}
    {scope : Scope} {values : List Value} (hselection : s.selection = .items items)
    (hcompile : s.compile = .ok p)
    (hvalues : Expr.evalItems scope (items.map SelectItem.expr) = .ok values) :
    p.projection.apply scope = .ok (.object ((names items).zip values)) ∧
    (∀ i : Nat, (names items)[i]? = items[i]?.map fun item =>
      item.ownName?.getD (runningName (unnamed (items.take i)))) ∧
    ((names items).Nodup ↔
      (ownNames items).Nodup ∧ ∀ count < unnamed items, runningName count ∉ ownNames items) ∧
    ∃ fields, (Value.object ((names items).zip values)).emitted = some (.object fields) ∧
      (fields = Value.columns (names items) values ↔
        ((Value.columns (names items) values).map Prod.fst).Nodup) ∧
      ((names items).Nodup → fields = Value.columns (names items) values) ∧
      ∀ name, fields.lookup name = (Value.columns (names items) values).reverse.lookup name := by
  have hprojection : p.projection = .fields (named 0 items) := by
    rw [(carries_of_compile hcompile).projection, hselection]
    rfl
  have hrow : p.projection.apply scope = .ok (.object ((names items).zip values)) := by
    rw [← Selection.map_snd_named 0 items] at hvalues
    rw [hprojection, Projection.apply, Expr.evalEntries_of_evalItems hvalues]
    rfl
  refine ⟨hrow, fun i => ?_, nodup_names_iff, _, Value.emitted_zip (names items) values,
    Entries.ofList_eq_self_iff, fun hnames => ?_, fun name => Entries.lookup_ofList name⟩
  · simpa only [names, Nat.zero_add] using getElem?_named 0 items i
  · exact Entries.ofList_eq_self_iff.mpr (hnames.sublist (Value.map_fst_columns_sublist _ values))

/-- A path and a constant have the columns `a` and `$1`. With the name `$1` for the path both columns
are `$1`, and only the constant is emitted. -/
theorem Statement.columns_spec_running_number_given :
    let path : Expr := .property (.identifier "c") (.literal (.string "a"))
    let selected (given : Option String) : List SelectItem :=
      [⟨path, given⟩, ⟨.literal (.bool true), none⟩]
    let select (given : Option String) : Statement :=
      ⟨none, .items (selected given), "c", none, none, []⟩
    let scope : Scope := ⟨.object [("a", .string "x")], [], .empty⟩
    (∃ p, (select none).compile = .ok p ∧
      p.projection.apply scope = .ok (.object [("a", .string "x"), ("$1", .bool true)]) ∧
      (Value.object [("a", .string "x"), ("$1", .bool true)]).emitted =
        some (.object [("a", .string "x"), ("$1", .bool true)])) ∧
    ∃ p fields, (select (some "$1")).compile = .ok p ∧
      p.projection.apply scope = .ok (.object [("$1", .string "x"), ("$1", .bool true)]) ∧
      (Value.object [("$1", .string "x"), ("$1", .bool true)]).emitted = some (.object fields) ∧
      fields ≠ [("$1", .string "x"), ("$1", .bool true)] ∧
      fields.lookup "$1" = some (.bool true) := by
  intro path selected select scope
  have hvalues (given : Option String) :
      Expr.evalItems scope ((selected given).map SelectItem.expr) =
        .ok [.string "x", .bool true] := rfl
  constructor
  · obtain ⟨hrow, -, -, fields, hemitted, -, hkept, -⟩ :=
      columns_spec (s := select none) rfl rfl (hvalues none)
    rw [hkept (by decide)] at hemitted
    exact ⟨_, rfl, hrow, hemitted⟩
  · obtain ⟨hrow, -, -, fields, hemitted, hlost, -, hlast⟩ :=
      columns_spec (s := select (some "$1")) rfl rfl (hvalues (some "$1"))
    exact ⟨_, fields, rfl, hrow, hemitted, fun hkept => absurd (hlost.mp hkept) (by decide),
      hlast "$1"⟩

end Folio
