import Folio.Proofs.Value.Order
import Folio.Proofs.Value.Parts
import Mathlib.Data.Finite.Prod
import Mathlib.Data.Set.Finite.Lattice

/-!
# Values equal to one value

Only finitely many documents are equal by content to one value. Equality looks up the keys of its
first side in its second one, so this needs that nothing is absent inside the first side; and if the
given value is the first side, that each of its keys stands for one entry.
-/

namespace Folio

/-- Numbers at one place are finitely many: they are told apart by their signs. -/
theorem Number.finite_of_rank_eq (x : Number) :
    {y : Number | y.isNaN = false ∧ y.rank = x.rank}.Finite := by
  refine Set.Finite.of_finite_image (f := fun y => (y.isFinite, y.isNegative)) (Set.toFinite _) ?_
  rintro y ⟨hy, hyrank⟩ z ⟨hz, hzrank⟩ hsame
  obtain ⟨hfinite, hsign⟩ := Prod.mk.inj hsame
  have hrank : y.rank = z.rank := hyrank.trans hzrank.symm
  clear hyrank hzrank
  cases y <;> cases z <;> simp_all only [isNaN, isFinite, isNegative, reduceCtorEq]
  obtain ⟨rfl, -⟩ := signed_inj hrank
  rfl

namespace Value

/-! ## Lists -/

section

variable {α β : Type}

/-- Lists whose members are related one by one to those of a list are finitely many if each member
of that list is related to finitely many. -/
theorem finite_forall₂ {R : α → β → Prop} {bs : List β} (h : ∀ b ∈ bs, {a | R a b}.Finite) :
    {as | List.Forall₂ R as bs}.Finite := by
  induction bs with
  | nil => simp
  | cons b bs ih =>
    obtain ⟨hfirst, hrest⟩ := List.forall_mem_cons.mp h
    refine ((hfirst.prod (ih hrest)).image fun pair => pair.1 :: pair.2).subset ?_
    rintro as has
    obtain ⟨a, others, ha, hothers, rfl⟩ := List.forall₂_cons_right_iff.mp has
    exact ⟨(a, others), ⟨ha, hothers⟩, rfl⟩

/-- Lists of one length with members from a finite set are finitely many. -/
theorem finite_lists {S : Set α} (hS : S.Finite) (bs : List β) :
    {as : List α | as.length = bs.length ∧ ∀ a ∈ as, a ∈ S}.Finite := by
  refine (finite_forall₂ (R := fun a _ => a ∈ S) fun b (_ : b ∈ bs) => hS).subset ?_
  rintro as ⟨hlength, hmem⟩
  exact List.forall₂_iff_get.mpr ⟨hlength, fun i _ _ => hmem _ (List.get_mem _ _)⟩

end

/-- Lists are equal pointwise if their members are equal one by one. -/
theorem itemsEqual_iff_forall₂ {xs ys : List Value} :
    itemsEqual xs ys = true ↔ List.Forall₂ (fun x y => x.deepEqual y = true) xs ys := by
  induction xs generalizing ys with
  | nil => cases ys <;> simp [itemsEqual]
  | cons x xs ih => cases ys <;> simp [itemsEqual, ih]

/-- Each entry has an equal value under its key if the list of entries is equal to others. -/
theorem entriesEqual_iff {xs others : List (String × Value)} : entriesEqual xs others = true ↔
    ∀ entry ∈ xs, entry.2.deepEqual ((others.lookup entry.1).getD .absent) = true := by
  induction xs with
  | nil => simp [entriesEqual]
  | cons entry xs ih => simp [entriesEqual, ih]

/-! ## Equality by content -/

/-- Finitely many values are equal to a value without parts. -/
theorem finite_deepEqual_of_plain {w : Value} (h : w.isComposite = false) :
    {v : Value | w.deepEqual v = true}.Finite := by
  cases w with
  | array items => cases h
  | object entries => cases h
  | number n =>
    refine (n.finite_of_rank_eq.image Value.number).subset fun v hequal => ?_
    cases v <;> simp_all [deepEqual, Number.equal]
  | absent =>
    refine (Set.finite_singleton Value.absent).subset fun v hequal => ?_
    cases v <;> simp_all [deepEqual]
  | null =>
    refine (Set.finite_singleton Value.null).subset fun v hequal => ?_
    cases v <;> simp_all [deepEqual]
  | bool b =>
    refine (Set.finite_singleton (Value.bool b)).subset fun v hequal => ?_
    cases v <;> simp_all [deepEqual]
  | string s =>
    refine (Set.finite_singleton (Value.string s)).subset fun v hequal => ?_
    cases v <;> simp_all [deepEqual]

/-- Entries under the keys of a list of entries, each with a value from a finite set, are finitely
many. -/
theorem finite_entries (ws : List (String × Value)) {S : Value → Set Value}
    (h : ∀ entry ∈ ws, (S entry.2).Finite) :
    {entry : String × Value | ∃ w, (entry.1, w) ∈ ws ∧ entry.2 ∈ S w}.Finite := by
  refine (ws.finite_toSet.biUnion fun entry hentry =>
    (h entry hentry).image fun v => (entry.1, v)).subset ?_
  rintro ⟨key, v⟩ ⟨w, hw, hv⟩
  exact Set.mem_biUnion (x := (key, w)) hw ⟨v, hv, rfl⟩

/-- A value that is equal to what a list of entries has under a key is equal to the value of one of
the entries with the key, unless it is absent. -/
theorem exists_mem_of_deepEqual_lookup {v : Value} {key : String} {ws : List (String × Value)}
    (hpresent : v.isAbsent = false)
    (h : v.deepEqual ((ws.lookup key).getD .absent) = true) :
    ∃ w, (key, w) ∈ ws ∧ ws.lookup key = some w ∧ v.deepEqual w = true := by
  cases hlookup : ws.lookup key with
  | none =>
    rw [hlookup] at h
    cases v <;> simp_all [deepEqual, isAbsent]
  | some w =>
    rw [hlookup] at h
    exact ⟨w, Entries.mem_of_lookup_eq_some hlookup, rfl, h⟩

/-- Finitely many complete values are equal to one value that stands on the right. -/
theorem finite_complete_deepEqual (w : Value) :
    {v : Value | v.Complete ∧ v.deepEqual w = true}.Finite := by
  induction w using induction_parts with
  | step w ih =>
    cases hplain : w.isComposite with
    | false =>
      exact (finite_deepEqual_of_plain hplain).subset fun v hv => deepEqual_symm_of_plain hplain hv.2
    | true =>
      cases w <;> simp only [isComposite, Bool.false_eq_true] at hplain
      case array ws =>
        refine ((finite_forall₂ ih).image Value.array).subset ?_
        rintro v ⟨⟨-, hparts⟩, hequal⟩
        cases v <;> simp only [deepEqual, Bool.false_eq_true] at hequal
        case array vs =>
          exact ⟨vs, (List.forall₂_and_left _ _).mpr
            ⟨hparts, itemsEqual_iff_forall₂.mp hequal⟩, rfl⟩
      case object ws =>
        have hentries := finite_entries ws (S := fun w => {v | v.Complete ∧ v.deepEqual w})
          fun entry hentry => ih entry.2 (List.mem_map_of_mem hentry)
        refine ((finite_lists hentries ws).image Value.object).subset ?_
        rintro v ⟨⟨-, hparts⟩, hequal⟩
        cases v <;> simp only [deepEqual, Bool.false_eq_true, Bool.and_eq_true, beq_iff_eq] at hequal
        case object vs =>
          refine ⟨vs, ⟨hequal.1, fun entry hentry => ?_⟩, rfl⟩
          have hcomplete : entry.2.Complete := hparts _ (List.mem_map_of_mem hentry)
          obtain ⟨w, hw, -, hfound⟩ := exists_mem_of_deepEqual_lookup hcomplete.present
            (entriesEqual_iff.mp hequal.2 entry hentry)
          exact ⟨w, hw, hcomplete, hfound⟩

/-- Entries in which each of as many keys is found have no other keys, and each key once. -/
theorem lookup_eq_some_of_keys {ws vs : List (String × Value)} (hkeys : (ws.map Prod.fst).Nodup)
    (hlength : ws.length = vs.length) (hfound : ∀ w ∈ ws, ∃ v, vs.lookup w.1 = some v)
    {entry : String × Value} (hentry : entry ∈ vs) :
    ∃ w ∈ ws, w.1 = entry.1 ∧ vs.lookup entry.1 = some entry.2 := by
  let found := ws.map fun w => (w.1, (vs.lookup w.1).getD .absent)
  have hnodup : found.Nodup := by
    refine List.Nodup.of_map Prod.fst ?_
    rwa [List.map_map]
  have hsubset : found ⊆ vs := by
    intro e he
    obtain ⟨w, hw, rfl⟩ := List.mem_map.mp he
    obtain ⟨v, hlookup⟩ := hfound w hw
    rw [hlookup]
    exact Entries.mem_of_lookup_eq_some hlookup
  -- the entries that are found are as many as there are
  have hperm : found.Perm vs :=
    (List.subperm_of_subset hnodup hsubset).perm_of_length_le (by simp [found, hlength])
  obtain ⟨w, hw, rfl⟩ := List.mem_map.mp (hperm.mem_iff.mpr hentry)
  obtain ⟨v, hlookup⟩ := hfound w hw
  exact ⟨w, hw, rfl, by simp [hlookup]⟩

/-- Finitely many values are equal to one value that stands on the left, if that one is complete and
has each key once. -/
theorem finite_deepEqual {w : Value} (hcomplete : w.Complete) (hkeyed : w.Keyed) :
    {v : Value | w.deepEqual v = true}.Finite := by
  induction w using induction_parts with
  | step w ih =>
    obtain ⟨hpresent, hparts⟩ := hcomplete
    obtain ⟨hkeys, hkeyed⟩ := hkeyed
    have hfinite (part : Value) (hpart : part ∈ w.parts) : {v | part.deepEqual v = true}.Finite :=
      ih part hpart (hparts part hpart) (hkeyed part hpart)
    cases hplain : w.isComposite with
    | false => exact finite_deepEqual_of_plain hplain
    | true =>
      cases w <;> simp only [isComposite, Bool.false_eq_true] at hplain
      case array ws =>
        refine ((finite_forall₂ hfinite).image Value.array).subset fun v hequal => ?_
        rw [Set.mem_ofPred_eq] at hequal
        cases v <;> simp only [deepEqual, Bool.false_eq_true] at hequal
        case array vs => exact ⟨vs, (itemsEqual_iff_forall₂.mp hequal).flip, rfl⟩
      case object ws =>
        have hentries := finite_entries ws (S := fun w => {v | w.deepEqual v})
          fun entry hentry => hfinite entry.2 (List.mem_map_of_mem hentry)
        refine ((finite_lists hentries ws).image Value.object).subset fun v hequal => ?_
        rw [Set.mem_ofPred_eq] at hequal
        cases v <;> simp only [deepEqual, Bool.false_eq_true, Bool.and_eq_true, beq_iff_eq] at hequal
        case object vs =>
          obtain ⟨hlength, hequal⟩ := hequal
          have hfound (w : String × Value) (hw : w ∈ ws) :
              ∃ v, vs.lookup w.1 = some v ∧ w.2.deepEqual v = true := by
            obtain ⟨v, -, hlookup, hv⟩ := exists_mem_of_deepEqual_lookup
              (hparts _ (List.mem_map_of_mem hw)).present (entriesEqual_iff.mp hequal w hw)
            exact ⟨v, hlookup, hv⟩
          refine ⟨vs, ⟨hlength.symm, fun entry hentry => ?_⟩, rfl⟩
          obtain ⟨w, hw, hkey, hlookup⟩ := lookup_eq_some_of_keys (hkeys ws rfl) hlength
            (fun w hw => (hfound w hw).imp fun _ h => h.1) hentry
          obtain ⟨v, hv, hwv⟩ := hfound w hw
          rw [hkey, hlookup] at hv
          obtain rfl := Option.some.inj hv
          exact ⟨w.2, hkey ▸ hw, hwv⟩

end Value

end Folio
