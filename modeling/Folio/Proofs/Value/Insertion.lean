import Folio.Proofs.Entries
import Folio.Value.Basic

/-!
# Inserting entries

An object into which entries are inserted one after another is an ordered map. An insertion replaces
the value under its key in place, or adds the key behind all others. So what is found under a key is
what was inserted there last, and a key stays where it was inserted first. Other values take no
entries.
-/

namespace Folio.Value

variable {v : Value} {entries : List (String × Value)}

/-- The value after entries have been inserted one after another. -/
def insertAll (v : Value) (inserted : List (String × Value)) : Value :=
  inserted.foldl (fun v entry => v.insert entry.1 entry.2) v

/-- Entries inserted into an object are set among its entries. -/
theorem insertAll_object (entries inserted : List (String × Value)) :
    (object entries).insertAll inserted =
      object (inserted.foldl (fun seen entry => Entries.set entry.1 entry.2 seen) entries) := by
  induction inserted generalizing entries with
  | nil => rfl
  | cons entry rest ih => exact ih (Entries.set entry.1 entry.2 entries)

/-- A value that is no object takes no entry. -/
theorem insert_of_kind_ne (h : v.kind ≠ .object) (key : String) (value : Value) :
    v.insert key value = v := by
  cases v with
  | object entries => exact absurd rfl h
  | _ => rfl

/-- Nothing is found in a value that is no object. -/
theorem get?_of_kind_ne (h : v.kind ≠ .object) (key : String) : v.get? key = none := by
  cases v with
  | object entries => exact absurd rfl h
  | _ => rfl

/-- A value that is no object takes no entries. -/
theorem insertAll_of_kind_ne (h : v.kind ≠ .object) (inserted : List (String × Value)) :
    v.insertAll inserted = v :=
  List.foldl_fixed' (fun entry => insert_of_kind_ne h entry.1 entry.2) inserted

/-- Under a key is found what was inserted there last, or else what was there before. -/
theorem get?_insertAll_eq_some_iff (hkeys : (entries.map Prod.fst).Nodup)
    {inserted : List (String × Value)} {key : String} {value : Value} :
    ((object entries).insertAll inserted).get? key = some value ↔
      (∃ before after, inserted = before ++ (key, value) :: after ∧ key ∉ after.map Prod.fst) ∨
      key ∉ inserted.map Prod.fst ∧ (key, value) ∈ entries := by
  rw [insertAll_object, get?, Entries.lookup_foldl_set, Option.or_eq_some_iff,
    Entries.lookup_reverse_eq_some_iff, Entries.lookup_eq_none_iff_notMem, List.map_reverse,
    List.mem_reverse, Entries.lookup_eq_some_iff_mem hkeys]

/-- **Objects are ordered maps.** Entries are inserted one after another.

* An object without a repeated key stays one. Under a key is found the value that was inserted there
  last, or the value that was there before if none was inserted, and nothing else.
* The keys of the object stay in their places. Behind them are the new keys, in the order in which they
  were inserted first. So the keys after some of the insertions are the first keys after all of them.
* Any other value stays as it is, and nothing is found in it. -/
theorem insertAll_spec (inserted : List (String × Value)) :
    (∀ entries : List (String × Value), (entries.map Prod.fst).Nodup →
      ∃ all, (object entries).insertAll inserted = object all ∧
        (all.map Prod.fst).Nodup ∧
        (∀ key value, (object all).get? key = some value ↔
          (∃ before after, inserted = before ++ (key, value) :: after ∧
            key ∉ after.map Prod.fst) ∨
          key ∉ inserted.map Prod.fst ∧ (key, value) ∈ entries) ∧
        all.map Prod.fst = entries.map Prod.fst ++
          ((inserted.map Prod.fst).filter (· ∉ entries.map Prod.fst)).eraseDups ∧
        ∀ before after, inserted = before ++ after →
          ∃ earlier, (object entries).insertAll before = object earlier ∧
            earlier.map Prod.fst <+: all.map Prod.fst) ∧
    ∀ v : Value, v.kind ≠ .object →
      v.insertAll inserted = v ∧ ∀ key, (v.insertAll inserted).get? key = none := by
  constructor
  · intro entries hkeys
    refine ⟨_, insertAll_object entries inserted, Entries.nodup_keys_foldl_set hkeys,
      fun key value => ?_, Entries.map_fst_foldl_set entries, ?_⟩
    · rw [← insertAll_object]
      exact get?_insertAll_eq_some_iff hkeys
    · rintro before after rfl
      refine ⟨_, insertAll_object entries before, ?_⟩
      rw [List.foldl_append, Entries.map_fst_foldl_set (List.foldl _ entries before)]
      exact List.prefix_append _ _
  · intro v hkind
    rw [insertAll_of_kind_ne hkind]
    exact ⟨rfl, get?_of_kind_ne hkind⟩

/-- Two insertions of a new key and one of a key that is there leave three entries: the old keys first,
under each key the value of its last insertion, and under the key without one what was there. Under a
key that was neither there nor inserted nothing is found. Null takes no entry. -/
theorem insertAll_spec_replaced_and_added :
    let old : List (String × Value) := [("a", .bool false), ("b", .null)]
    let inserted : List (String × Value) := [("c", .null), ("a", .string "x"), ("c", .bool true)]
    (old.map Prod.fst).Nodup ∧
    (∃ all, (object old).insertAll inserted = object all ∧ all.map Prod.fst = ["a", "b", "c"] ∧
      (object all).get? "a" = some (.string "x") ∧ (object all).get? "b" = some .null ∧
      (object all).get? "c" = some (.bool true) ∧ (object all).get? "d" = none ∧
      ∃ earlier, (object old).insertAll [("c", .null)] = object earlier ∧
        earlier.map Prod.fst <+: all.map Prod.fst) ∧
    null.kind ≠ .object ∧ null.insertAll inserted = .null ∧
      (null.insertAll inserted).get? "c" = none := by
  intro old inserted
  have hkeys : (old.map Prod.fst).Nodup := by decide
  obtain ⟨hobject, hother⟩ := insertAll_spec inserted
  obtain ⟨all, hall, -, hget, hplaces, hstages⟩ := hobject old hkeys
  obtain ⟨hsame, hnothing⟩ := hother .null (by decide)
  refine ⟨hkeys, ⟨all, hall, hplaces, ?_, ?_, ?_, ?_, ?_⟩, by decide, hsame, hnothing "c"⟩
  · exact (hget "a" _).mpr (.inl ⟨inserted.take 1, inserted.drop 2, rfl, by decide⟩)
  · exact (hget "b" _).mpr (.inr ⟨by decide, by simp [old]⟩)
  · exact (hget "c" _).mpr (.inl ⟨inserted.take 2, [], rfl, by decide⟩)
  · refine Option.eq_none_iff_forall_ne_some.mpr fun value hfound => ?_
    rcases (hget "d" value).mp hfound with ⟨before, after, hsplit, -⟩ | ⟨-, hentry⟩
    · have hkey : "d" ∈ inserted.map Prod.fst := by
        rw [hsplit]
        simp
      exact absurd hkey (by decide)
    · have hkey : "d" ∈ old.map Prod.fst := List.mem_map_of_mem hentry
      exact absurd hkey (by decide)
  · exact hstages [("c", .null)] (inserted.drop 1) rfl

end Folio.Value
