import Folio.Entries
import Mathlib.Data.List.Nodup

/-!
# Looking up entries

Setting an entry changes what is found under its key and nothing else. So of entries that are set one
after another the last one under a key is found, no key occurs twice, and each new key has its place
behind those that were set before it.
-/

namespace Folio.Entries

variable {α : Type} {key : String} {value : α} {entries : List (String × α)}

/-- Under the key of the first entry its value is found, under other keys what is found in the
rest. -/
theorem lookup_cons_eq (entry : String × α) (rest : List (String × α)) (k : String) :
    (entry :: rest).lookup k = if k = entry.1 then some entry.2 else rest.lookup k := by
  by_cases hk : k = entry.1
  · rw [List.lookup_cons, if_pos hk, beq_iff_eq.mpr hk]
  · rw [List.lookup_cons, if_neg hk, beq_false_of_ne hk]

/-- The value of an entry is smaller than the entries. -/
theorem sizeOf_lt_of_mem_map_snd [SizeOf α] (h : value ∈ entries.map Prod.snd) :
    sizeOf value < sizeOf entries := by
  obtain ⟨⟨key, value⟩, hentry, rfl⟩ := List.mem_map.mp h
  have hlt := List.sizeOf_lt_of_mem hentry
  simp only [Prod.mk.sizeOf_spec] at hlt ⊢
  omega

/-- A value that is found under a key is that of an entry with the key. -/
theorem mem_of_lookup_eq_some (h : entries.lookup key = some value) : (key, value) ∈ entries := by
  obtain ⟨front, rest, rfl, -⟩ := List.lookup_eq_some_iff.mp h
  exact List.mem_append_right front List.mem_cons_self

/-- Nothing is found under a key exactly if no entry has it. -/
theorem lookup_eq_none_iff_notMem : entries.lookup key = none ↔ key ∉ entries.map Prod.fst := by
  rw [List.lookup_eq_none_iff, List.mem_map, not_exists]
  refine forall_congr' fun entry => ?_
  rw [bne_iff_ne, not_and, ne_comm]

/-- The last value under a key is that of an entry with the key that no other one follows. -/
theorem lookup_reverse_eq_some_iff : entries.reverse.lookup key = some value ↔
    ∃ before after, entries = before ++ (key, value) :: after ∧ key ∉ after.map Prod.fst := by
  rw [List.lookup_eq_some_iff]
  constructor
  · rintro ⟨front, rest, heq, hfront⟩
    refine ⟨rest.reverse, front.reverse, by simpa using congrArg List.reverse heq, fun hmem => ?_⟩
    obtain ⟨entry, hentry, rfl⟩ := List.mem_map.mp hmem
    exact bne_iff_ne.mp (hfront entry (List.mem_reverse.mp hentry)) rfl
  · rintro ⟨before, after, rfl, hafter⟩
    refine ⟨after.reverse, before.reverse, by simp, fun entry hentry => bne_iff_ne.mpr ?_⟩
    rintro rfl
    exact hafter (List.mem_map_of_mem (List.mem_reverse.mp hentry))

/-- Where keys are not repeated, an entry is found under its key. -/
theorem lookup_of_mem (hkeys : (entries.map Prod.fst).Nodup) (h : (key, value) ∈ entries) :
    entries.lookup key = some value := by
  obtain ⟨front, rest, rfl⟩ := List.append_of_mem h
  rw [List.map_append, List.map_cons] at hkeys
  obtain ⟨-, -, hapart⟩ := List.nodup_append.mp hkeys
  refine List.lookup_eq_some_iff.mpr ⟨front, rest, rfl, fun entry hentry => ?_⟩
  have hne : entry.1 ≠ key := hapart _ (List.mem_map_of_mem hentry) _ List.mem_cons_self
  exact bne_iff_ne.mpr hne.symm

/-- Where keys are not repeated, what is found under the keys is what the entries are. -/
theorem lookup_eq_some_iff_mem (hkeys : (entries.map Prod.fst).Nodup) :
    entries.lookup key = some value ↔ (key, value) ∈ entries :=
  ⟨mem_of_lookup_eq_some, lookup_of_mem hkeys⟩

/-- Under the key of the entry that is set its value is found, under other keys what was found
before. -/
theorem lookup_set (k : String) : (set key value entries).lookup k =
    if k = key then some value else entries.lookup k := by
  induction entries with
  | nil => exact lookup_cons_eq (key, value) [] k
  | cons entry rest ih =>
    obtain ⟨first, v⟩ := entry
    rw [set]
    split
    next hfirst =>
      subst hfirst
      rw [lookup_cons_eq, lookup_cons_eq]
      split <;> rfl
    next hfirst =>
      rw [lookup_cons_eq, lookup_cons_eq, ih]
      by_cases hk : k = key
      · have hne : k ≠ first := fun h => hfirst (h.symm.trans hk)
        rw [if_neg hne, if_pos hk, if_pos hk]
      · rw [if_neg hk, if_neg hk]

/-- Setting an entry keeps the keys, or adds the key of the entry behind them. -/
theorem map_fst_set : (set key value entries).map Prod.fst =
    if key ∈ entries.map Prod.fst then entries.map Prod.fst else entries.map Prod.fst ++ [key] := by
  induction entries with
  | nil => rfl
  | cons entry rest ih =>
    obtain ⟨first, v⟩ := entry
    rw [set]
    split
    next hfirst => simp [hfirst]
    next hfirst =>
      have hmem : key ∈ first :: rest.map Prod.fst ↔ key ∈ rest.map Prod.fst := by
        rw [List.mem_cons, or_iff_right (Ne.symm hfirst)]
      rw [List.map_cons, List.map_cons, ih, if_congr hmem rfl rfl]
      split <;> rfl

/-- Setting an entry repeats no key. -/
theorem nodup_keys_set (h : (entries.map Prod.fst).Nodup) :
    ((set key value entries).map Prod.fst).Nodup := by
  rw [map_fst_set]
  split
  next => exact h
  next hnew =>
    refine List.nodup_append.mpr ⟨h, List.nodup_singleton key, fun k hk other hother => ?_⟩
    rw [List.mem_singleton.mp hother]
    exact fun heq => hnew (heq ▸ hk)

/-- Of entries set one after another, on top of others, the last one under a key is found. -/
theorem lookup_foldl_set (seen : List (String × α)) (k : String) :
    (entries.foldl (fun seen entry => set entry.1 entry.2 seen) seen).lookup k =
      (entries.reverse.lookup k).or (seen.lookup k) := by
  induction entries generalizing seen with
  | nil => rfl
  | cons entry rest ih =>
    rw [List.foldl_cons, ih, lookup_set, List.reverse_cons, List.lookup_append, Option.or_assoc,
      lookup_cons_eq, List.lookup_nil]
    split <;> rfl

/-- **Last entries.** Of entries set one after another the last one under a key is found. -/
theorem lookup_ofList (k : String) : (ofList entries).lookup k = entries.reverse.lookup k := by
  rw [ofList, lookup_foldl_set, List.lookup_nil, Option.or_none]

/-- Entries set one after another, on top of others without a repeated key, repeat no key. -/
theorem nodup_keys_foldl_set {seen : List (String × α)} (h : (seen.map Prod.fst).Nodup) :
    ((entries.foldl (fun seen entry => set entry.1 entry.2 seen) seen).map Prod.fst).Nodup :=
  List.foldlRecOn (motive := fun seen : List (String × α) => (seen.map Prod.fst).Nodup) entries _ h
    fun _ hseen _ _ => nodup_keys_set hseen

/-- **Keys.** Entries set one after another repeat no key. -/
theorem nodup_keys_ofList : ((ofList entries).map Prod.fst).Nodup :=
  nodup_keys_foldl_set List.nodup_nil

/-- **Places.** Entries set one after another, on top of others, leave the keys of those in their
places. Behind them are the new keys, in the order in which they are set for the first time. -/
theorem map_fst_foldl_set (seen : List (String × α)) :
    (entries.foldl (fun seen entry => set entry.1 entry.2 seen) seen).map Prod.fst =
      seen.map Prod.fst ++
        ((entries.map Prod.fst).filter (· ∉ seen.map Prod.fst)).eraseDups := by
  induction entries generalizing seen with
  | nil => simp
  | cons entry rest ih =>
    rw [List.foldl_cons, ih, map_fst_set, List.map_cons]
    by_cases hold : entry.1 ∈ seen.map Prod.fst
    · rw [if_pos hold, List.filter_cons_of_neg (by simpa using hold)]
    · -- The key is old from here on, so its later entries are what removing duplicates takes away.
      have hrest : (rest.map Prod.fst).filter (· ∉ seen.map Prod.fst ++ [entry.1]) =
          ((rest.map Prod.fst).filter (· ∉ seen.map Prod.fst)).filter (!· == entry.1) := by
        rw [List.filter_filter]
        refine List.filter_congr fun k _ => ?_
        simp only [List.mem_append, List.mem_singleton, not_or, Bool.decide_and, Bool.and_comm,
          decide_not, Bool.beq_eq_decide_eq]
      rw [if_neg hold, List.filter_cons_of_pos (by simpa using hold), List.eraseDups_cons, hrest,
        List.append_assoc, List.singleton_append]

/-- An entry with a new key goes to the end. -/
theorem set_of_notMem (h : key ∉ entries.map Prod.fst) :
    set key value entries = entries ++ [(key, value)] := by
  induction entries with
  | nil => rfl
  | cons entry rest ih =>
    obtain ⟨first, v⟩ := entry
    rw [List.map_cons, List.mem_cons, not_or] at h
    rw [set, if_neg (Ne.symm h.1), ih h.2, List.cons_append]

/-- Entries without a repeated key are added to others one after another. -/
theorem foldl_set_of_nodup (seen : List (String × α))
    (h : ((seen ++ entries).map Prod.fst).Nodup) :
    entries.foldl (fun seen entry => set entry.1 entry.2 seen) seen = seen ++ entries := by
  induction entries generalizing seen with
  | nil => simp
  | cons entry rest ih =>
    have hnew : entry.1 ∉ seen.map Prod.fst := by
      rw [List.map_append, List.map_cons] at h
      exact fun hmem => (List.nodup_append.mp h).2.2 _ hmem _ List.mem_cons_self rfl
    rw [List.foldl_cons, set_of_notMem hnew, ih _ (by simpa using h)]
    simp

/-- **No entry is lost.** Entries set one after another are all there, in their order, exactly if no
key is repeated. -/
theorem ofList_eq_self_iff : ofList entries = entries ↔ (entries.map Prod.fst).Nodup := by
  constructor
  · intro h
    rw [← h]
    exact nodup_keys_ofList
  · exact foldl_set_of_nodup []

end Folio.Entries
