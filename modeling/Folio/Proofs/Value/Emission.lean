import Folio.Proofs.Value.Parts

/-!
# What values are emitted as

A value is emitted as JSON after what is absent inside it has been left out. An object is emitted
with the last present entry under each key, while reading a key takes its first entry. Where no key
is repeated the two are one entry, so what is emitted under a key is what the value read there is
emitted as.
-/

namespace Folio.Value

variable {key : String} {entries : List (String × Value)}

/-- The JSON that a value is emitted as; absence is not emitted. -/
def emitted (v : Value) : Option Json := v.clean.toJson?

/-- Absence alone is not emitted. -/
theorem emitted_eq_none_iff {v : Value} : v.emitted = none ↔ v.isAbsent = true := by
  cases v <;> simp [emitted, clean, toJson?, isAbsent]

/-- Something is emitted of what is read under a key exactly if a present value is found there. -/
theorem isSome_emitted_get_iff {v : Value} : (v.get key).emitted.isSome = true ↔
    ∃ w, v.get? key = some w ∧ w.isAbsent = false := by
  rw [Option.isSome_iff_ne_none, ne_eq, emitted_eq_none_iff, Bool.not_eq_true, get]
  cases v.get? key with
  | none => simp [isAbsent]
  | some w => simp

/-- The entries that are emitted are the present ones, each with what its value is emitted as. -/
theorem toJsonEntries_cleanEntries (entries : List (String × Value)) :
    toJsonEntries (cleanEntries entries) =
      entries.filterMap fun entry => entry.2.emitted.map (entry.1, ·) := by
  induction entries with
  | nil => rfl
  | cons entry rest ih =>
    obtain ⟨first, v⟩ := entry
    rw [cleanEntries, List.filterMap_cons]
    cases hv : v.emitted with
    | none =>
      rw [if_pos (emitted_eq_none_iff.mp hv), ih]
      rfl
    | some json =>
      have hpresent : ¬ v.isAbsent = true := by
        rw [← emitted_eq_none_iff, hv]
        exact nofun
      have hjson : v.clean.toJson? = some json := hv
      rw [if_neg hpresent, toJsonEntries, hjson, ih]
      rfl

/-- The value of the last entry with the key that is present. -/
def lastPresent? (key : String) (entries : List (String × Value)) : Option Value :=
  (entries.reverse.filter fun entry => !entry.2.isAbsent).lookup key

/-- Of the entries that are emitted, the first one under a key is the first present one. -/
theorem lookup_filterMap_emitted (entries : List (String × Value)) (key : String) :
    (entries.filterMap fun entry => entry.2.emitted.map (entry.1, ·)).lookup key =
      ((entries.filter fun entry => !entry.2.isAbsent).lookup key).bind emitted := by
  induction entries with
  | nil => rfl
  | cons entry rest ih =>
    rw [List.filterMap_cons, List.filter_cons]
    cases hv : entry.2.emitted with
    | none =>
      rw [emitted_eq_none_iff.mp hv]
      exact ih
    | some json =>
      have hpresent : entry.2.isAbsent = false := by
        rw [← Bool.not_eq_true, ← emitted_eq_none_iff, hv]
        exact nofun
      rw [hpresent]
      simp only [Option.map_some, Bool.not_false, if_true, Entries.lookup_cons_eq, ih]
      split
      · exact hv.symm
      · rfl

/-- **Emitted objects.** An object is emitted with each key at most once, and under a key with what
its last present entry there is emitted as. -/
theorem emitted_object (entries : List (String × Value)) : ∃ fields,
    (object entries).emitted = some (.object fields) ∧ (fields.map Prod.fst).Nodup ∧
      ∀ key, fields.lookup key = (lastPresent? key entries).bind emitted := by
  refine ⟨Entries.ofList (toJsonEntries (cleanEntries entries)), rfl, Entries.nodup_keys_ofList,
    fun key => ?_⟩
  rw [Entries.lookup_ofList, toJsonEntries_cleanEntries, ← List.filterMap_reverse,
    lookup_filterMap_emitted, lastPresent?]

/-- Where no key is repeated, the last present entry under a key is the only entry, if it is
present. -/
theorem lastPresent?_eq_some_iff (hkeys : (entries.map Prod.fst).Nodup) {v : Value} :
    lastPresent? key entries = some v ↔ entries.lookup key = some v ∧ v.isAbsent = false := by
  have hmem : (key, v) ∈ entries.reverse.filter (fun entry => !entry.2.isAbsent) ↔
      (key, v) ∈ entries ∧ v.isAbsent = false := by
    simp
  have hkept : ((entries.reverse.filter fun entry => !entry.2.isAbsent).map Prod.fst).Nodup := by
    refine List.Nodup.sublist ((List.filter_sublist ..).map Prod.fst) ?_
    rw [List.map_reverse, List.nodup_reverse]
    exact hkeys
  rw [lastPresent?, Entries.lookup_eq_some_iff_mem hkept, Entries.lookup_eq_some_iff_mem hkeys]
  exact hmem

/-- Where no key is repeated, what is emitted under a key is what is emitted of the value that is read
there. -/
theorem lastPresent?_bind_emitted (hkeys : (entries.map Prod.fst).Nodup) (key : String) :
    (lastPresent? key entries).bind emitted = ((object entries).get key).emitted := by
  have hlast : lastPresent? key entries = (entries.lookup key).filter fun v => !v.isAbsent := by
    ext v
    simp [lastPresent?_eq_some_iff hkeys, Option.filter_eq_some_iff]
  rw [hlast, get, get?]
  cases entries.lookup key with
  | none => rfl
  | some v =>
    rw [Option.getD_some, Option.filter_some]
    cases hpresent : v.isAbsent with
    | true => exact (emitted_eq_none_iff.mpr hpresent).symm
    | false => rfl

end Folio.Value
