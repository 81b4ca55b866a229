import Folio.Proofs.Entries
import Folio.Value.Comparison
import Folio.Value.Document
import Folio.Value.Path

/-!
# Parts of values

The parts of a value are the elements of an array and the values of the entries of an object. What a
path leads to is found by going from part to part, so what holds of all parts at any depth holds of
it. Nothing is absent inside a document.
-/

namespace Folio.Value

/-- The values directly inside a value. -/
def parts : Value → List Value
  | .array items => items
  | .object entries => entries.map Prod.snd
  | _ => []

/-- A part is smaller than the value. -/
theorem sizeOf_lt_of_mem_parts {part v : Value} (h : part ∈ v.parts) : sizeOf part < sizeOf v := by
  cases v with
  | array items =>
    have hitem : sizeOf part < sizeOf items := List.sizeOf_lt_of_mem h
    simp only [array.sizeOf_spec]
    omega
  | object entries =>
    have hvalue : sizeOf part < sizeOf entries := Entries.sizeOf_lt_of_mem_map_snd h
    simp only [object.sizeOf_spec]
    omega
  | _ => cases h

/-- What holds of a value as soon as it holds of its parts holds of every value. -/
theorem induction_parts {P : Value → Prop} (step : ∀ v, (∀ part ∈ v.parts, P part) → P v)
    (v : Value) : P v :=
  step v fun part _ => induction_parts step part
termination_by sizeOf v
decreasing_by exact sizeOf_lt_of_mem_parts ‹_›

/-- Nothing is absent in the value, at any depth. -/
inductive Complete : Value → Prop
  | intro {v : Value} (present : v.isAbsent = false) (parts : ∀ part ∈ v.parts, Complete part) :
    Complete v

/-- Each key of an object in the value stands for one entry, at any depth. -/
inductive Keyed : Value → Prop
  | intro {v : Value} (keys : ∀ entries, v = .object entries → (entries.map Prod.fst).Nodup)
      (parts : ∀ part ∈ v.parts, Keyed part) : Keyed v

/-- A complete value is present. -/
theorem Complete.present {v : Value} (h : v.Complete) : v.isAbsent = false := by
  obtain ⟨hpresent, -⟩ := h
  exact hpresent

/-- A value without parts has each key once. -/
theorem keyed_of_plain {v : Value} (h : v.isComposite = false) : v.Keyed := by
  cases v with
  | array items => cases h
  | object entries => cases h
  | _ => exact .intro (by simp) (by simp [parts])

/-- An array has each key once if its elements do. -/
theorem keyed_array {items : List Value} (h : ∀ item ∈ items, item.Keyed) : (array items).Keyed :=
  .intro nofun h

/-- An object has each key once if its keys are not repeated and its values have each key once. -/
theorem keyed_object {entries : List (String × Value)} (hkeys : (entries.map Prod.fst).Nodup)
    (h : ∀ part ∈ entries.map Prod.snd, part.Keyed) : (object entries).Keyed := by
  refine .intro (fun others hothers => ?_) h
  rwa [← object.inj hothers]

/-- An object that has each key once does not repeat its own keys. -/
theorem Keyed.nodup_keys {entries : List (String × Value)} (h : (object entries).Keyed) :
    (entries.map Prod.fst).Nodup := by
  obtain ⟨hkeys, -⟩ := h
  exact hkeys entries rfl

/-- A present value without parts is complete. -/
theorem complete_of_plain {v : Value} (hplain : v.isComposite = false)
    (hpresent : v.isAbsent = false) : v.Complete := by
  cases v with
  | array items => cases hplain
  | object entries => cases hplain
  | _ => exact .intro hpresent (by simp [parts])

/-! ## Documents -/

mutual

/-- Nothing is absent in a document. -/
theorem complete_ofJson (j : Json) : (ofJson j).Complete := by
  match j with
  | .null => exact complete_of_plain rfl rfl
  | .bool _ => exact complete_of_plain rfl rfl
  | .integer _ => exact complete_of_plain rfl rfl
  | .float _ => exact complete_of_plain rfl rfl
  | .string _ => exact complete_of_plain rfl rfl
  | .array items => exact .intro rfl (complete_of_mem_ofJsonItems items)
  | .object entries => exact .intro rfl (complete_of_mem_ofJsonEntries entries)

/-- Nothing is absent in an element of a JSON array. -/
theorem complete_of_mem_ofJsonItems (items : List Json) : ∀ v ∈ ofJsonItems items, v.Complete := by
  match items with
  | [] => simp [ofJsonItems]
  | item :: rest =>
    exact List.forall_mem_cons.mpr ⟨complete_ofJson item, complete_of_mem_ofJsonItems rest⟩

/-- Nothing is absent in the value of an entry of a JSON object. -/
theorem complete_of_mem_ofJsonEntries (entries : List (String × Json)) :
    ∀ v ∈ (ofJsonEntries entries).map Prod.snd, v.Complete := by
  match entries with
  | [] => simp [ofJsonEntries]
  | (key, value) :: rest =>
    exact List.forall_mem_cons.mpr ⟨complete_ofJson value, complete_of_mem_ofJsonEntries rest⟩

end

/-- The key of an entry is among the keys. -/
theorem mem_keys_of_mem {key : String} {v : Value} {entries : List (String × Value)}
    (h : (key, v) ∈ entries) : key ∈ entries.map Prod.fst :=
  List.mem_map_of_mem (f := Prod.fst) h

/-- The value of an entry is among the values. -/
theorem mem_values_of_mem {key : String} {v : Value} {entries : List (String × Value)}
    (h : (key, v) ∈ entries) : v ∈ entries.map Prod.snd :=
  List.mem_map_of_mem (f := Prod.snd) h

/-- What a key leads to is a part. -/
theorem mem_parts_of_child? {key : String} {v inner : Value} (h : v.child? key = some inner) :
    inner ∈ v.parts := by
  cases v with
  | object entries =>
    exact mem_values_of_mem (Entries.mem_of_lookup_eq_some h)
  | array items =>
    obtain ⟨place, -, hitem⟩ := Option.bind_eq_some_iff.mp h
    exact List.mem_of_getElem? hitem
  | _ => cases h

/-- What a key leads to has each key once if the value does. -/
theorem Keyed.child {v : Value} (h : v.Keyed) (key : String) : (v.child key).Keyed := by
  rw [Value.child]
  cases hchild : v.child? key with
  | none => exact keyed_of_plain rfl
  | some next =>
    obtain ⟨-, hparts⟩ := h
    exact hparts next (mem_parts_of_child? hchild)

/-- What a path leads to in a complete value is complete, unless the path leads nowhere. -/
theorem complete_resolve {v : Value} (hv : v.Complete) (path : List String)
    (hpresent : (v.resolve path).isAbsent = false) : (v.resolve path).Complete := by
  induction path generalizing v with
  | nil => exact hv
  | cons key path ih =>
    rw [resolve] at hpresent ⊢
    cases hchild : v.child? key with
    | none =>
      rw [hchild] at hpresent
      cases hpresent
    | some next =>
      rw [hchild] at hpresent
      obtain ⟨-, hparts⟩ := hv
      exact ih (hparts next (mem_parts_of_child? hchild)) hpresent

end Folio.Value
