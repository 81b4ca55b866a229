import Folio.Proofs.Paging.Carried
import Folio.Proofs.Value.Parts

/-!
# What lies inside a value

A value that a path leads to nests at least two levels less than the value it lies in, counted in
tagged forms, and has no other numbers. The tagged form of a document nests up to three levels for
each level of the document.
-/

namespace Folio.Value

open Json (nesting nestingItems nestingEntries)

/-- A value nests at least two levels less than another and has no other numbers. -/
def Inside (inner outer : Value) : Prop :=
  inner.tagged.nesting ≤ outer.tagged.nesting - 2 ∧ ∀ n ∈ inner.numbers, n ∈ outer.numbers

/-- Absence lies inside every value. -/
theorem inside_absent (v : Value) : Inside .absent v :=
  ⟨Nat.zero_le _, by simp [numbers]⟩

/-- What lies inside what lies inside a value lies inside the value. -/
theorem Inside.trans {a b c : Value} (h : Inside a b) (houter : Inside b c) : Inside a c := by
  obtain ⟨hnesting, hnumbers⟩ := h
  obtain ⟨hnesting', hnumbers'⟩ := houter
  exact ⟨by omega, fun n hn => hnumbers' n (hnumbers n hn)⟩

/-- An element nests no more than the elements do and has no other numbers. -/
theorem item_spec {item : Value} {items : List Value} (h : item ∈ items) :
    item.tagged.nesting ≤ nestingItems (taggedItems items) ∧
      ∀ n ∈ item.numbers, n ∈ numbersOfItems items := by
  induction items with
  | nil => cases h
  | cons first rest ih =>
    simp only [taggedItems, nestingItems, numbersOfItems, List.mem_append]
    rcases List.mem_cons.mp h with rfl | hrest
    · exact ⟨by omega, fun n hn => Or.inl hn⟩
    · obtain ⟨hnesting, hnumbers⟩ := ih hrest
      exact ⟨by omega, fun n hn => Or.inr (hnumbers n hn)⟩

/-- The value of an entry nests less than the entries do and has no other numbers. -/
theorem entry_spec {key : String} {value : Value} {entries : List (String × Value)}
    (h : (key, value) ∈ entries) :
    value.tagged.nesting + 1 ≤ nestingItems (taggedEntries entries) ∧
      ∀ n ∈ value.numbers, n ∈ numbersOfEntries entries := by
  induction entries with
  | nil => cases h
  | cons first rest ih =>
    obtain ⟨name, found⟩ := first
    simp only [taggedEntries, nestingItems, nesting, numbersOfEntries, List.mem_append]
    rcases List.mem_cons.mp h with hfirst | hrest
    · obtain ⟨rfl, rfl⟩ := Prod.mk.inj hfirst
      exact ⟨by omega, fun n hn => Or.inl hn⟩
    · obtain ⟨hnesting, hnumbers⟩ := ih hrest
      exact ⟨by omega, fun n hn => Or.inr (hnumbers n hn)⟩

/-- A part lies inside. -/
theorem inside_of_mem_parts {part v : Value} (h : part ∈ v.parts) : Inside part v := by
  cases v with
  | object entries =>
    obtain ⟨⟨key, value⟩, hentry, rfl⟩ := List.mem_map.mp h
    obtain ⟨hnesting, hnumbers⟩ := entry_spec hentry
    refine ⟨?_, hnumbers⟩
    simp only [tagged, nesting, nestingEntries]
    omega
  | array items =>
    obtain ⟨hnesting, hnumbers⟩ := item_spec (show part ∈ items from h)
    refine ⟨?_, hnumbers⟩
    simp only [tagged, nesting, nestingEntries]
    omega
  | _ => cases h

/-- What a key leads to, or absence, lies inside. -/
theorem inside_child (key : String) (v : Value) : Inside (v.child key) v := by
  unfold child
  cases h : v.child? key with
  | none => exact inside_absent v
  | some inner => exact inside_of_mem_parts (mem_parts_of_child? h)

/-- What a path with at least one key leads to lies inside. -/
theorem inside_resolve {path : List String} (hpath : path ≠ []) (v : Value) :
    Inside (v.resolve path) v := by
  induction path generalizing v with
  | nil => exact absurd rfl hpath
  | cons key rest ih =>
    rw [resolve]
    cases h : v.child? key with
    | none => exact inside_absent v
    | some next =>
      have hnext := inside_of_mem_parts (mem_parts_of_child? h)
      cases rest with
      | nil => exact hnext
      | cons second others => exact (ih (by simp) next).trans hnext

/-- Values that lie inside another nest at least two levels less and have no other numbers. -/
theorem items_spec {items : List Value} {outer : Value} (h : ∀ item ∈ items, Inside item outer) :
    nestingItems (taggedItems items) ≤ outer.tagged.nesting - 2 ∧
      ∀ n ∈ numbersOfItems items, n ∈ outer.numbers := by
  induction items with
  | nil => simp [taggedItems, nestingItems, numbersOfItems]
  | cons item rest ih =>
    obtain ⟨⟨hnesting, hnumbers⟩, hrest⟩ := List.forall_mem_cons.mp h
    obtain ⟨hnesting', hnumbers'⟩ := ih hrest
    refine ⟨by simp only [taggedItems, nestingItems]; omega, fun n hn => ?_⟩
    rcases List.mem_append.mp hn with hn | hn
    · exact hnumbers n hn
    · exact hnumbers' n hn

mutual

/-- The tagged form of a document nests up to three levels for each of its levels. -/
theorem nesting_tagged_ofJson_le (j : Json) : (ofJson j).tagged.nesting ≤ 3 * j.nesting + 1 := by
  match j with
  | .null => simp [ofJson, tagged, nesting]
  | .bool _ => simp [ofJson, tagged, nesting, nestingEntries]
  | .integer _ => simp [ofJson, tagged, nesting, nestingEntries]
  | .float _ => simp [ofJson, tagged, nesting, nestingEntries]
  | .string _ => simp [ofJson, tagged, nesting, nestingEntries]
  | .array items =>
    have hitems := nestingItems_taggedItems_le items
    simp only [ofJson, tagged, nesting, nestingEntries]
    omega
  | .object entries =>
    have hentries := nestingItems_taggedEntries_le entries
    simp only [ofJson, tagged, nesting, nestingEntries]
    omega

/-- The tagged forms of the elements of an array nest up to three levels for each of theirs. -/
theorem nestingItems_taggedItems_le (items : List Json) :
    nestingItems (taggedItems (ofJsonItems items)) ≤ 3 * nestingItems items + 1 := by
  match items with
  | [] => simp [ofJsonItems, taggedItems, nestingItems]
  | item :: rest =>
    have hitem := nesting_tagged_ofJson_le item
    have hrest := nestingItems_taggedItems_le rest
    simp only [ofJsonItems, taggedItems, nestingItems]
    omega

/-- The pairs of the entries of an object nest up to three levels for each of theirs. -/
theorem nestingItems_taggedEntries_le (entries : List (String × Json)) :
    nestingItems (taggedEntries (ofJsonEntries entries)) ≤ 3 * nestingEntries entries + 2 := by
  match entries with
  | [] => simp [ofJsonEntries, taggedEntries, nestingItems]
  | (key, value) :: rest =>
    have hvalue := nesting_tagged_ofJson_le value
    have hrest := nestingItems_taggedEntries_le rest
    simp only [ofJsonEntries, taggedEntries, nestingItems, nestingEntries, nesting]
    omega

end

end Folio.Value
