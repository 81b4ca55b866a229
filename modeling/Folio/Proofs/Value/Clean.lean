import Folio.Proofs.Value.Emission

/-!
# Cleaned values

Cleaning a value leaves out what is absent inside it, at every depth, and nothing else. What is emitted
of a value follows it part by part, so a null is emitted for a null or for a number that is not finite,
and never for something absent.
-/

namespace Folio.Value

variable {v : Value} {entries : List (String × Value)}

/-! ## Cleaning -/

/-- The elements that stay are the present ones, each of them cleaned. -/
theorem cleanItems_eq (items : List Value) :
    cleanItems items = (items.filter fun item => !item.isAbsent).map clean := by
  induction items with
  | nil => rfl
  | cons item rest ih =>
    rw [cleanItems, List.filter_cons]
    cases item.isAbsent with
    | true => exact ih
    | false => exact congrArg (item.clean :: ·) ih

/-- The entries that stay are the present ones, each with its value cleaned. -/
theorem cleanEntries_eq (entries : List (String × Value)) : cleanEntries entries =
    (entries.filter fun entry => !entry.2.isAbsent).map fun entry => (entry.1, entry.2.clean) := by
  induction entries with
  | nil => rfl
  | cons entry rest ih =>
    rw [cleanEntries, List.filter_cons]
    cases entry.2.isAbsent with
    | true => exact ih
    | false => exact congrArg ((entry.1, entry.2.clean) :: ·) ih

/-- A value without parts is clean. -/
theorem clean_of_plain (h : v.isComposite = false) : v.clean = v := by
  cases v with
  | array items => cases h
  | object entries => cases h
  | _ => rfl

/-- The value itself stays, absent or not. -/
theorem isAbsent_clean (v : Value) : v.clean.isAbsent = v.isAbsent := by
  cases v <;> rfl

/-- The parts that stay are the present ones, each of them cleaned. -/
theorem parts_clean (v : Value) :
    v.clean.parts = (v.parts.filter fun part => !part.isAbsent).map clean := by
  cases v with
  | array items => exact cleanItems_eq items
  | object entries =>
    change (cleanEntries entries).map Prod.snd = _
    rw [cleanEntries_eq, parts, List.filter_map, List.map_map, List.map_map]
    rfl
  | _ => rfl

/-- Each part that stays is a present part that is cleaned. -/
theorem exists_of_mem_parts_clean {part : Value} (h : part ∈ v.clean.parts) :
    ∃ dirty ∈ v.parts, dirty.isAbsent = false ∧ dirty.clean = part := by
  rw [parts_clean] at h
  obtain ⟨dirty, hdirty, hpart⟩ := List.mem_map.mp h
  obtain ⟨hmem, hpresent⟩ := List.mem_filter.mp hdirty
  exact ⟨dirty, hmem, by simpa using hpresent, hpart⟩

/-- Nothing is absent in a present value that is cleaned. -/
theorem complete_clean (h : v.isAbsent = false) : v.clean.Complete := by
  induction v using induction_parts with
  | step v ih =>
    refine .intro ((isAbsent_clean v).trans h) fun part hpart => ?_
    obtain ⟨dirty, hdirty, hpresent, rfl⟩ := exists_of_mem_parts_clean hpart
    exact ih dirty hdirty hpresent

/-- Nothing is absent below the root of a cleaned value. -/
theorem complete_of_mem_parts_clean (v : Value) : ∀ part ∈ v.clean.parts, part.Complete := by
  intro part hpart
  obtain ⟨dirty, -, hpresent, rfl⟩ := exists_of_mem_parts_clean hpart
  exact complete_clean hpresent

/-- A value stays as it is exactly if nothing is absent below its root. -/
theorem clean_eq_self_iff : v.clean = v ↔ ∀ part ∈ v.parts, part.Complete := by
  refine ⟨fun h => h ▸ complete_of_mem_parts_clean v, fun h => ?_⟩
  induction v using induction_parts with
  | step v ih =>
    -- every part is kept, since it is present, and stays as it is
    have hpart : ∀ part ∈ v.parts, part.isAbsent = false ∧ part.clean = part := by
      intro part hpart
      obtain ⟨hpresent, hparts⟩ := h part hpart
      exact ⟨hpresent, ih part hpart hparts⟩
    cases v with
    | array items =>
      have hkept : items.filter (fun item => !item.isAbsent) = items :=
        List.filter_eq_self.mpr fun item hitem => by rw [(hpart item hitem).1]; rfl
      have hsame : ∀ item ∈ items, item.clean = item := fun item hitem => (hpart item hitem).2
      rw [clean, cleanItems_eq, hkept, List.map_congr_left hsame, List.map_id']
    | object entries =>
      have hentry {entry : String × Value} (hmem : entry ∈ entries) :=
        hpart entry.2 (List.mem_map_of_mem hmem)
      have hkept : entries.filter (fun entry => !entry.2.isAbsent) = entries :=
        List.filter_eq_self.mpr fun entry hmem => by rw [(hentry hmem).1]; rfl
      have hsame : ∀ entry ∈ entries, (entry.1, entry.2.clean) = entry := fun entry hmem =>
        Prod.ext rfl (hentry hmem).2
      rw [clean, cleanEntries_eq, hkept, List.map_congr_left hsame, List.map_id']
    | _ => rfl

/-! ## Emission -/

/-- The JSON that is emitted follows a value. Numbers that are not finite are null. An array has the
elements that are emitted for the present ones, in their order. An object has the keys of present
entries, each of them once, with what is emitted for its last present entry. -/
inductive ShownAs : Value → Json → Prop
  | null : ShownAs .null .null
  | bool (b : Bool) : ShownAs (.bool b) (.bool b)
  | gap {n : Number} (infinite : n.isFinite = false) : ShownAs (.number n) .null
  | number {n : Number} (finite : n.isFinite = true) : ShownAs (.number n) n.toJson
  | string (s : String) : ShownAs (.string s) (.string s)
  | array {items : List Value} {elements : List Json}
      (parts : List.Forall₂ ShownAs (items.filter fun item => !item.isAbsent) elements) :
      ShownAs (.array items) (.array elements)
  | object {entries : List (String × Value)} {fields : List (String × Json)}
      (once : (fields.map Prod.fst).Nodup)
      (keys : ∀ key, (fields.lookup key).isSome = (lastPresent? key entries).isSome)
      (parts : ∀ key part field, lastPresent? key entries = some part →
        fields.lookup key = some field → ShownAs part field) :
      ShownAs (.object entries) (.object fields)

/-- The JSON of a finite number is not null. -/
theorem toJson_ne_null {n : Number} (h : n.isFinite = true) : n.toJson ≠ .null := by
  unfold Number.toJson
  rw [h]
  split
  · contradiction
  · split <;> exact nofun

/-- A null stands for a null or for a number that is not finite. -/
theorem ShownAs.of_null {j : Json} (h : v.ShownAs j) (hj : j = .null) :
    v = .null ∨ ∃ n, v = .number n ∧ n.isFinite = false := by
  cases h with
  | null => exact .inl rfl
  | gap hn => exact .inr ⟨_, rfl, hn⟩
  | number hn => exact absurd hj (toJson_ne_null hn)
  | _ => cases hj

/-- Something is emitted for every present value. -/
theorem exists_emitted (h : v.isAbsent = false) : ∃ j, v.emitted = some j := by
  rw [← Option.ne_none_iff_exists', ne_eq, emitted_eq_none_iff, h]
  exact Bool.false_ne_true

/-- The elements that are emitted are those of the present ones. -/
theorem shownAs_toJsonItems {items : List Value}
    (h : ∀ item ∈ items, ∀ j, item.emitted = some j → item.ShownAs j) :
    List.Forall₂ ShownAs (items.filter fun item => !item.isAbsent)
      (toJsonItems (cleanItems items)) := by
  induction items with
  | nil => exact .nil
  | cons item rest ih =>
    obtain ⟨hitem, hrest⟩ := List.forall_mem_cons.mp h
    rw [cleanItems, List.filter_cons]
    cases hpresent : item.isAbsent with
    | true => exact ih hrest
    | false =>
      obtain ⟨j, hj⟩ := exists_emitted hpresent
      have hjson : item.clean.toJson? = some j := hj
      simp only [Bool.not_false, if_true, Bool.false_eq_true, if_false, toJsonItems, hjson,
        Option.getD_some]
      exact .cons (hitem j hj) (ih hrest)

/-- A value that is found under a key as the last present one is a part. -/
theorem mem_parts_of_lastPresent? {key : String} {part : Value}
    (h : lastPresent? key entries = some part) : part ∈ (object entries).parts := by
  have hentry := (List.mem_filter.mp (Entries.mem_of_lookup_eq_some h)).1
  exact mem_values_of_mem (List.mem_reverse.mp hentry)

/-- A value that is found under a key as the last present one is present. -/
theorem isAbsent_of_lastPresent? {key : String} {part : Value}
    (h : lastPresent? key entries = some part) : part.isAbsent = false := by
  have hpresent := (List.mem_filter.mp (Entries.mem_of_lookup_eq_some h)).2
  simpa using hpresent

/-- What is emitted follows the value. -/
theorem shownAs_of_emitted {j : Json} (h : v.emitted = some j) : v.ShownAs j := by
  induction v using induction_parts generalizing j with
  | step v ih =>
    cases v with
    | absent => cases h
    | null =>
      cases h
      exact .null
    | bool b =>
      cases h
      exact .bool b
    | string s =>
      cases h
      exact .string s
    | number n =>
      cases h
      cases hn : n.isFinite with
      | true => exact .number hn
      | false =>
        rw [Number.toJson, hn]
        exact .gap hn
    | array items =>
      cases h
      exact .array (shownAs_toJsonItems fun item hitem j => ih item hitem)
    | object entries =>
      obtain ⟨fields, hfields, honce, hlookup⟩ := emitted_object entries
      obtain rfl := Option.some.inj (hfields.symm.trans h)
      refine .object honce (fun key => ?_) fun key part field hpart hfield => ?_
      · rw [hlookup]
        cases hpart : lastPresent? key entries with
        | none => rfl
        | some part =>
          obtain ⟨field, hfield⟩ := exists_emitted (isAbsent_of_lastPresent? hpart)
          rw [Option.bind_some, hfield, Option.isSome_some, Option.isSome_some]
      · rw [hlookup, hpart] at hfield
        exact ih part (mem_parts_of_lastPresent? hpart) hfield

/-- **Cleaning removes absence and nothing else.**

* Nothing is absent below the root of a cleaned value. A value stays as it is exactly if nothing is
  absent below its root, so cleaning twice is cleaning once.
* An array keeps its present elements and an object its present entries, cleaned and in their order.
  Every other value stays as it is.
* Absence alone is not emitted. What is emitted follows the value, so each null in it stands for a null
  or for a number that is not finite. -/
theorem clean_spec (v : Value) :
    (∀ part ∈ v.clean.parts, part.Complete) ∧
    (v.clean = v ↔ ∀ part ∈ v.parts, part.Complete) ∧ v.clean.clean = v.clean ∧
    (∀ items, v = .array items →
      v.clean = .array ((items.filter fun item => !item.isAbsent).map clean)) ∧
    (∀ entries, v = .object entries →
      v.clean = .object ((entries.filter fun entry => !entry.2.isAbsent).map
        fun entry => (entry.1, entry.2.clean))) ∧
    (v.isComposite = false → v.clean = v) ∧
    (v.clean.toJson? = none ↔ v = .absent) ∧
    (∀ j, v.clean.toJson? = some j → v.ShownAs j) ∧
    ∀ w, ShownAs w .null → w = .null ∨ ∃ n, w = .number n ∧ n.isFinite = false := by
  have hinside := complete_of_mem_parts_clean v
  refine ⟨hinside, clean_eq_self_iff, clean_eq_self_iff.mpr hinside, ?_, ?_, clean_of_plain, ?_,
    fun j => shownAs_of_emitted, fun w hw => hw.of_null rfl⟩
  · rintro items rfl
    rw [clean, cleanItems_eq]
  · rintro entries rfl
    rw [clean, cleanEntries_eq]
  · refine emitted_eq_none_iff.trans ?_
    cases v <;> simp [isAbsent]

/-- In an object with absent values at two depths both are left out, and the two nulls that are emitted
stand for a null and for not-a-number. -/
theorem clean_spec_two_depths :
    (object [("a", array [.absent, .null, .number .nan]), ("b", .absent)]).clean =
      object [("a", array [.null, .number .nan])] ∧
    (array [.absent, .null, .number .nan]).clean = array [.null, .number .nan] ∧
    (object [("a", array [.absent, .null, .number .nan]), ("b", .absent)]).ShownAs
      (.object [("a", .array [.null, .null])]) ∧
    (number .nan = .null ∨ ∃ n, number .nan = .number n ∧ n.isFinite = false) ∧
    clean .null = .null := by
  obtain ⟨-, -, -, -, hentries, -, -, hshown, hnull⟩ :=
    clean_spec (object [("a", array [.absent, .null, .number .nan]), ("b", .absent)])
  obtain ⟨-, -, -, hitems, -⟩ := clean_spec (array [.absent, .null, .number .nan])
  obtain ⟨-, -, -, -, -, hplain, -⟩ := clean_spec .null
  exact ⟨hentries _ rfl, hitems _ rfl, hshown _ rfl, hnull _ (.gap rfl), hplain rfl⟩

end Folio.Value
