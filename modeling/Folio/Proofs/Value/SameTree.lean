import Folio.Proofs.Value.Finite
import Folio.Proofs.Value.Inside

/-!
# One tree up to the order of entries

Equality by content looks up the keys of its first side only. Where nothing is absent and no object
repeats a key this makes no difference: two objects with as many entries then have the same keys as
soon as each key of one is found in the other. Equality by content holds exactly of one tree up to
the order of entries, and so it does not matter on which side a value stands.
-/

namespace Folio

/-- Numeric equality works both ways. -/
theorem Number.equal_comm (x y : Number) : x.equal y = y.equal x := by
  rw [Bool.eq_iff_iff]
  simp only [equal, Bool.and_eq_true, Bool.not_eq_true', beq_iff_eq]
  constructor
  · rintro ⟨⟨hx, hy⟩, hrank⟩
    exact ⟨⟨hy, hx⟩, hrank.symm⟩
  · rintro ⟨⟨hy, hx⟩, hrank⟩
    exact ⟨⟨hx, hy⟩, hrank.symm⟩

/-- Numbers that are equal to one number are equal. -/
theorem Number.equal_trans {x y z : Number} (hxy : x.equal y = true) (hyz : y.equal z = true) :
    x.equal z = true := by
  simp only [equal, Bool.and_eq_true, Bool.not_eq_true', beq_iff_eq] at hxy hyz ⊢
  exact ⟨⟨hxy.1.1, hyz.1.2⟩, hxy.2.trans hyz.2⟩

/-- A number equals itself unless it is not-a-number. -/
theorem Number.equal_self (x : Number) : x.equal x = !x.isNaN := by
  simp [equal]

namespace Value

/-! ## Entries -/

/-- An entry with a key is found in a list of entries that has the key. -/
theorem exists_entry {key : String} {entries : List (String × Value)}
    (h : key ∈ entries.map Prod.fst) : ∃ v, (key, v) ∈ entries := by
  obtain ⟨⟨_, v⟩, hentry, rfl⟩ := List.mem_map.mp h
  exact ⟨v, hentry⟩

/-- Where keys are not repeated, two entries with one key have one value. -/
theorem eq_of_same_key {key : String} {x y : Value} {entries : List (String × Value)}
    (hkeys : (entries.map Prod.fst).Nodup) (hx : (key, x) ∈ entries) (hy : (key, y) ∈ entries) :
    x = y := by
  have hlookup := Entries.lookup_of_mem hkeys hx
  rw [Entries.lookup_of_mem hkeys hy] at hlookup
  exact (Option.some.inj hlookup).symm

/-- Lists without repetitions are as long as one another if they have the same members. -/
theorem length_eq_of_same_keys {xs ys : List (String × Value)} (hx : (xs.map Prod.fst).Nodup)
    (hy : (ys.map Prod.fst).Nodup) (h : ∀ key, key ∈ xs.map Prod.fst ↔ key ∈ ys.map Prod.fst) :
    xs.length = ys.length := by
  have hperm := ((List.perm_ext_iff_of_nodup hx hy).mpr h).length_eq
  rwa [List.length_map, List.length_map] at hperm

/-- Lists of as many keys without repetitions have the same keys if those of one are among those of
the other. -/
theorem same_keys_of_subset {xs ys : List (String × Value)} (hx : (xs.map Prod.fst).Nodup)
    (hlength : xs.length = ys.length) (h : xs.map Prod.fst ⊆ ys.map Prod.fst) (key : String) :
    key ∈ xs.map Prod.fst ↔ key ∈ ys.map Prod.fst := by
  have hperm : (xs.map Prod.fst).Perm (ys.map Prod.fst) :=
    (List.subperm_of_subset hx h).perm_of_length_le (by simp [hlength])
  exact hperm.mem_iff

/-! ## Proper values and trees -/

/-- A value as JSON documents hold it: nothing in it is absent, and its objects repeat no key. -/
structure Proper (v : Value) : Prop where
  complete : v.Complete
  keyed : v.Keyed

/-- A present value without parts is proper. -/
theorem proper_of_plain {v : Value} (hplain : v.isComposite = false)
    (hpresent : v.isAbsent = false) : v.Proper :=
  ⟨complete_of_plain hplain hpresent, keyed_of_plain hplain⟩

/-- An array of proper values is proper. -/
theorem proper_array {items : List Value} (h : ∀ item ∈ items, item.Proper) :
    (array items).Proper :=
  ⟨.intro rfl fun item hitem => (h item hitem).complete,
    keyed_array fun item hitem => (h item hitem).keyed⟩

/-- An object that has each key once, with a proper value, is proper. -/
theorem proper_object {entries : List (String × Value)} (hkeys : (entries.map Prod.fst).Nodup)
    (h : ∀ part ∈ entries.map Prod.snd, part.Proper) : (object entries).Proper :=
  ⟨.intro rfl fun part hpart => (h part hpart).complete,
    keyed_object hkeys fun part hpart => (h part hpart).keyed⟩

/-- A part of a proper value is proper. -/
theorem Proper.part {part v : Value} (h : v.Proper) (hpart : part ∈ v.parts) : part.Proper := by
  obtain ⟨⟨-, hcomplete⟩, ⟨-, hkeyed⟩⟩ := h
  exact ⟨hcomplete part hpart, hkeyed part hpart⟩

/-- A proper object has each key once. -/
theorem Proper.nodup_keys {entries : List (String × Value)} (h : (object entries).Proper) :
    (entries.map Prod.fst).Nodup :=
  h.keyed.nodup_keys

/-- The value of an entry of a proper object is proper. -/
theorem Proper.entry {key : String} {v : Value} {entries : List (String × Value)}
    (h : (object entries).Proper) (hentry : (key, v) ∈ entries) : v.Proper :=
  h.part (mem_values_of_mem hentry)

/-- Two values are one tree up to the order of the entries of objects: objects have the same keys
and one tree under each, arrays agree place by place, and numbers are numerically equal. -/
inductive SameTree : Value → Value → Prop
  | null : SameTree .null .null
  | bool (b : Bool) : SameTree (.bool b) (.bool b)
  | number {x y : Number} (equal : x.equal y = true) : SameTree (.number x) (.number y)
  | string (s : String) : SameTree (.string s) (.string s)
  | array {xs ys : List Value} (length : xs.length = ys.length)
      (items : ∀ (place : Nat) x y, xs[place]? = some x → ys[place]? = some y → SameTree x y) :
      SameTree (.array xs) (.array ys)
  | object {xs ys : List (String × Value)}
      (keys : ∀ key, key ∈ xs.map Prod.fst ↔ key ∈ ys.map Prod.fst)
      (values : ∀ key x y, (key, x) ∈ xs → (key, y) ∈ ys → SameTree x y) :
      SameTree (.object xs) (.object ys)

/-- Values that are one tree are of one kind. -/
theorem SameTree.kind_eq {a b : Value} (h : a.SameTree b) : a.kind = b.kind := by
  cases h <;> rfl

/-- Numbers are one tree if they are numerically equal. -/
theorem sameTree_number_iff {x y : Number} :
    (number x).SameTree (number y) ↔ x.equal y = true := by
  constructor
  · intro h
    cases h with
    | number hequal => exact hequal
  · exact .number

/-- Booleans are one tree if they are the same. -/
theorem sameTree_bool_iff {x y : Bool} : (bool x).SameTree (bool y) ↔ x = y := by
  constructor
  · intro h
    cases h with
    | bool => rfl
  · rintro rfl
    exact .bool x

/-- Strings are one tree if they are the same. -/
theorem sameTree_string_iff {x y : String} : (string x).SameTree (string y) ↔ x = y := by
  constructor
  · intro h
    cases h with
    | string => rfl
  · rintro rfl
    exact .string x

/-- Arrays are one tree if they are of one length and agree place by place. -/
theorem sameTree_array_iff {xs ys : List Value} : (array xs).SameTree (array ys) ↔
    xs.length = ys.length ∧
      ∀ (place : Nat) x y, xs[place]? = some x → ys[place]? = some y → x.SameTree y := by
  constructor
  · intro h
    cases h with
    | array hlength hitems => exact ⟨hlength, hitems⟩
  · rintro ⟨hlength, hitems⟩
    exact .array hlength hitems

/-- Objects are one tree if they have the same keys and one tree under each. -/
theorem sameTree_object_iff {xs ys : List (String × Value)} : (object xs).SameTree (object ys) ↔
    (∀ key, key ∈ xs.map Prod.fst ↔ key ∈ ys.map Prod.fst) ∧
      ∀ key x y, (key, x) ∈ xs → (key, y) ∈ ys → x.SameTree y := by
  constructor
  · intro h
    cases h with
    | object hkeys hvalues => exact ⟨hkeys, hvalues⟩
  · rintro ⟨hkeys, hvalues⟩
    exact .object hkeys hvalues

/-- The order of the sides does not matter for one tree. -/
theorem SameTree.symm {a b : Value} (h : a.SameTree b) : b.SameTree a := by
  induction h with
  | null => exact .null
  | bool b => exact .bool b
  | number hequal => exact .number (Number.equal_comm _ _ ▸ hequal)
  | string s => exact .string s
  | array hlength _ ih => exact .array hlength.symm fun place x y hx hy => ih place y x hy hx
  | object hkeys _ ih =>
    exact .object (fun key => (hkeys key).symm) fun key x y hx hy => ih key y x hy hx

/-- What is one tree with one tree is one tree with another. -/
theorem SameTree.trans {a b c : Value} (hab : a.SameTree b) (hbc : b.SameTree c) :
    a.SameTree c := by
  induction hab generalizing c with
  | null => exact hbc
  | bool => exact hbc
  | string => exact hbc
  | number hxy =>
    cases hbc with
    | number hyz => exact .number (Number.equal_trans hxy hyz)
  | @array xs ys hxy _ ih =>
    cases hbc with
    | array hyz hitems =>
      refine .array (hxy.trans hyz) fun place x z hx hz => ?_
      obtain ⟨hplace, -⟩ := List.getElem?_eq_some_iff.mp hz
      have hy : ys[place]? = some ys[place] := List.getElem?_eq_getElem (hyz ▸ hplace)
      exact ih place x _ hx hy (hitems place _ z hy hz)
  | object hxy _ ih =>
    cases hbc with
    | object hyz hvalues =>
      refine .object (fun key => (hxy key).trans (hyz key)) fun key x z hx hz => ?_
      obtain ⟨y, hy⟩ := exists_entry ((hxy key).mp (mem_keys_of_mem hx))
      exact ih key x y hx hy (hvalues key y z hy hz)

/-! ## Equality by content -/

/-- Values that are equal by content are of one kind. -/
theorem kind_eq_of_deepEqual {a b : Value} (h : a.deepEqual b = true) : a.kind = b.kind := by
  cases a <;> cases b <;> simp_all [deepEqual, kind]

/-- Arrays are one tree if they are equal place by place. -/
theorem itemsEqual_iff_sameTree {xs ys : List Value}
    (h : ∀ x ∈ xs, ∀ y ∈ ys, x.deepEqual y = true ↔ x.SameTree y) :
    itemsEqual xs ys = true ↔ (array xs).SameTree (array ys) := by
  rw [itemsEqual_iff_forall₂, List.forall₂_iff_get, sameTree_array_iff]
  constructor
  · rintro ⟨hlength, hitems⟩
    refine ⟨hlength, fun place x y hx hy => ?_⟩
    obtain ⟨hi, rfl⟩ := List.getElem?_eq_some_iff.mp hx
    obtain ⟨hj, rfl⟩ := List.getElem?_eq_some_iff.mp hy
    exact (h _ (List.getElem_mem hi) _ (List.getElem_mem hj)).mp (hitems place hi hj)
  · rintro ⟨hlength, hitems⟩
    refine ⟨hlength, fun place hi hj => ?_⟩
    exact (h _ (List.getElem_mem hi) _ (List.getElem_mem hj)).mpr
      (hitems place _ _ (List.getElem?_eq_getElem hi) (List.getElem?_eq_getElem hj))

/-- Objects are one tree if they have as many entries and each key of one is found in the other with
an equal value. -/
theorem entriesEqual_iff_sameTree {xs ys : List (String × Value)} (hx : (object xs).Proper)
    (hy : (object ys).Proper)
    (h : ∀ key x y, (key, x) ∈ xs → (key, y) ∈ ys → (x.deepEqual y = true ↔ x.SameTree y)) :
    xs.length = ys.length ∧ entriesEqual xs ys = true ↔ (object xs).SameTree (object ys) := by
  rw [entriesEqual_iff, sameTree_object_iff]
  constructor
  · rintro ⟨hlength, hequal⟩
    have hfound {key : String} {x : Value} (hentry : (key, x) ∈ xs) :=
      exists_mem_of_deepEqual_lookup (hx.entry hentry).complete.present (hequal _ hentry)
    have hsubset : xs.map Prod.fst ⊆ ys.map Prod.fst := by
      intro key hkey
      obtain ⟨x, hentry⟩ := exists_entry hkey
      obtain ⟨y, hentry', -⟩ := hfound hentry
      exact mem_keys_of_mem hentry'
    -- the second object has as many keys, so it has no others
    refine ⟨same_keys_of_subset hx.nodup_keys hlength hsubset, fun key x y hxs hys => ?_⟩
    obtain ⟨y', hys', -, hxy⟩ := hfound hxs
    obtain rfl := eq_of_same_key hy.nodup_keys hys hys'
    exact (h key x y hxs hys).mp hxy
  · rintro ⟨hkeys, hvalues⟩
    refine ⟨length_eq_of_same_keys hx.nodup_keys hy.nodup_keys hkeys, ?_⟩
    rintro ⟨key, x⟩ hxs
    obtain ⟨y, hys⟩ := exists_entry ((hkeys key).mp (mem_keys_of_mem hxs))
    rw [Entries.lookup_of_mem hy.nodup_keys hys, Option.getD_some]
    exact (h key x y hxs hys).mpr (hvalues key x y hxs hys)

/-- Proper values are equal by content if they are one tree up to the order of entries. -/
theorem deepEqual_iff_sameTree {a b : Value} (ha : a.Proper) (hb : b.Proper) :
    a.deepEqual b = true ↔ a.SameTree b := by
  -- along the parts of the first value, whatever the second one is
  induction a using induction_parts generalizing b with
  | step a ih =>
    have hparts {x y : Value} (hx : x ∈ a.parts) (hy : y ∈ b.parts) :
        x.deepEqual y = true ↔ x.SameTree y := ih x hx (ha.part hx) (hb.part hy)
    by_cases hkind : a.kind = b.kind
    · cases a <;> cases b <;> simp only [kind, reduceCtorEq] at hkind
      case absent => exact absurd ha.complete.present Bool.noConfusion
      case null => exact iff_of_true rfl .null
      case bool x y => rw [deepEqual, beq_iff_eq, sameTree_bool_iff]
      case number x y => rw [deepEqual, sameTree_number_iff]
      case string x y => rw [deepEqual, beq_iff_eq, sameTree_string_iff]
      case array xs ys => exact itemsEqual_iff_sameTree fun x hx y hy => hparts hx hy
      case object xs ys =>
        rw [deepEqual, Bool.and_eq_true, beq_iff_eq]
        exact entriesEqual_iff_sameTree ha hb fun key x y hx hy =>
          hparts (mem_values_of_mem hx) (mem_values_of_mem hy)
    · exact iff_of_false (mt kind_eq_of_deepEqual hkind) (mt SameTree.kind_eq hkind)

/-! ## A value and itself -/

/-- The numbers in the elements of an array are those of some element. -/
theorem mem_numbersOfItems_iff {n : Number} {items : List Value} :
    n ∈ numbersOfItems items ↔ ∃ item ∈ items, n ∈ item.numbers := by
  induction items with
  | nil => simp [numbersOfItems]
  | cons item rest ih => simp [numbersOfItems, ih]

/-- The numbers in the entries of an object are those of the value of some entry. -/
theorem mem_numbersOfEntries_iff {n : Number} {entries : List (String × Value)} :
    n ∈ numbersOfEntries entries ↔ ∃ part ∈ entries.map Prod.snd, n ∈ part.numbers := by
  induction entries with
  | nil => simp [numbersOfEntries]
  | cons entry rest ih =>
    simp only [numbersOfEntries, List.mem_append, ih, List.map_cons, List.exists_mem_cons_iff]

/-- The numbers in an array or object are those in its parts. -/
theorem mem_numbers_iff {n : Number} {v : Value} (h : v.isComposite = true) :
    n ∈ v.numbers ↔ ∃ part ∈ v.parts, n ∈ part.numbers := by
  cases v with
  | array items => exact mem_numbersOfItems_iff
  | object entries => exact mem_numbersOfEntries_iff
  | _ => cases h

/-- Something holds of all numbers in an array or object if it holds of all numbers in its parts. -/
theorem forall_numbers_iff {P : Number → Prop} {v : Value} (h : v.isComposite = true) :
    (∀ n ∈ v.numbers, P n) ↔ ∀ part ∈ v.parts, ∀ n ∈ part.numbers, P n := by
  simp only [mem_numbers_iff h, forall_exists_index, and_imp]
  exact forall_comm.trans (forall_congr' fun _ => forall_comm)

/-- A proper value is one tree with itself exactly if not-a-number does not occur in it. -/
theorem sameTree_self_iff {v : Value} (h : v.Proper) :
    v.SameTree v ↔ ∀ n ∈ v.numbers, n.isNaN = false := by
  induction v using induction_parts with
  | step v ih =>
    have hparts : (∀ part ∈ v.parts, part.SameTree part) ↔
        ∀ part ∈ v.parts, ∀ n ∈ part.numbers, n.isNaN = false :=
      forall₂_congr fun part hpart => ih part hpart (h.part hpart)
    cases v with
    | absent => exact absurd h.complete.present Bool.noConfusion
    | null => exact iff_of_true .null (by simp [numbers])
    | bool b => exact iff_of_true (.bool b) (by simp [numbers])
    | string s => exact iff_of_true (.string s) (by simp [numbers])
    | number n => simp [sameTree_number_iff, Number.equal_self, numbers]
    | array items =>
      rw [forall_numbers_iff rfl, ← hparts, sameTree_array_iff]
      constructor
      · rintro ⟨-, hitems⟩ part hpart
        obtain ⟨place, hplace⟩ := List.mem_iff_getElem?.mp hpart
        exact hitems place part part hplace hplace
      · intro hself
        refine ⟨rfl, fun place x y hx hy => ?_⟩
        obtain rfl := Option.some.inj (hx.symm.trans hy)
        exact hself x (List.mem_of_getElem? hx)
    | object entries =>
      rw [forall_numbers_iff rfl, ← hparts, sameTree_object_iff]
      constructor
      · rintro ⟨-, hvalues⟩ part hpart
        obtain ⟨⟨key, _⟩, hentry, rfl⟩ := List.mem_map.mp hpart
        exact hvalues key _ _ hentry hentry
      · intro hself
        refine ⟨fun key => Iff.rfl, fun key x y hx hy => ?_⟩
        obtain rfl := eq_of_same_key h.nodup_keys hx hy
        exact hself x (mem_values_of_mem hx)

end Value

end Folio
