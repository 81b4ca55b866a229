import Folio.Proofs.Json.Parts
import Folio.Proofs.Number.Exact
import Folio.Proofs.Value.SameTree

/-!
# Documents there and back

A document that is read and handed out again keeps its shape, its keys and the order of its entries.
Its numbers become doubles, and whole doubles without a gap become integers. What is handed out is
read as what it was, with the positive zero for both zeros.
-/

namespace Folio

namespace Json

/-! ## Documents -/

/-- What a document can hold at one place: integers of 64 bits, finite floats, and objects that do not
repeat a key. -/
def Storable : Json → Prop
  | .integer i => -2 ^ 63 ≤ i ∧ i < 2 ^ 64
  | .float x => x.isFinite = true
  | .object entries => (entries.map Prod.fst).Nodup
  | _ => True

/-- A number that is handed out as it is: an integer among the doubles without a gap, or a float that
is not a whole number among them. -/
def Settled : Json → Prop
  | .integer i => i.natAbs ≤ largestExact
  | .float x => ¬(x.isWhole = true ∧ x.truncate.natAbs ≤ largestExact)
  | _ => True

/-- Whether a document can hold the data at one place is decided there. -/
instance (j : Json) : Decidable j.Storable :=
  match j with
  | .integer i => inferInstanceAs (Decidable (-2 ^ 63 ≤ i ∧ i < 2 ^ 64))
  | .float x => inferInstanceAs (Decidable (x.isFinite = true))
  | .object entries => inferInstanceAs (Decidable (entries.map Prod.fst).Nodup)
  | .null | .bool _ | .string _ | .array _ => .isTrue trivial

/-- Whether a number is handed out as it is is decided by its magnitude. -/
instance (j : Json) : Decidable j.Settled :=
  match j with
  | .integer i => inferInstanceAs (Decidable (i.natAbs ≤ largestExact))
  | .float x => inferInstanceAs (Decidable ¬(x.isWhole = true ∧ x.truncate.natAbs ≤ largestExact))
  | .null | .bool _ | .string _ | .array _ | .object _ => .isTrue trivial

/-- The double that a number is read as. -/
def double? : Json → Option Number
  | .integer i => some (Number.ofInt i)
  | .float x => some x
  | _ => none

/-- JSON data of one shape, with the same keys in the same order, whose numbers are equal as doubles. -/
inductive Alike : Json → Json → Prop
  | null : Alike .null .null
  | bool (b : Bool) : Alike (.bool b) (.bool b)
  | number {j k : Json} {x y : Number} (left : j.double? = some x) (right : k.double? = some y)
      (equal : x.equal y = true) : Alike j k
  | string (s : String) : Alike (.string s) (.string s)
  | array {xs ys : List Json} (items : List.Forall₂ Alike xs ys) : Alike (.array xs) (.array ys)
  | object {xs ys : List (String × Json)} (keys : xs.map Prod.fst = ys.map Prod.fst)
      (values : List.Forall₂ Alike (xs.map Prod.snd) (ys.map Prod.snd)) :
      Alike (.object xs) (.object ys)

mutual

/-- JSON data with each number replaced by what its double is handed out as. -/
def normal : Json → Json
  | .integer i => (Number.ofInt i).toJson
  | .float x => x.toJson
  | .array items => .array (normalItems items)
  | .object entries => .object (normalEntries entries)
  | j => j

/-- The elements of an array with their numbers replaced. -/
def normalItems : List Json → List Json
  | [] => []
  | item :: rest => normal item :: normalItems rest

/-- The entries of an object with their numbers replaced. -/
def normalEntries : List (String × Json) → List (String × Json)
  | [] => []
  | (key, value) :: rest => (key, normal value) :: normalEntries rest

end

/-- Elements are replaced one by one. -/
theorem normalItems_eq (items : List Json) : normalItems items = items.map normal := by
  induction items with
  | nil => rfl
  | cons item rest ih => exact congrArg (item.normal :: ·) ih

/-- Entries are replaced one by one and keep their keys. -/
theorem normalEntries_eq (entries : List (String × Json)) :
    normalEntries entries = entries.map fun entry => (entry.1, entry.2.normal) := by
  induction entries with
  | nil => rfl
  | cons entry rest ih => exact congrArg ((entry.1, entry.2.normal) :: ·) ih

end Json

/-! ## Numbers -/

namespace Number

variable {n : Number} {i : Int}

/-- A finite number is handed out as an integer without a gap, or as itself. -/
theorem toJson_cases (h : n.isFinite = true) :
    (n.isWhole = true ∧ n.truncate.natAbs ≤ largestExact ∧ n.toJson = .integer n.truncate) ∨
      ¬(n.isWhole = true ∧ n.truncate.natAbs ≤ largestExact) ∧ n.toJson = .float n := by
  unfold toJson
  simp only [h, Bool.not_true, Bool.false_eq_true, if_false, Bool.and_eq_true, decide_eq_true_eq]
  split
  next hexact => exact .inl ⟨hexact.1, hexact.2, rfl⟩
  next hexact => exact .inr ⟨hexact, rfl⟩

/-- Zero of either sign is a whole number without a gap. -/
theorem exact_of_isZero (h : n.isZero = true) :
    n.isWhole = true ∧ n.truncate.natAbs ≤ largestExact := by
  cases n with
  | finite negative units hrep =>
    have hnone : units = 0 := beq_iff_eq.mp h
    subst hnone
    simp [isWhole, truncate, natAbs_signed, wholePart]
  | _ => cases h

/-- The JSON of a finite number is read as the number, with the positive zero for both zeros. -/
theorem double?_toJson (h : n.isFinite = true) : n.toJson.double? = some n.mergeZero := by
  rcases toJson_cases h with ⟨hwhole, -, hjson⟩ | ⟨hexact, hjson⟩
  · rw [hjson, Json.double?, ofInt_truncate hwhole]
  · rw [hjson, Json.double?, mergeZero, if_neg (mt exact_of_isZero hexact)]

/-- What a number is handed out as is handed out as it is. -/
theorem settled_toJson (n : Number) : n.toJson.Settled := by
  cases h : n.isFinite with
  | false =>
    rw [toJson, h]
    trivial
  | true =>
    rcases toJson_cases h with ⟨-, hexact, hjson⟩ | ⟨hexact, hjson⟩
    · rw [hjson]
      exact hexact
    · rw [hjson]
      exact hexact

/-- What a number is handed out as can be held by a document. -/
theorem storable_toJson (n : Number) : n.toJson.Storable := by
  cases h : n.isFinite with
  | false =>
    rw [toJson, h]
    trivial
  | true =>
    rcases toJson_cases h with ⟨-, hexact, hjson⟩ | ⟨-, hjson⟩
    · have hlargest : largestExact = 2 ^ 53 - 1 := rfl
      rw [hjson, Json.Storable]
      omega
    · rw [hjson]
      exact h

/-- What a number is handed out as has no parts. -/
theorem parts_toJson (n : Number) : n.toJson.parts = [] := by
  unfold toJson
  split
  · rfl
  · split <;> rfl

/-- Integers without a gap are handed out as they are. -/
theorem toJson_ofInt (h : i.natAbs ≤ largestExact) : (ofInt i).toJson = .integer i := by
  have hle : i.natAbs ≤ 2 ^ 53 := Nat.le_trans h (Nat.sub_le _ _)
  have hequals := equals_ofInt hle
  obtain ⟨hwhole, htruncate⟩ := equals_iff.mp hequals
  rcases toJson_cases hequals.1 with ⟨-, -, hjson⟩ | ⟨hexact, -⟩
  · rw [hjson, htruncate]
  · rw [htruncate] at hexact
    exact absurd ⟨hwhole, h⟩ hexact

end Number

/-! ## Normal documents -/

namespace Json

variable {j : Json}

/-- The parts are replaced one by one. -/
theorem parts_normal (j : Json) : j.normal.parts = j.parts.map normal := by
  cases j with
  | integer i => exact Number.parts_toJson (.ofInt i)
  | float x => exact Number.parts_toJson x
  | array items => exact normalItems_eq items
  | object entries =>
    change (normalEntries entries).map Prod.snd = (entries.map Prod.snd).map normal
    rw [normalEntries_eq, List.map_map, List.map_map]
    rfl
  | _ => rfl

/-- The keys of entries stay as they are. -/
theorem keys_normalEntries (entries : List (String × Json)) :
    (normalEntries entries).map Prod.fst = entries.map Prod.fst := by
  rw [normalEntries_eq, List.map_map]
  rfl

/-- All numbers are handed out as they are after they have been handed out once. -/
theorem settled_normal (j : Json) : j.normal.Everywhere Settled := by
  induction j using induction_parts with
  | step j ih =>
    refine .intro ?_ ?_
    · cases j with
      | integer i =>
        rw [normal]
        generalize Number.ofInt i = n
        exact n.settled_toJson
      | float x => exact x.settled_toJson
      | _ => trivial
    · rw [parts_normal]
      exact List.forall_mem_map.mpr ih

/-- What is handed out for a document can be held by a document. -/
theorem storable_normal (h : j.Everywhere Storable) : j.normal.Everywhere Storable := by
  induction j using induction_parts with
  | step j ih =>
    obtain ⟨hhere, hparts⟩ := h
    refine .intro ?_ ?_
    · cases j with
      | integer i =>
        rw [normal]
        generalize Number.ofInt i = n
        exact n.storable_toJson
      | float x => exact x.storable_toJson
      | object entries =>
        change ((normalEntries entries).map Prod.fst).Nodup
        rw [keys_normalEntries]
        exact hhere
      | _ => trivial
    · rw [parts_normal]
      exact List.forall_mem_map.mpr fun part hpart => ih part hpart (hparts part hpart)

/-- A document is handed out as it is exactly if its numbers are. -/
theorem normal_eq_self_iff (h : j.Everywhere Storable) : j.normal = j ↔ j.Everywhere Settled := by
  -- what has been handed out once is settled, so data that is handed out as it is is settled, too
  refine ⟨fun hself => hself ▸ settled_normal j, fun hsettled => ?_⟩
  induction j using induction_parts with
  | step j ih =>
    obtain ⟨hstorable, hparts⟩ := h
    obtain ⟨hhere, hsettled⟩ := hsettled
    have hpart : ∀ part ∈ j.parts, part.normal = part := fun part hpart =>
      ih part hpart (hparts part hpart) (hsettled part hpart)
    cases j with
    | integer i => exact Number.toJson_ofInt hhere
    | float x =>
      rcases Number.toJson_cases hstorable with ⟨hwhole, hexact, -⟩ | ⟨-, hjson⟩
      · exact absurd ⟨hwhole, hexact⟩ hhere
      · exact hjson
    | array items =>
      have hsame : ∀ item ∈ items, item.normal = item := hpart
      rw [normal, normalItems_eq, List.map_congr_left hsame, List.map_id']
    | object entries =>
      have hsame : ∀ entry ∈ entries, (entry.1, entry.2.normal) = entry := fun entry hentry =>
        Prod.ext rfl (hpart entry.2 (List.mem_map_of_mem hentry))
      rw [normal, normalEntries_eq, List.map_congr_left hsame, List.map_id']
    | _ => rfl

/-- The doubles of a document are finite. -/
theorem isFinite_of_double? {x : Number} (h : j.Storable) (hj : j.double? = some x) :
    x.isFinite = true := by
  cases j with
  | integer i =>
    obtain ⟨hlow, hhigh⟩ := h
    rw [← Option.some.inj hj]
    exact Number.isFinite_ofInt (by omega)
  | float y =>
    cases hj
    exact h
  | _ => cases hj

/-- The numbers that are handed out are equal to those of the document as doubles. -/
theorem alike_toJson {x : Number} (h : j.Storable) (hj : j.double? = some x) : j.Alike x.toJson := by
  have hfinite := isFinite_of_double? h hj
  refine .number hj (Number.double?_toJson hfinite) (Number.equal_mergeZero ?_)
  cases x with
  | nan => cases hfinite
  | _ => rfl

/-- A document and what is handed out for it are alike. -/
theorem alike_normal (h : j.Everywhere Storable) : j.Alike j.normal := by
  induction j using induction_parts with
  | step j ih =>
    obtain ⟨hhere, hparts⟩ := h
    have hpart : ∀ part ∈ j.parts, part.Alike part.normal := fun part hpart =>
      ih part hpart (hparts part hpart)
    cases j with
    | null => exact .null
    | bool b => exact .bool b
    | string s => exact .string s
    | integer i => exact alike_toJson hhere rfl
    | float x => exact alike_toJson hhere rfl
    | array items =>
      rw [normal, normalItems_eq]
      exact .array (List.forall₂_map_right_iff.mpr (List.forall₂_same.mpr hpart))
    | object entries =>
      have hvalues : (normalEntries entries).map Prod.snd = (entries.map Prod.snd).map normal :=
        parts_normal (.object entries)
      refine .object (keys_normalEntries entries).symm ?_
      rw [hvalues]
      exact List.forall₂_map_right_iff.mpr (List.forall₂_same.mpr hpart)

end Json

namespace Value

/-! ## From documents to values and back -/

/-- The elements of an array are handed out one by one. -/
theorem toJsonItems_ofJsonItems {items : List Json}
    (h : ∀ item ∈ items, (ofJson item).toJson? = some item.normal) :
    toJsonItems (ofJsonItems items) = Json.normalItems items := by
  induction items with
  | nil => rfl
  | cons item rest ih =>
    obtain ⟨hitem, hrest⟩ := List.forall_mem_cons.mp h
    rw [ofJsonItems, toJsonItems, hitem, ih hrest]
    rfl

/-- The entries of an object are handed out one by one. -/
theorem toJsonEntries_ofJsonEntries {entries : List (String × Json)}
    (h : ∀ part ∈ entries.map Prod.snd, (ofJson part).toJson? = some part.normal) :
    toJsonEntries (ofJsonEntries entries) = Json.normalEntries entries := by
  induction entries with
  | nil => rfl
  | cons entry rest ih =>
    obtain ⟨hentry, hrest⟩ := List.forall_mem_cons.mp h
    rw [ofJsonEntries, toJsonEntries, hentry, ih hrest]
    rfl

/-- A document is handed out with its numbers replaced. -/
theorem toJson?_ofJson {j : Json} (h : j.Everywhere Json.Storable) :
    (ofJson j).toJson? = some j.normal := by
  induction j using Json.induction_parts with
  | step j ih =>
    obtain ⟨hhere, hparts⟩ := h
    have hpart : ∀ part ∈ j.parts, (ofJson part).toJson? = some part.normal := fun part hpart =>
      ih part hpart (hparts part hpart)
    cases j with
    | array items =>
      have hitems : ∀ item ∈ items, (ofJson item).toJson? = some item.normal := hpart
      rw [ofJson, toJson?, toJsonItems_ofJsonItems hitems, Json.normal]
    | object entries =>
      have hkeys : ((Json.normalEntries entries).map Prod.fst).Nodup := by
        rw [Json.keys_normalEntries]
        exact hhere
      rw [ofJson, toJson?, toJsonEntries_ofJsonEntries hpart, Entries.ofList_eq_self_iff.mpr hkeys,
        Json.normal]
    | _ => rfl

/-! ## From values to documents and back -/

mutual

/-- A value with each number turned into another one. -/
def mapNumbers (f : Number → Number) : Value → Value
  | .number n => .number (f n)
  | .array items => .array (mapNumbersOfItems f items)
  | .object entries => .object (mapNumbersOfEntries f entries)
  | v => v

/-- The elements of an array with each number turned into another one. -/
def mapNumbersOfItems (f : Number → Number) : List Value → List Value
  | [] => []
  | item :: rest => mapNumbers f item :: mapNumbersOfItems f rest

/-- The entries of an object with each number turned into another one. -/
def mapNumbersOfEntries (f : Number → Number) : List (String × Value) → List (String × Value)
  | [] => []
  | (key, value) :: rest => (key, mapNumbers f value) :: mapNumbersOfEntries f rest

end

/-- The value is handed out, and read again it is the same but for the sign of zero. -/
def ReadsBack (v : Value) : Prop := ∃ j, v.toJson? = some j ∧ ofJson j = v.mapNumbers Number.mergeZero

/-- Finite numbers are read back. -/
theorem readsBack_number {n : Number} (h : n.isFinite = true) : (number n).ReadsBack := by
  refine ⟨n.toJson, rfl, ?_⟩
  have hdouble := Number.double?_toJson h
  cases hjson : n.toJson with
  | integer i =>
    rw [hjson] at hdouble
    exact congrArg number (Option.some.inj hdouble)
  | float x =>
    rw [hjson] at hdouble
    exact congrArg number (Option.some.inj hdouble)
  | _ =>
    rw [hjson] at hdouble
    cases hdouble

/-- The elements of an array are read back one by one. -/
theorem ofJsonItems_toJsonItems {items : List Value} (h : ∀ item ∈ items, item.ReadsBack) :
    ofJsonItems (toJsonItems items) = mapNumbersOfItems Number.mergeZero items := by
  induction items with
  | nil => rfl
  | cons item rest ih =>
    obtain ⟨⟨j, hjson, hback⟩, hrest⟩ := List.forall_mem_cons.mp h
    rw [toJsonItems, hjson, Option.getD_some, ofJsonItems, hback, ih hrest, mapNumbersOfItems]

/-- The entries of an object are read back one by one, under the same keys. -/
theorem ofJsonEntries_toJsonEntries {entries : List (String × Value)}
    (h : ∀ part ∈ entries.map Prod.snd, part.ReadsBack) :
    (toJsonEntries entries).map Prod.fst = entries.map Prod.fst ∧
      ofJsonEntries (toJsonEntries entries) = mapNumbersOfEntries Number.mergeZero entries := by
  induction entries with
  | nil => exact ⟨rfl, rfl⟩
  | cons entry rest ih =>
    obtain ⟨key, value⟩ := entry
    obtain ⟨⟨j, hjson, hback⟩, hrest⟩ := List.forall_mem_cons.mp h
    obtain ⟨hkeys, hvalues⟩ := ih hrest
    have hfirst : toJsonEntries ((key, value) :: rest) = (key, j) :: toJsonEntries rest := by
      rw [toJsonEntries, hjson]
    rw [hfirst, List.map_cons, List.map_cons, hkeys, ofJsonEntries, hback, hvalues,
      mapNumbersOfEntries]
    exact ⟨rfl, rfl⟩

/-- Values in which nothing is absent, no key is repeated and all numbers are finite are read back. -/
theorem readsBack_of_proper {v : Value} (h : v.Proper)
    (hnumbers : ∀ n ∈ v.numbers, n.isFinite = true) : v.ReadsBack := by
  induction v using induction_parts with
  | step v ih =>
    have hpart (hcomposite : v.isComposite = true) : ∀ part ∈ v.parts, part.ReadsBack :=
      fun part hpart =>
        ih part hpart (h.part hpart) ((forall_numbers_iff hcomposite).mp hnumbers part hpart)
    cases v with
    | absent => exact absurd h.complete.present Bool.noConfusion
    | number n => exact readsBack_number (hnumbers n List.mem_cons_self)
    | array items =>
      exact ⟨_, rfl, congrArg array (ofJsonItems_toJsonItems (hpart rfl))⟩
    | object entries =>
      obtain ⟨hkeys, hback⟩ := ofJsonEntries_toJsonEntries (hpart rfl)
      have hsame : Entries.ofList (toJsonEntries entries) = toJsonEntries entries :=
        Entries.ofList_eq_self_iff.mpr (hkeys ▸ h.nodup_keys)
      refine ⟨_, rfl, ?_⟩
      rw [hsame]
      exact congrArg object hback
    | _ => exact ⟨_, rfl, rfl⟩

/-- **Documents survive.**

* A document is handed out as a document of the same shape, with the same keys in the same order and
  with numbers that are equal as doubles. It is the document itself exactly if each number is an integer
  among the doubles without a gap, or a float that is not a whole number among them. Reading and handing
  it out again changes nothing.
* A value in which nothing is absent, no key is repeated and all numbers are finite is read back as it
  was, with the positive zero for both zeros. -/
theorem document_round_trip :
    (∀ j : Json, j.Everywhere Json.Storable → ∃ k, (ofJson j).toJson? = some k ∧ j.Alike k ∧
      k.Everywhere Json.Storable ∧ (k = j ↔ j.Everywhere Json.Settled) ∧
      (ofJson k).toJson? = some k) ∧
    ∀ v : Value, v.Complete → v.Keyed → (∀ n ∈ v.numbers, n.isFinite = true) →
      ∃ j, v.toJson? = some j ∧ ofJson j = v.mapNumbers Number.mergeZero := by
  refine ⟨fun j hj => ⟨j.normal, toJson?_ofJson hj, Json.alike_normal hj, Json.storable_normal hj,
    Json.normal_eq_self_iff hj, ?_⟩, fun v hcomplete hkeyed => readsBack_of_proper ⟨hcomplete, hkeyed⟩⟩
  have hstorable := Json.storable_normal hj
  rw [toJson?_ofJson hstorable, (Json.normal_eq_self_iff hstorable).mpr (Json.settled_normal j)]

/-- An integer above those without a gap and the negative zero are handed out as other numbers, which
are handed out as they are. The negative zero of a value is read back as the positive one. -/
theorem document_round_trip_gap_and_zero :
    (∃ k, (ofJson (.object [("b", .array [.integer (2 ^ 53), .float (.signedZero true)]),
        ("a", .null)])).toJson? = some k ∧
      k ≠ .object [("b", .array [.integer (2 ^ 53), .float (.signedZero true)]), ("a", .null)] ∧
      (ofJson k).toJson? = some k) ∧
    ∃ j, (object [("z", number (.signedZero true)), ("y", array [])]).toJson? = some j ∧
      ofJson j = object [("z", number .zero), ("y", array [])] := by
  obtain ⟨hdocuments, hvalues⟩ := document_round_trip
  refine ⟨?_, ?_⟩
  · have hitems : (Json.array [.integer (2 ^ 53), .float (.signedZero true)]).Everywhere
        Json.Storable :=
      .intro trivial (List.forall_mem_cons.mpr ⟨Json.everywhere_of_plain (by decide) rfl,
        List.forall_mem_singleton.mpr (Json.everywhere_of_plain rfl rfl)⟩)
    obtain ⟨k, hjson, -, -, hsame, hagain⟩ := hdocuments
      (.object [("b", .array [.integer (2 ^ 53), .float (.signedZero true)]), ("a", .null)])
      (.intro (by decide) (List.forall_mem_cons.mpr ⟨hitems,
        List.forall_mem_singleton.mpr (Json.everywhere_of_plain trivial rfl)⟩))
    refine ⟨k, hjson, fun heq => ?_, hagain⟩
    obtain ⟨-, hparts⟩ := hsame.mp heq
    obtain ⟨-, hitems⟩ := hparts _ List.mem_cons_self
    obtain ⟨hinteger, -⟩ := hitems _ List.mem_cons_self
    exact absurd hinteger (by decide)
  · have hproper : (object [("z", number (.signedZero true)), ("y", array [])]).Proper :=
      proper_object (by decide) (List.forall_mem_cons.mpr ⟨proper_of_plain rfl rfl,
        List.forall_mem_singleton.mpr (proper_array (List.forall_mem_nil _))⟩)
    exact hvalues _ hproper.complete hproper.keyed (List.forall_mem_singleton.mpr rfl)

end Value

end Folio
