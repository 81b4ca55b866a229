import Folio.Paging.Token
import Folio.Proofs.Json.NumberValue
import Folio.Proofs.Json.Written
import Folio.Proofs.Text.Base64Url
import Folio.Proofs.Text.Utf8

/-!
# Tokens carry checkpoints

A token is read as the checkpoint that it was written for, if the numbers in the checkpoint read
back, its values do not nest too deep for the reader and its counters fit 64 bits. The tags of the
kinds keep null and absence apart, and objects keep repeated keys.
-/

namespace Folio

/-- Whether the JSON text of a number is read as the number. -/
def Number.readsBack (n : Number) : Bool :=
  decide ((Json.NumberText.ofChars? n.json.toList).bind Json.NumberText.number? = some n)

/-- **Short numbers read back.** -/
theorem Number.readsBack_of_isShort {n : Number} (h : n.isShort = true) : n.readsBack = true :=
  decide_eq_true (number?_json_of_writtenExactly (writtenExactly_of_isShort h))

/-- A whole number of sixteen places may be read as its neighbour. -/
example : (Number.ofDecimal false ⟨800000000000002, 1⟩).readsBack = false := by decide +kernel

/-- The kind with the tag of a kind is that kind. -/
theorem Kind.ofTag?_tag (k : Kind) : ofTag? k.tag = some k := by
  cases k <;> decide

/-- The parts of a text in quotes stand for the text. -/
theorem Json.quotedText?_partsOf (text : String) : quotedText? (partsOf text) = some text := by
  rw [quotedText?, partsOf, readable_escaping.textOfParts?_partsOf, Option.map_some,
    String.ofList_toList]

/-- Inside a container one level less remains. -/
theorem inside?_of_pos {depth : Nat} (h : 0 < depth) : inside? depth = some (depth - 1) := by
  cases depth with
  | zero => omega
  | succ depth => rfl

namespace Value

mutual

/-- Whether a token can carry a value with containers nested to the depth. -/
def carried (depth : Nat) : Value → Bool
  | .absent => true
  | .null => true
  | .bool _ => 0 < depth
  | .number n => 0 < depth && n.readsBack
  | .string _ => 0 < depth
  | .array items => 2 ≤ depth && itemsCarried (depth - 2) items
  | .object entries => 2 ≤ depth && entriesCarried (depth - 2) entries

/-- Whether a token can carry each element of an array. -/
def itemsCarried (depth : Nat) : List Value → Bool
  | [] => true
  | item :: rest => carried depth item && itemsCarried depth rest

/-- Whether a token can carry each entry of an object, a pair in a container of its own. -/
def entriesCarried (depth : Nat) : List (String × Value) → Bool
  | [] => true
  | (_, value) :: rest =>
    0 < depth && carried (depth - 1) value && entriesCarried depth rest

end

open Json (tree itemTrees quotedText?_partsOf)

/-- A kind that has only one value is read from its tag. -/
theorem ofWritten?_tag {k : Kind} {v : Value} (h : ofKind? k = some v) (depth : Nat) :
    ofWritten? depth (tree (.string k.tag)) = some v := by
  simp [tree, ofWritten?, quotedText?_partsOf, Kind.ofTag?_tag, h]

/-- A value of another kind is read from its tag and its body. -/
theorem ofWritten?_body {depth : Nat} (hdepth : 0 < depth) (k : Kind) (body : Json) :
    ofWritten? depth (tree (.object [(k.tag, body)])) = ofBody? (depth - 1) k (tree body) := by
  simp [tree, Json.memberTrees, ofWritten?, quotedText?_partsOf, Kind.ofTag?_tag,
    inside?_of_pos hdepth]

/-- A number that reads back is read from its text. -/
theorem ofBody?_number {n : Number} (h : n.readsBack = true) (depth : Nat) :
    ofBody? depth .number (Json.floatTree n) = some (.number n) := by
  have hreads := of_decide_eq_true h
  obtain ⟨text, htext, hvalue⟩ := Option.bind_eq_some_iff.mp hreads
  simp [Json.floatTree, htext, ofBody?, hvalue]

mutual

/-- A value that is carried is read from its tagged form. -/
theorem ofWritten?_tagged {depth : Nat} {v : Value} (h : v.carried depth = true) :
    ofWritten? depth (tree v.tagged) = some v := by
  match v with
  | .absent => exact ofWritten?_tag rfl depth
  | .null => exact ofWritten?_tag rfl depth
  | .bool b =>
    have hdepth : 0 < depth := by simpa [carried] using h
    rw [tagged, ofWritten?_body hdepth, tree, ofBody?]
  | .number n =>
    obtain ⟨hdepth, hreads⟩ : 0 < depth ∧ n.readsBack = true := by simpa [carried] using h
    rw [tagged, ofWritten?_body hdepth, tree, ofBody?_number hreads]
  | .string s =>
    have hdepth : 0 < depth := by simpa [carried] using h
    rw [tagged, ofWritten?_body hdepth, tree, ofBody?, quotedText?_partsOf]
    rfl
  | .array items =>
    obtain ⟨hdepth, hitems⟩ : 2 ≤ depth ∧ itemsCarried (depth - 2) items = true := by
      simpa [carried] using h
    have hread := ofWrittenItems?_tagged hitems
    rw [tagged, ofWritten?_body (by omega), tree, ofBody?, inside?_of_pos (by omega)]
    simp [Nat.sub_sub, hread]
  | .object entries =>
    obtain ⟨hdepth, hentries⟩ : 2 ≤ depth ∧ entriesCarried (depth - 2) entries = true := by
      simpa [carried] using h
    have hread := ofWrittenPairs?_tagged hentries
    rw [tagged, ofWritten?_body (by omega), tree, ofBody?, inside?_of_pos (by omega)]
    simp [Nat.sub_sub, hread]

/-- Elements that are carried are read from their tagged forms. -/
theorem ofWrittenItems?_tagged {depth : Nat} {items : List Value}
    (h : itemsCarried depth items = true) :
    ofWrittenItems? depth (itemTrees (taggedItems items)) = some items := by
  match items with
  | [] => rfl
  | item :: rest =>
    obtain ⟨hitem, hrest⟩ : item.carried depth = true ∧ itemsCarried depth rest = true := by
      simpa [itemsCarried] using h
    simp [taggedItems, itemTrees, ofWrittenItems?, ofWritten?_tagged hitem,
      ofWrittenItems?_tagged hrest]

/-- Entries that are carried are read from their pairs. -/
theorem ofWrittenPairs?_tagged {depth : Nat} {entries : List (String × Value)}
    (h : entriesCarried depth entries = true) :
    ofWrittenPairs? depth (itemTrees (taggedEntries entries)) = some entries := by
  match entries with
  | [] => rfl
  | (key, value) :: rest =>
    obtain ⟨⟨hdepth, hvalue⟩, hrest⟩ :
        (0 < depth ∧ value.carried (depth - 1) = true) ∧ entriesCarried depth rest = true := by
      simpa [entriesCarried] using h
    simp [taggedEntries, itemTrees, tree, ofWrittenPairs?, quotedText?_partsOf,
      inside?_of_pos hdepth, ofWritten?_tagged hvalue, ofWrittenPairs?_tagged hrest]

end

end Value

namespace Checkpoint

open Json (tree itemTrees memberTrees partsOf quotedText?_partsOf)

/-- Whether a token can carry a checkpoint. -/
def carried (c : Checkpoint) : Bool :=
  c.identifier.carried (tokenDepth - 1) && c.resume.all (Value.itemsCarried (tokenDepth - 2)) &&
    decide (c.round < UInt64.size ∧ c.skip < UInt64.size ∧ c.total < UInt64.size)

/-- A counter that fits 64 bits is read back. -/
theorem counter?_integer {n : Nat} (h : n < UInt64.size) :
    counter? (tree (.integer n)) = some n := by
  have hsign : decide ((n : Int) < 0) = false := by simp
  rw [tree, counter?, Json.integerText, hsign, Int.natAbs_natCast]
  exact Json.NumberText.natural?_digitChars h

/-- The members of an object have the names that their keys were written for. -/
theorem named?_memberTrees (entries : List (String × Json)) :
    named? (memberTrees entries) = some (entries.map fun entry => (entry.1, tree entry.2)) := by
  induction entries with
  | nil => rfl
  | cons entry entries ih =>
    unfold named? at ih ⊢
    simp [memberTrees, quotedText?_partsOf, ih]

/-- Sort keys that are carried are read back. -/
theorem resume?_tagged {depth inner : Nat} (hinside : inside? depth = some inner)
    {keys : List Value} (h : Value.itemsCarried inner keys = true) :
    resume? depth (tree (.array (Value.taggedItems keys))) = some (some keys) := by
  simp [tree, resume?, hinside, Value.ofWrittenItems?_tagged h]

/-- The written form of a checkpoint is read field by field. -/
theorem ofWritten?_toJson_eq (c : Checkpoint) :
    ofWritten? (tree c.toJson) =
      ofFields? (tokenDepth - 1) (tree c.identifier.tagged) (tree (.integer c.round))
        (tree (.integer c.skip)) (tree (.integer c.total))
        (c.resume.map fun keys => tree (.array (Value.taggedItems keys))) := by
  obtain ⟨identifier, round, skip, total, resume⟩ := c
  have hinside : inside? tokenDepth = some (tokenDepth - 1) := rfl
  -- the names of the fields are told apart by evaluation
  cases resume with
  | none =>
    simp only [toJson, tree, ofWritten?, hinside, named?_memberTrees]
    rfl
  | some keys =>
    simp only [toJson, tree, ofWritten?, hinside, named?_memberTrees]
    rfl

/-- A checkpoint that is carried is read from its written form. -/
theorem ofWritten?_toJson {c : Checkpoint} (h : c.carried = true) :
    ofWritten? (tree c.toJson) = some c := by
  obtain ⟨identifier, round, skip, total, resume⟩ := c
  simp only [carried, Bool.and_eq_true, decide_eq_true_eq] at h
  obtain ⟨⟨hidentifier, hresume⟩, hround, hskip, htotal⟩ := h
  have hread := Value.ofWritten?_tagged hidentifier
  rw [ofWritten?_toJson_eq]
  cases resume with
  | none =>
    simp [ofFields?, hread, counter?_integer hround, counter?_integer hskip,
      counter?_integer htotal]
  | some keys =>
    have hinside : inside? (tokenDepth - 1) = some (tokenDepth - 2) := rfl
    have hkeys := resume?_tagged hinside hresume
    simp [ofFields?, hread, counter?_integer hround, counter?_integer hskip,
      counter?_integer htotal, hkeys]

/-- A token is read as what the written form of its checkpoint is read as. -/
theorem ofToken_token_eq (c : Checkpoint) :
    ofToken c.token = (ofWritten? (tree c.toJson)).elim (.error .malformed) .ok := by
  unfold ofToken token
  rw [Text.Base64Url.trim_encode, Text.Base64Url.decode?_encode]
  simp only [Text.charsOfBytes_bytes, Json.read?_chars, Option.bind_some]
  cases ofWritten? (tree c.toJson) <;> rfl

/-- **Tokens carry checkpoints.** -/
theorem ofToken_token {c : Checkpoint} (h : c.carried = true) : ofToken c.token = .ok c := by
  rw [ofToken_token_eq, ofWritten?_toJson h, Option.elim_some]

end Checkpoint

end Folio
