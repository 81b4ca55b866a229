import Folio.Proofs.Paging.Token

/-!
# What a token carries

A token is read as its checkpoint exactly if its JSON text nests within the reader's limit, every
number in the checkpoint is read back from its own text and the counters fit 64 bits. A text that
nests deeper, or a number that is not finite and so was written as null, makes the token malformed.
-/

namespace Folio

namespace Json

mutual

/-- The number of containers that are nested in JSON data. -/
def nesting : Json → Nat
  | .null => 0
  | .bool _ => 0
  | .integer _ => 0
  | .float _ => 0
  | .string _ => 0
  | .array items => 1 + nestingItems items
  | .object entries => 1 + nestingEntries entries

/-- The greatest nesting of an element of an array. -/
def nestingItems : List Json → Nat
  | [] => 0
  | item :: rest => max (nesting item) (nestingItems rest)

/-- The greatest nesting of the value of an entry. -/
def nestingEntries : List (String × Json) → Nat
  | [] => 0
  | (_, item) :: rest => max (nesting item) (nestingEntries rest)

end

end Json

namespace Value

mutual

/-- The numbers that occur in a value. -/
def numbers : Value → List Number
  | .absent => []
  | .null => []
  | .bool _ => []
  | .number n => [n]
  | .string _ => []
  | .array items => numbersOfItems items
  | .object entries => numbersOfEntries entries

/-- The numbers that occur in the elements of an array. -/
def numbersOfItems : List Value → List Number
  | [] => []
  | item :: rest => numbers item ++ numbersOfItems rest

/-- The numbers that occur in the values of entries. -/
def numbersOfEntries : List (String × Value) → List Number
  | [] => []
  | (_, value) :: rest => numbers value ++ numbersOfEntries rest

end

open Json (nesting nestingItems nestingEntries)

/-! ## Values that nest within the limit -/

mutual

/-- A value is carried if its tagged form nests within the depth and its numbers read back. -/
theorem carried_of_nesting_le {depth : Nat} {v : Value} (hdepth : v.tagged.nesting ≤ depth)
    (hnumbers : ∀ n ∈ v.numbers, n.readsBack = true) : v.carried depth = true := by
  match v with
  | .absent => rfl
  | .null => rfl
  | .bool _ | .string _ =>
    have hpos : 0 < depth := by
      simp only [tagged, nesting, nestingEntries] at hdepth
      omega
    simpa [carried] using hpos
  | .number n =>
    have hpos : 0 < depth := by
      simp only [tagged, nesting, nestingEntries] at hdepth
      omega
    have hreads := hnumbers n (by simp [numbers])
    simp [carried, hpos, hreads]
  | .array items =>
    simp only [tagged, nesting, nestingEntries] at hdepth
    have hitems : itemsCarried (depth - 2) items = true :=
      itemsCarried_of_nesting_le (by omega) (by simpa [numbers] using hnumbers)
    have htwo : 2 ≤ depth := by omega
    simp [carried, htwo, hitems]
  | .object entries =>
    simp only [tagged, nesting, nestingEntries] at hdepth
    have hentries : entriesCarried (depth - 2) entries = true :=
      entriesCarried_of_nesting_le (by omega) (by simpa [numbers] using hnumbers)
    have htwo : 2 ≤ depth := by omega
    simp [carried, htwo, hentries]

/-- Elements are carried if their tagged forms nest within the depth and their numbers read back. -/
theorem itemsCarried_of_nesting_le {depth : Nat} {items : List Value}
    (hdepth : nestingItems (taggedItems items) ≤ depth)
    (hnumbers : ∀ n ∈ numbersOfItems items, n.readsBack = true) :
    itemsCarried depth items = true := by
  match items with
  | [] => rfl
  | item :: rest =>
    simp only [taggedItems, nestingItems] at hdepth
    simp only [numbersOfItems, List.mem_append] at hnumbers
    have hitem : item.carried depth = true :=
      carried_of_nesting_le (by omega) fun n hn => hnumbers n (Or.inl hn)
    have hrest : itemsCarried depth rest = true :=
      itemsCarried_of_nesting_le (by omega) fun n hn => hnumbers n (Or.inr hn)
    simp [itemsCarried, hitem, hrest]

/-- Entries are carried if their pairs nest within the depth and their numbers read back. -/
theorem entriesCarried_of_nesting_le {depth : Nat} {entries : List (String × Value)}
    (hdepth : nestingItems (taggedEntries entries) ≤ depth)
    (hnumbers : ∀ n ∈ numbersOfEntries entries, n.readsBack = true) :
    entriesCarried depth entries = true := by
  match entries with
  | [] => rfl
  | (key, value) :: rest =>
    simp only [taggedEntries, nestingItems, nesting] at hdepth
    simp only [numbersOfEntries, List.mem_append] at hnumbers
    have hvalue : value.carried (depth - 1) = true :=
      carried_of_nesting_le (by omega) fun n hn => hnumbers n (Or.inl hn)
    have hrest : entriesCarried depth rest = true :=
      entriesCarried_of_nesting_le (by omega) fun n hn => hnumbers n (Or.inr hn)
    have hpos : 0 < depth := by omega
    simp [entriesCarried, hpos, hvalue, hrest]

end

/-! ## Values that are read -/

open Json (tree itemTrees memberTrees)

/-- What is read within a container was written with a level to spare. -/
theorem exists_of_inside? {depth inner : Nat} (h : inside? depth = some inner) :
    depth = inner + 1 := by
  cases depth with
  | zero => cases h
  | succ depth => rw [Option.some.inj h]

/-- A tagged body is read only within the container of its tag. -/
theorem exists_of_ofWritten?_body {depth : Nat} {k : Kind} {body : Json} {w : Value}
    (h : ofWritten? depth (tree (.object [(k.tag, body)])) = some w) :
    0 < depth ∧ ofBody? (depth - 1) k (tree body) = some w := by
  cases depth with
  | zero => simp [tree, memberTrees, ofWritten?, inside?] at h
  | succ depth =>
    rw [ofWritten?_body (Nat.succ_pos depth)] at h
    exact ⟨Nat.succ_pos depth, h⟩

/-- The text of a number is read only if the number is finite, and as the number only if it reads
back. -/
theorem readsBack_of_ofBody?_number {depth : Nat} {n : Number} {w : Value}
    (h : ofBody? depth .number (Json.floatTree n) = some w) :
    n.isFinite = true ∧ (w = .number n → n.readsBack = true) := by
  unfold Json.floatTree at h
  cases htext : Json.NumberText.ofChars? n.json.toList with
  | none => simp [htext, ofBody?, ofKind?] at h
  | some text =>
    have hfinite : n.isFinite = true := by
      by_contra hnot
      rw [Json.NumberText.json_eq_null (by simpa using hnot)] at htext
      cases htext
    refine ⟨hfinite, ?_⟩
    rintro rfl
    obtain ⟨x, hx, hw⟩ : ∃ x, text.number? = some x ∧ x = n := by
      simpa [htext, ofBody?, Option.bind_eq_some_iff] using h
    simp [Number.readsBack, htext, hx, hw]

mutual

/-- A tagged value that is read nests within the depth and has finite numbers only, and it is read
as itself only if these read back. -/
theorem of_ofWritten?_tagged {depth : Nat} {v w : Value}
    (h : ofWritten? depth (tree v.tagged) = some w) :
    v.tagged.nesting ≤ depth ∧
      ∀ n ∈ v.numbers, n.isFinite = true ∧ (w = v → n.readsBack = true) := by
  match v with
  | .absent => exact ⟨Nat.zero_le depth, by simp [numbers]⟩
  | .null => exact ⟨Nat.zero_le depth, by simp [numbers]⟩
  | .bool _ | .string _ =>
    rw [tagged] at h
    obtain ⟨hpos, -⟩ := exists_of_ofWritten?_body h
    refine ⟨?_, by simp [numbers]⟩
    simp only [tagged, nesting, nestingEntries]
    omega
  | .number n =>
    rw [tagged] at h
    obtain ⟨hpos, hbody⟩ := exists_of_ofWritten?_body h
    have hnumber := readsBack_of_ofBody?_number hbody
    refine ⟨?_, by simpa [numbers] using hnumber⟩
    simp only [tagged, nesting, nestingEntries]
    omega
  | .array items =>
    rw [tagged] at h
    obtain ⟨hpos, hbody⟩ := exists_of_ofWritten?_body h
    obtain ⟨inner, hinner, ws, hws, hw⟩ : ∃ inner, inside? (depth - 1) = some inner ∧
        ∃ ws, ofWrittenItems? inner (itemTrees (taggedItems items)) = some ws ∧ .array ws = w := by
      simpa [tree, ofBody?, Option.bind_eq_some_iff] using hbody
    have hdepth := exists_of_inside? hinner
    obtain ⟨hnesting, hnumbers⟩ := of_ofWrittenItems?_tagged hws
    refine ⟨?_, fun n hn => ?_⟩
    · simp only [tagged, nesting, nestingEntries]
      omega
    · obtain ⟨hfinite, hreads⟩ := hnumbers n (by simpa [numbers] using hn)
      refine ⟨hfinite, fun hself => hreads ?_⟩
      simpa using hw.trans hself
  | .object entries =>
    rw [tagged] at h
    obtain ⟨hpos, hbody⟩ := exists_of_ofWritten?_body h
    obtain ⟨inner, hinner, ws, hws, hw⟩ : ∃ inner, inside? (depth - 1) = some inner ∧
        ∃ ws, ofWrittenPairs? inner (itemTrees (taggedEntries entries)) = some ws ∧
          .object ws = w := by
      simpa [tree, ofBody?, Option.bind_eq_some_iff] using hbody
    have hdepth := exists_of_inside? hinner
    obtain ⟨hnesting, hnumbers⟩ := of_ofWrittenPairs?_tagged hws
    refine ⟨?_, fun n hn => ?_⟩
    · simp only [tagged, nesting, nestingEntries]
      omega
    · obtain ⟨hfinite, hreads⟩ := hnumbers n (by simpa [numbers] using hn)
      refine ⟨hfinite, fun hself => hreads ?_⟩
      simpa using hw.trans hself

/-- Tagged elements that are read nest within the depth and have finite numbers only, and they are
read as themselves only if these read back. -/
theorem of_ofWrittenItems?_tagged {depth : Nat} {items ws : List Value}
    (h : ofWrittenItems? depth (itemTrees (taggedItems items)) = some ws) :
    nestingItems (taggedItems items) ≤ depth ∧
      ∀ n ∈ numbersOfItems items, n.isFinite = true ∧ (ws = items → n.readsBack = true) := by
  match items with
  | [] => exact ⟨Nat.zero_le depth, by simp [numbersOfItems]⟩
  | item :: rest =>
    obtain ⟨w, hw, others, hothers, hws⟩ : ∃ w, ofWritten? depth (tree item.tagged) = some w ∧
        ∃ others, ofWrittenItems? depth (itemTrees (taggedItems rest)) = some others ∧
          w :: others = ws := by
      simpa [taggedItems, itemTrees, ofWrittenItems?, Option.bind_eq_some_iff] using h
    obtain ⟨hitem, hitemNumbers⟩ := of_ofWritten?_tagged hw
    obtain ⟨hrest, hrestNumbers⟩ := of_ofWrittenItems?_tagged hothers
    refine ⟨by simp only [taggedItems, nestingItems]; omega, fun n hn => ?_⟩
    rw [← hws, List.cons.injEq]
    rcases List.mem_append.mp (by simpa only [numbersOfItems] using hn) with hn | hn
    · exact ⟨(hitemNumbers n hn).1, fun hself => (hitemNumbers n hn).2 hself.1⟩
    · exact ⟨(hrestNumbers n hn).1, fun hself => (hrestNumbers n hn).2 hself.2⟩

/-- Tagged entries that are read nest within the depth and have finite numbers only, and they are
read as themselves only if these read back. -/
theorem of_ofWrittenPairs?_tagged {depth : Nat} {entries ws : List (String × Value)}
    (h : ofWrittenPairs? depth (itemTrees (taggedEntries entries)) = some ws) :
    nestingItems (taggedEntries entries) ≤ depth ∧
      ∀ n ∈ numbersOfEntries entries, n.isFinite = true ∧ (ws = entries → n.readsBack = true) := by
  match entries with
  | [] => exact ⟨Nat.zero_le depth, by simp [numbersOfEntries]⟩
  | (key, value) :: rest =>
    obtain ⟨inner, hinner, w, hw, others, hothers, hws⟩ : ∃ inner, inside? depth = some inner ∧
        ∃ w, ofWritten? inner (tree value.tagged) = some w ∧
        ∃ others, ofWrittenPairs? depth (itemTrees (taggedEntries rest)) = some others ∧
          (key, w) :: others = ws := by
      simpa [taggedEntries, itemTrees, tree, ofWrittenPairs?, Option.bind_eq_some_iff,
        Json.quotedText?_partsOf] using h
    have hdepth := exists_of_inside? hinner
    obtain ⟨hvalue, hvalueNumbers⟩ := of_ofWritten?_tagged hw
    obtain ⟨hrest, hrestNumbers⟩ := of_ofWrittenPairs?_tagged hothers
    refine ⟨by simp only [taggedEntries, nestingItems, nesting]; omega, fun n hn => ?_⟩
    rw [← hws, List.cons.injEq, Prod.mk.injEq]
    rcases List.mem_append.mp (by simpa only [numbersOfEntries] using hn) with hn | hn
    · exact ⟨(hvalueNumbers n hn).1, fun hself => (hvalueNumbers n hn).2 hself.1.2⟩
    · exact ⟨(hrestNumbers n hn).1, fun hself => (hrestNumbers n hn).2 hself.2⟩

end

end Value

namespace Checkpoint

open Json (tree nesting nestingItems nestingEntries)

/-- The numbers that occur in a checkpoint. -/
def numbers (c : Checkpoint) : List Number :=
  c.identifier.numbers ++ Value.numbersOfItems (c.resume.getD [])

/-- The counters of a checkpoint fit 64 bits. -/
def Counted (c : Checkpoint) : Prop :=
  c.round < UInt64.size ∧ c.skip < UInt64.size ∧ c.total < UInt64.size

variable {c found : Checkpoint}

/-- The text of a checkpoint nests the identifier in one container and each sort key in two. -/
theorem nesting_toJson (c : Checkpoint) :
    c.toJson.nesting = 1 + max c.identifier.tagged.nesting
      ((c.resume.map fun keys => 1 + nestingItems (Value.taggedItems keys)).getD 0) := by
  obtain ⟨identifier, round, skip, total, resume⟩ := c
  cases resume <;> simp [toJson, nesting, nestingEntries]

/-- A checkpoint is carried if its text nests within the limit, its numbers read back and its
counters fit 64 bits. -/
theorem carried_of_nesting_le (hcounted : c.Counted) (hdepth : c.toJson.nesting ≤ tokenDepth)
    (hnumbers : ∀ n ∈ c.numbers, n.readsBack = true) : c.carried = true := by
  simp only [numbers, List.mem_append] at hnumbers
  rw [nesting_toJson] at hdepth
  have hidentifier : c.identifier.carried (tokenDepth - 1) = true :=
    Value.carried_of_nesting_le (by omega) fun n hn => hnumbers n (Or.inl hn)
  have hresume : c.resume.all (Value.itemsCarried (tokenDepth - 2)) = true := by
    cases hkeys : c.resume with
    | none => rfl
    | some keys =>
      rw [hkeys] at hdepth hnumbers
      simp only [Option.map_some, Option.getD_some] at hdepth
      exact Value.itemsCarried_of_nesting_le (by omega) fun n hn => hnumbers n (Or.inr hn)
  simp only [carried, hidentifier, hresume, Bool.and_true, Bool.true_and, decide_eq_true_eq]
  exact hcounted

/-- A written checkpoint that is read nests within the limit and has finite numbers only, and it is
read as itself only if these read back. -/
theorem of_ofWritten?_toJson (h : ofWritten? (tree c.toJson) = some found) :
    c.toJson.nesting ≤ tokenDepth ∧
      ∀ n ∈ c.numbers, n.isFinite = true ∧ (found = c → n.readsBack = true) := by
  obtain ⟨identifier, round, skip, total, resume⟩ := c
  rw [ofWritten?_toJson_eq] at h
  simp only [ofFields?, Option.bind_eq_bind, Option.bind_eq_some_iff] at h
  obtain ⟨value, hvalue, round', -, skip', -, total', -, keys', hkeys, hfound⟩ := h
  obtain rfl := Option.some.inj hfound
  obtain ⟨hnesting, hidentifier⟩ := Value.of_ofWritten?_tagged hvalue
  have hself : (⟨value, round', skip', total', keys'⟩ : Checkpoint) =
      ⟨identifier, round, skip, total, resume⟩ → value = identifier ∧ keys' = resume := by
    intro heq
    exact ⟨congrArg Checkpoint.identifier heq, congrArg Checkpoint.resume heq⟩
  have hlimit : tokenDepth = 127 := rfl
  simp only [numbers, List.mem_append, nesting_toJson]
  cases resume with
  | none =>
    refine ⟨by simp only [Option.map_none, Option.getD_none]; omega, fun n hn => ?_⟩
    rcases hn with hn | hn
    · exact ⟨(hidentifier n hn).1, fun heq => (hidentifier n hn).2 (hself heq).1⟩
    · simp [Value.numbersOfItems] at hn
  | some keys =>
    obtain ⟨inner, hinner, ws, hws, hsome⟩ : ∃ inner, inside? (tokenDepth - 1) = some inner ∧
        ∃ ws, Value.ofWrittenItems? inner (Json.itemTrees (Value.taggedItems keys)) = some ws ∧
          some ws = keys' := by
      simpa [tree, resume?, Option.bind_eq_some_iff] using hkeys
    have hdepth := Value.exists_of_inside? hinner
    obtain ⟨hkeysNesting, hresume⟩ := Value.of_ofWrittenItems?_tagged hws
    refine ⟨by simp only [Option.map_some, Option.getD_some]; omega, fun n hn => ?_⟩
    rcases hn with hn | hn
    · exact ⟨(hidentifier n hn).1, fun heq => (hidentifier n hn).2 (hself heq).1⟩
    · refine ⟨(hresume n hn).1, fun heq => (hresume n hn).2 ?_⟩
      exact Option.some.inj (hsome.trans (hself heq).2)

/-- **What a token carries.** A token is read as its checkpoint exactly if its text nests within the
limit and the numbers in the checkpoint read back. -/
theorem ofToken_token_eq_ok_iff (hcounted : c.Counted) :
    ofToken c.token = .ok c ↔
      c.toJson.nesting ≤ tokenDepth ∧ ∀ n ∈ c.numbers, n.readsBack = true := by
  constructor
  · intro h
    rw [ofToken_token_eq] at h
    cases hread : ofWritten? (tree c.toJson) with
    | none =>
      rw [hread] at h
      cases h
    | some found =>
      rw [hread] at h
      obtain ⟨hdepth, hnumbers⟩ := of_ofWritten?_toJson hread
      exact ⟨hdepth, fun n hn => (hnumbers n hn).2 (Except.ok.inj h)⟩
  · rintro ⟨hdepth, hnumbers⟩
    exact ofToken_token (carried_of_nesting_le hcounted hdepth hnumbers)

/-- **Tokens that are malformed.** A token is malformed if its text nests beyond the limit, or if a
number in its checkpoint is not finite. -/
theorem ofToken_token_malformed
    (h : tokenDepth < c.toJson.nesting ∨ ∃ n ∈ c.numbers, n.isFinite = false) :
    ofToken c.token = .error .malformed := by
  rw [ofToken_token_eq]
  cases hread : ofWritten? (tree c.toJson) with
  | none => rfl
  | some found =>
    obtain ⟨hdepth, hnumbers⟩ := of_ofWritten?_toJson hread
    rcases h with hdeep | ⟨n, hn, hinfinite⟩
    · omega
    · rw [(hnumbers n hn).1] at hinfinite
      cases hinfinite

/-- A token consists of ASCII letters and digits, hyphens and underscores. -/
theorem isAlphanum_of_mem_token {a : Char} (h : a ∈ c.token.toList) :
    a.isAlphanum = true ∨ a = '-' ∨ a = '_' := by
  have hall : Text.Base64Url.alphabet.all (fun a => a.isAlphanum || a == '-' || a == '_') = true := by
    decide +kernel
  have ha := List.all_eq_true.mp hall a (Text.Base64Url.mem_alphabet_of_mem_encode h)
  simpa [or_assoc] using ha

/-- **Round trip of tokens.** A token consists of ASCII letters and digits, hyphens and underscores.
It is read as its checkpoint if that checkpoint's counters fit 64 bits, its text nests within the
limit and its numbers are short or read back from their own texts; so two such checkpoints with one
token are the same. If a number is not finite there is a token as well, but it is malformed. -/
theorem ofToken_token_roundtrip (c : Checkpoint) :
    (∀ a ∈ c.token.toList, a.isAlphanum = true ∨ a = '-' ∨ a = '_') ∧
    ((∃ n ∈ c.numbers, n.isFinite = false) → ofToken c.token = .error .malformed) ∧
    (c.Counted → c.toJson.nesting ≤ tokenDepth →
      (∀ n ∈ c.numbers, n.isShort = true ∨ n.readsBack = true) →
      ofToken c.token = .ok c ∧
      ∀ d : Checkpoint, d.Counted → d.toJson.nesting ≤ tokenDepth →
        (∀ n ∈ d.numbers, n.isShort = true ∨ n.readsBack = true) → c.token = d.token → c = d) := by
  refine ⟨fun a => isAlphanum_of_mem_token, fun hinfinite => ?_, fun hcounted hdepth hnumbers => ?_⟩
  · exact ofToken_token_malformed (Or.inr hinfinite)
  · have hreads {d : Checkpoint} (hcounted : d.Counted) (hdepth : d.toJson.nesting ≤ tokenDepth)
        (hnumbers : ∀ n ∈ d.numbers, n.isShort = true ∨ n.readsBack = true) :
        ofToken d.token = .ok d :=
      (ofToken_token_eq_ok_iff hcounted).mpr
        ⟨hdepth, fun n hn => (hnumbers n hn).elim Number.readsBack_of_isShort id⟩
    refine ⟨hreads hcounted hdepth hnumbers, fun d hcounted' hdepth' hnumbers' heq => ?_⟩
    have hc := hreads hcounted hdepth hnumbers
    rw [heq, hreads hcounted' hdepth' hnumbers'] at hc
    exact (Except.ok.inj hc).symm

/-- A checkpoint with values of all kinds, a repeated key and the greatest counter is read back and
has a token of its own; the token of one with a number that is not finite is malformed. -/
theorem ofToken_token_roundtrip_all_kinds :
    let half : Value := .number (.ofDecimal true ⟨5, -1⟩)
    let c : Checkpoint := ⟨.object [("", .null), ("", .array [.absent, .bool true, .string "é\n"])],
      UInt64.size - 1, 0, 1, some [half, .absent]⟩
    let infinite : Checkpoint := ⟨.array [.number (.infinity true)], 1, 0, 1, none⟩
    ofToken c.token = .ok c ∧ c.token ≠ { c with total := 2 }.token ∧
      ofToken infinite.token = .error .malformed := by
  intro half c infinite
  obtain ⟨-, -, hreads⟩ := ofToken_token_roundtrip c
  obtain ⟨hc, hsame⟩ := hreads ⟨by decide, by decide, by decide⟩ (by decide) (by decide +kernel)
  refine ⟨hc, fun heq => ?_, (ofToken_token_roundtrip infinite).2.1 (by decide)⟩
  have hequal : c = { c with total := 2 } :=
    hsame _ ⟨by decide, by decide, by decide⟩ (by decide) (by decide +kernel) heq
  exact absurd (congrArg Checkpoint.total hequal) (by decide)

end Checkpoint

end Folio
