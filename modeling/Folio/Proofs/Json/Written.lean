import Folio.Json.Written
import Folio.Proofs.Json.Lexeme

/-!
# JSON texts are read as the trees that were written

The lexemes of JSON data are put together again bracket by bracket, so the whole text of the data is
read as its tree. The tree keeps every key, in order, also repeated ones.
-/

namespace Folio.Json

/-- The written form of a double: a number, or null if it is not finite. -/
def floatTree (x : Number) : Written :=
  match NumberText.ofChars? x.json.toList with
  | some n => .number n
  | none => .null

mutual

/-- JSON data as it is written. -/
def tree : Json → Written
  | .null => .null
  | .bool b => .bool b
  | .integer i => .number (integerText i)
  | .float x => floatTree x
  | .string s => .string (partsOf s)
  | .array items => .array (itemTrees items)
  | .object entries => .object (memberTrees entries)

/-- The elements of an array as they are written. -/
def itemTrees : List Json → List Written
  | [] => []
  | item :: rest => tree item :: itemTrees rest

/-- The entries of an object as they are written. -/
def memberTrees : List (String × Json) → List (List QuotedPart × Written)
  | [] => []
  | (key, item) :: rest => (partsOf key, tree item) :: memberTrees rest

end

open Written

/-- Lexemes are put together as a tree, whatever follows them, and do not begin by closing. -/
def BuiltAs (ls : List Lexeme) (w : Written) : Prop :=
  (∀ rest, ∃ h, readValue (ls ++ rest) = some ⟨w, rest, h⟩) ∧
    ∃ first more, ls = first :: more ∧ first ≠ .closeArray ∧ first ≠ .closeObject

/-- A single lexeme that is a value. -/
theorem builtAs_single {first : Lexeme} {w : Written}
    (h : ∀ rest, readValue (first :: rest) = some (.leaving w rest))
    (hne : first ≠ .closeArray ∧ first ≠ .closeObject) : BuiltAs [first] w :=
  ⟨fun rest => ⟨_, h rest⟩, first, [], rfl, hne⟩

/-! ## Arrays and objects -/

/-- The last element of an array stands before the closing bracket. -/
theorem readItems_last {ls rest : List Lexeme} {item : Written} {h}
    (hread : readValue ls = some ⟨item, .closeArray :: rest, h⟩) :
    ∃ hshorter, readItems ls = some ⟨[item], rest, hshorter⟩ := by
  rw [readItems, hread]
  exact ⟨_, rfl⟩

/-- Every other element of an array stands before a comma. -/
theorem readItems_more {ls rest last : List Lexeme} {item : Written} {items : List Written} {h hlast}
    (hread : readValue ls = some ⟨item, .comma :: rest, h⟩)
    (hmore : readItems rest = some ⟨items, last, hlast⟩) :
    ∃ hshorter, readItems ls = some ⟨item :: items, last, hshorter⟩ := by
  rw [readItems, hread]
  refine ⟨?_, ?_⟩
  rotate_left
  · show (readItems rest >>= _) = _
    rw [hmore]
    rfl

/-- The last member of an object stands before the closing brace. -/
theorem readMembers_last {ls rest : List Lexeme} {key : List QuotedPart} {value : Written} {h}
    (hread : readValue ls = some ⟨value, .closeObject :: rest, h⟩) :
    ∃ hshorter, readMembers (.string key :: .colon :: ls) =
      some ⟨[(key, value)], rest, hshorter⟩ := by
  rw [readMembers, hread]
  exact ⟨_, rfl⟩

/-- Every other member of an object stands before a comma. -/
theorem readMembers_more {ls rest last : List Lexeme} {key : List QuotedPart} {value : Written}
    {members : List (List QuotedPart × Written)} {h hlast}
    (hread : readValue ls = some ⟨value, .comma :: rest, h⟩)
    (hmore : readMembers rest = some ⟨members, last, hlast⟩) :
    ∃ hshorter, readMembers (.string key :: .colon :: ls) =
      some ⟨(key, value) :: members, last, hshorter⟩ := by
  rw [readMembers, hread]
  refine ⟨?_, ?_⟩
  rotate_left
  · show (readMembers rest >>= _) = _
    rw [hmore]
    rfl

/-- Elements with commas between them are read up to the bracket that closes them. -/
theorem readItems_of_builtAs {found : List (List Lexeme)} {trees : List Written}
    (h : List.Forall₂ BuiltAs found trees) (hne : found ≠ []) (rest : List Lexeme) :
    ∃ hshorter, readItems ([Lexeme.comma].intercalate found ++ .closeArray :: rest) =
      some ⟨trees, rest, hshorter⟩ := by
  induction h with
  | nil => exact absurd rfl hne
  | cons hfirst hothers ih =>
    cases hothers with
    | nil =>
      rw [List.intercalate_singleton]
      obtain ⟨_, hread⟩ := hfirst.1 (.closeArray :: rest)
      exact readItems_last hread
    | cons hsecond hothers =>
      obtain ⟨_, hmore⟩ := ih (by simp)
      rw [List.intercalate_cons_cons, List.append_assoc, List.append_assoc]
      obtain ⟨_, hread⟩ := hfirst.1 (.comma :: _)
      exact readItems_more hread hmore

/-- Lexemes are a key and a value that are put together as a member. -/
def MemberBuiltAs (ls : List Lexeme) (member : List QuotedPart × Written) : Prop :=
  ∃ value, ls = .string member.1 :: .colon :: value ∧ BuiltAs value member.2

/-- Members with commas between them are read up to the brace that closes them. -/
theorem readMembers_of_builtAs {found : List (List Lexeme)}
    {members : List (List QuotedPart × Written)} (h : List.Forall₂ MemberBuiltAs found members)
    (hne : found ≠ []) (rest : List Lexeme) :
    ∃ hshorter, readMembers ([Lexeme.comma].intercalate found ++ .closeObject :: rest) =
      some ⟨members, rest, hshorter⟩ := by
  induction h with
  | nil => exact absurd rfl hne
  | cons hfirst hothers ih =>
    obtain ⟨value, rfl, hvalue, -⟩ := hfirst
    cases hothers with
    | nil =>
      rw [List.intercalate_singleton]
      obtain ⟨_, hread⟩ := hvalue (.closeObject :: rest)
      exact readMembers_last hread
    | cons hsecond hothers =>
      obtain ⟨_, hmore⟩ := ih (by simp)
      rw [List.intercalate_cons_cons, List.append_assoc, List.append_assoc]
      obtain ⟨_, hread⟩ := hvalue (.comma :: _)
      exact readMembers_more hread hmore

/-- Nothing between brackets is an empty array. -/
theorem readValue_emptyArray (rest : List Lexeme) :
    ∃ hshorter, readValue (.openArray :: .closeArray :: rest) =
      some ⟨.array [], rest, hshorter⟩ := by
  rw [readValue]
  exact ⟨_, rfl⟩

/-- Elements up to the closing bracket are an array. -/
theorem readValue_array {first : Lexeme} {more rest : List Lexeme} {items : List Written} {h}
    (hfirst : first ≠ .closeArray) (hitems : readItems (first :: more) = some ⟨items, rest, h⟩) :
    ∃ hshorter, readValue (.openArray :: first :: more) = some ⟨.array items, rest, hshorter⟩ := by
  rw [readValue, hitems]
  · exact ⟨_, rfl⟩
  · intro others hclose
    exact hfirst (List.cons.inj hclose).1

/-- Nothing between braces is an empty object. -/
theorem readValue_emptyObject (rest : List Lexeme) :
    ∃ hshorter, readValue (.openObject :: .closeObject :: rest) =
      some ⟨.object [], rest, hshorter⟩ := by
  rw [readValue]
  exact ⟨_, rfl⟩

/-- Members up to the closing brace are an object. -/
theorem readValue_object {first : Lexeme} {more rest : List Lexeme}
    {members : List (List QuotedPart × Written)} {h} (hfirst : first ≠ .closeObject)
    (hmembers : readMembers (first :: more) = some ⟨members, rest, h⟩) :
    ∃ hshorter, readValue (.openObject :: first :: more) =
      some ⟨.object members, rest, hshorter⟩ := by
  rw [readValue, hmembers]
  · exact ⟨_, rfl⟩
  · intro others hclose
    exact hfirst (List.cons.inj hclose).1

/-- Elements between brackets are put together as an array. -/
theorem builtAs_array {found : List (List Lexeme)} {trees : List Written}
    (h : List.Forall₂ BuiltAs found trees) :
    BuiltAs (.openArray :: [Lexeme.comma].intercalate found ++ [.closeArray]) (.array trees) := by
  refine ⟨fun rest => ?_, .openArray, _, rfl, by decide, by decide⟩
  rw [List.append_assoc, List.cons_append, List.singleton_append]
  cases h with
  | nil => exact readValue_emptyArray rest
  | cons hfirst hothers =>
    have hitems := readItems_of_builtAs (.cons hfirst hothers) (by simp) rest
    obtain ⟨-, first, more, rfl, hne, -⟩ := hfirst
    rw [List.intercalate_cons_cons_left, List.cons_append] at hitems ⊢
    obtain ⟨_, hitems⟩ := hitems
    exact readValue_array hne hitems

/-- Members between braces are put together as an object. -/
theorem builtAs_object {found : List (List Lexeme)} {members : List (List QuotedPart × Written)}
    (h : List.Forall₂ MemberBuiltAs found members) :
    BuiltAs (.openObject :: [Lexeme.comma].intercalate found ++ [.closeObject])
      (.object members) := by
  refine ⟨fun rest => ?_, .openObject, _, rfl, by decide, by decide⟩
  rw [List.append_assoc, List.cons_append, List.singleton_append]
  cases h with
  | nil => exact readValue_emptyObject rest
  | cons hfirst hothers =>
    have hmembers := readMembers_of_builtAs (.cons hfirst hothers) (by simp) rest
    obtain ⟨value, rfl, -⟩ := hfirst
    rw [List.intercalate_cons_cons_left, List.cons_append] at hmembers ⊢
    obtain ⟨_, hmembers⟩ := hmembers
    exact readValue_object (by simp) hmembers

/-! ## Whole texts -/

/-- A text that is read as lexemes is read as the tree that they are put together as, also if only
blanks follow it. -/
theorem read?_of_readAs {text : List Char} {found : List Lexeme} {w : Written}
    {blanks : List (Option Char)} (hread : ReadAs text found) (hbuilt : BuiltAs found w)
    (hends : EndsNumber blanks) (hblanks : lexemes? blanks = some []) :
    read? (text.map some ++ blanks) = some w := by
  have hfound : lexemes? (text.map some ++ blanks) = some found := by
    rw [hread blanks hends, hblanks, Option.map_some, List.append_nil]
  have hvalue := hbuilt.1 []
  rw [List.append_nil] at hvalue
  obtain ⟨_, hvalue⟩ := hvalue
  unfold read?
  rw [hfound]
  simp [hvalue]

/-- A double is put together from its lexeme. -/
theorem builtAs_float (x : Number) : BuiltAs [floatLexeme x] (floatTree x) := by
  unfold floatLexeme floatTree
  cases NumberText.ofChars? x.json.toList with
  | some n => exact builtAs_single (fun rest => by rw [readValue]) (by simp)
  | none => exact builtAs_single (fun rest => by rw [readValue]) (by simp)

mutual

/-- The lexemes of JSON data are put together as its tree. -/
theorem builtAs_lexemes (j : Json) : BuiltAs (lexemes j) (tree j) := by
  match j with
  | .null => exact builtAs_single (fun rest => by rw [readValue, tree]) (by simp)
  | .bool b => exact builtAs_single (fun rest => by rw [readValue, tree]) (by simp)
  | .integer i => exact builtAs_single (fun rest => by rw [readValue, tree]) (by simp)
  | .float x => exact builtAs_float x
  | .string s => exact builtAs_single (fun rest => by rw [readValue, tree]) (by simp)
  | .array items => exact builtAs_array (forall₂_itemLexemes items)
  | .object entries => exact builtAs_object (forall₂_memberLexemes entries)

/-- The lexemes of each element of an array are put together as its tree. -/
theorem forall₂_itemLexemes (items : List Json) :
    List.Forall₂ BuiltAs (itemLexemes items) (itemTrees items) := by
  match items with
  | [] => exact .nil
  | item :: rest => exact .cons (builtAs_lexemes item) (forall₂_itemLexemes rest)

/-- The lexemes of each entry of an object are put together as its member. -/
theorem forall₂_memberLexemes (entries : List (String × Json)) :
    List.Forall₂ MemberBuiltAs (memberLexemes entries) (memberTrees entries) := by
  match entries with
  | [] => exact .nil
  | (key, item) :: rest =>
    exact .cons ⟨lexemes item, rfl, builtAs_lexemes item⟩ (forall₂_memberLexemes rest)

end

/-- **A JSON text is read as the tree that was written.** -/
theorem read?_chars (j : Json) : read? ((chars j).map some) = some (tree j) := by
  have hread := read?_of_readAs (readAs_chars j) (builtAs_lexemes j) endsNumber_nil lexemes?_nil
  rwa [List.append_nil] at hread

end Folio.Json
