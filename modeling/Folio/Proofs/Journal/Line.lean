import Folio.Journal.Line
import Folio.Proofs.Json.Written
import Folio.Proofs.StableSort
import Mathlib.Data.List.Nodup
import Mathlib.Data.String.Basic
import Mathlib.Order.Compare

/-!
# Journal lines read back

A journal line has no control but the line feed at its end, since every other is written by an escape.
What is escaped is read back, so the line is one JSON object, and its members state the event, the
level and then the fields in the order of their keys, each as it was given.
-/

namespace Folio.Journal

open Json

variable {fields sorted sorted' : List (String × String)}

/-! ## What a line states -/

/-- The field that a member of an object states, if its value is a text. -/
def fieldOf? : List QuotedPart × Written → Option (String × String)
  | (key, .string value) => do
    return (String.ofList (← textOfParts? key), String.ofList (← textOfParts? value))
  | _ => none

/-- The fields that a text states, if it is one object whose values are texts. -/
def statedFields? (text : String) : Option (List (String × String)) :=
  match Written.read? (text.toList.map some) with
  | some (.object members) => members.mapM fieldOf?
  | _ => none

/-- Fields are a stable sort of others by their keys: the same fields, their keys in order, and those
with equal keys in the same order. -/
structure StableSort (fields sorted : List (String × String)) : Prop where
  perm : sorted.Perm fields
  ordered : sorted.Pairwise fun a b => a.1 ≤ b.1
  stable : ∀ key, sorted.filter (fun field => field.1 = key) =
    fields.filter fun field => field.1 = key

/-! ## Sorted fields -/

/-- A field comes no later than another by its key if the key is not greater. -/
theorem isLE_compareOn_fst (a b : String × String) :
    (compareOn Prod.fst a b).isLE = decide (a.1 ≤ b.1) := by
  rw [Bool.eq_iff_iff, decide_eq_true_iff, Ordering.isLE_iff_ne_gt]
  exact compare_le_iff_le

/-- Fields tie by their keys if these are equal. -/
theorem compareOn_fst_beq_eq (a b : String × String) :
    (compareOn Prod.fst a b == .eq) = decide (b.1 = a.1) := by
  rw [Bool.eq_iff_iff, decide_eq_true_iff, beq_iff_eq, eq_comm (a := b.1)]
  exact compare_eq_iff_eq

/-- Merging is a stable sort of fields. -/
theorem stableSort_mergeSort (fields : List (String × String)) :
    StableSort fields (fields.mergeSort fun a b => a.1 ≤ b.1) := by
  simp only [← isLE_compareOn_fst]
  refine ⟨List.mergeSort_perm _ _, ?_, fun key => ?_⟩
  · refine (List.pairwise_mergeSort (fun _ _ _ => Std.TransCmp.isLE_trans) (isLE_total _) _).imp ?_
    intro a b h
    rwa [isLE_compareOn_fst, decide_eq_true_iff] at h
  · have hties := filter_ties_mergeSort (compareOn Prod.fst) (key, "") fields
    simpa only [compareOn_fst_beq_eq] using hties

/-- Fields have one stable sort. -/
theorem StableSort.unique (h : StableSort fields sorted) (h' : StableSort fields sorted') :
    sorted = sorted' := by
  have hordered {l : List (String × String)} (h : l.Pairwise fun a b => a.1 ≤ b.1) :
      l.Pairwise fun a b => (compareOn Prod.fst a b).isLE = true :=
    h.imp fun {a b} hle => by rwa [isLE_compareOn_fst, decide_eq_true_iff]
  refine eq_of_filter_ties_eq (compareOn Prod.fst) (hordered h.ordered) (hordered h'.ordered) ?_
  intro c
  simp only [compareOn_fst_beq_eq]
  exact (h.stable c.1).trans (h'.stable c.1).symm

/-- Fields with different keys have one order by their keys, however they are given. -/
theorem eq_of_ordered (hkeys : (fields.map Prod.fst).Nodup) (hperm : sorted.Perm fields)
    (hperm' : sorted'.Perm fields) (h : sorted.Pairwise fun a b => a.1 ≤ b.1)
    (h' : sorted'.Pairwise fun a b => a.1 ≤ b.1) : sorted = sorted' := by
  refine List.Perm.eq_of_pairwise ?_ h h' (hperm.trans hperm'.symm)
  intro a b ha hb hab hba
  exact List.inj_on_of_nodup_map hkeys (hperm.mem_iff.mp ha) (hperm'.mem_iff.mp hb)
    (le_antisymm hab hba)

/-! ## Escapes -/

/-- The characters with a short escape, each with what follows the backslash. -/
def shortEscapes : List (Char × Char) :=
  [('"', '"'), ('\\', '\\'), ('\n', 'n'), ('\r', 'r'), ('\t', 't')]

/-- There are no other short escapes. -/
theorem mem_shortEscapes {c mark : Char} (h : escaping.short c = some mark) :
    (c, mark) ∈ shortEscapes := by
  unfold escaping at h
  simp only at h
  repeat' split at h
  all_goals first
    | cases h
      subst_vars
      decide
    | cases h

/-- What journal lines escape is read back. -/
theorem readable_escaping : escaping.Readable where
  short h := by
    have hall : ∀ escape ∈ shortEscapes, shortEscape? escape.2 = some escape.1 := by decide
    exact hall _ (mem_shortEscapes h)
  plain {c} hshort hcoded := by
    refine ⟨?_, ?_, ?_⟩
    · rintro rfl
      simp [escaping] at hshort
    · rintro rfl
      simp [escaping] at hshort
    · intro hlt
      simp [escaping, isControl, hlt] at hcoded
  coded {c} h := by
    have hlt : c < ' ' ∨ '\x7f' ≤ c ∧ c.toNat < 0xA0 := by simpa [escaping, isControl] using h
    rcases hlt with hlt | ⟨-, hlt⟩
    · have hspace : c.toNat < 32 := hlt
      exact Nat.lt_trans hspace (by decide)
    · exact Nat.lt_trans hlt (by decide)

/-- No hexadecimal digit is a control. -/
theorem isControl_hexDigit {value : Nat} (h : value < 16) : isControl (hexDigit value) = false := by
  have hall : ∀ v : Fin 16, isControl (hexDigit v) = false := by decide
  exact hall ⟨value, h⟩

/-- A character is written without controls. -/
theorem isControl_of_mem_char {c d : Char} (h : d ∈ escaping.char c) : isControl d = false := by
  have hdigit (n : Nat) : isControl (hexDigit (n % 16)) = false :=
    isControl_hexDigit (Nat.mod_lt n (by decide))
  unfold Escaping.char at h
  split at h
  next mark hmark =>
    have hall : ∀ escape ∈ shortEscapes, isControl escape.2 = false := by decide
    rcases List.mem_cons.mp h with rfl | h
    · decide
    · rw [List.mem_singleton.mp h]
      exact hall _ (mem_shortEscapes hmark)
  next =>
    split at h
    · simp only [fourDigits, List.mem_cons, List.not_mem_nil, or_false] at h
      rcases h with rfl | rfl | rfl | rfl | rfl | rfl
      · decide
      · decide
      all_goals exact hdigit _
    next hplain =>
      rw [List.mem_singleton.mp h]
      exact Bool.eq_false_iff.mpr hplain

/-- A text in quotes is written without controls. -/
theorem isControl_of_mem_quote {text : String} {d : Char} (h : d ∈ escaping.quote text) :
    isControl d = false := by
  simp only [Escaping.quote, List.cons_append, List.mem_cons, List.mem_append, List.mem_flatMap,
    List.not_mem_nil, or_false] at h
  rcases h with rfl | ⟨c, -, h⟩ | rfl
  · decide
  · exact isControl_of_mem_char h
  · decide

/-- A field is written without controls. -/
theorem isControl_of_mem_entry {field : String × String} {d : Char} (h : d ∈ entry field) :
    isControl d = false := by
  rcases List.mem_append.mp h with h | h
  · exact isControl_of_mem_quote h
  rcases List.mem_cons.mp h with rfl | h
  · decide
  · exact isControl_of_mem_quote h

/-- A character of texts with commas between them is a comma or is in one of the texts. -/
theorem exists_mem_of_mem_separated {texts : List (List Char)} {c : Char} (h : c ∈ separated texts) :
    c = ',' ∨ ∃ text ∈ texts, c ∈ text := by
  unfold separated at h
  induction texts with
  | nil => simp at h
  | cons first rest ih =>
    cases rest with
    | nil => exact Or.inr ⟨first, List.mem_singleton_self _, by simpa using h⟩
    | cons second rest =>
      rw [List.intercalate_cons_cons, List.mem_append, List.mem_append, List.mem_singleton] at h
      rcases h with (h | h) | h
      · exact Or.inr ⟨first, List.mem_cons_self, h⟩
      · exact Or.inl h
      · exact (ih h).imp_right fun ⟨text, hmem, hc⟩ => ⟨text, List.mem_cons_of_mem _ hmem, hc⟩

/-! ## The object of a line -/

/-- The text of a line before the line feed. -/
def body (fields : List (String × String)) : List Char :=
  '\x7b' :: separated (fields.map entry) ++ ['\x7d']

/-- The characters of a line are its object and the line feed. -/
theorem toList_line (level : Level) (event : String) (fields : List (String × String)) :
    (line level event fields).toList = body (arranged event level fields) ++ ['\n'] := by
  rw [line, String.toList_ofList, body, separated, List.append_assoc]
  rfl

/-- The object of a line is written without controls. -/
theorem isControl_of_mem_body {d : Char} (h : d ∈ body fields) : isControl d = false := by
  simp only [body, List.cons_append, List.mem_cons, List.mem_append, List.not_mem_nil,
    or_false] at h
  rcases h with rfl | h | rfl
  · decide
  · rcases exists_mem_of_mem_separated h with rfl | ⟨text, htext, hd⟩
    · decide
    · obtain ⟨field, -, rfl⟩ := List.mem_map.mp htext
      exact isControl_of_mem_entry hd
  · decide

/-- The lexemes of a field. -/
def fieldLexemes (field : String × String) : List Lexeme :=
  [.string (escaping.partsOf field.1), .colon, .string (escaping.partsOf field.2)]

/-- A field as a member of an object. -/
def member (field : String × String) : List QuotedPart × Written :=
  (escaping.partsOf field.1, .string (escaping.partsOf field.2))

/-- A written field is read as its lexemes. -/
theorem readAs_field (field : String × String) : ReadAs (entry field) (fieldLexemes field) :=
  readable_escaping.readAs_entry field.1 fun rest _ => readable_escaping.lexemes?_quote field.2 rest

/-- The lexemes of a field are put together as its member. -/
theorem memberBuiltAs_field (field : String × String) :
    MemberBuiltAs (fieldLexemes field) (member field) := by
  refine ⟨_, rfl, builtAs_single (fun rest => ?_) ?_⟩
  · rw [Written.readValue, member]
  · simp

/-- What holds of two forms of each field relates the forms of a list of fields in order. -/
theorem forall₂_map_fields {α β : Type} {R : α → β → Prop} {f : String × String → α}
    {g : String × String → β} (h : ∀ field, R (f field) (g field))
    (fields : List (String × String)) : List.Forall₂ R (fields.map f) (fields.map g) :=
  List.forall₂_map_left_iff.mpr (List.forall₂_map_right_iff.mpr
    (List.forall₂_same.mpr fun field _ => h field))

/-- A line is read as the object whose members are its fields. -/
theorem read?_line (level : Level) (event : String) (fields : List (String × String)) :
    Written.read? ((line level event fields).toList.map some) =
      some (.object ((arranged event level fields).map member)) := by
  have hblank : lexemes? [some '\n'] = some [] := by
    rw [lexemes?]
    rfl
  have hread : ReadAs (body (arranged event level fields)) _ :=
    readAs_between ⟨rfl, rfl⟩ (fun _ => rfl) (fun _ => rfl) (by decide)
      (readAs_separated (forall₂_map_fields readAs_field _))
  rw [toList_line, List.map_append]
  exact read?_of_readAs hread (builtAs_object (forall₂_map_fields memberBuiltAs_field _))
    (endsNumber_cons (by decide) []) hblank

/-- The members of fields state the fields. -/
theorem mapM_fieldOf?_member (fields : List (String × String)) :
    (fields.map member).mapM fieldOf? = some fields := by
  induction fields with
  | nil => rfl
  | cons field rest ih =>
    have hfield : fieldOf? (member field) = some field := by
      simp [fieldOf?, member, readable_escaping.textOfParts?_partsOf]
    rw [List.map_cons, List.mapM_cons, hfield, ih]
    rfl

/-- A line states its fields. -/
theorem statedFields?_line (level : Level) (event : String) (fields : List (String × String)) :
    statedFields? (line level event fields) = some (arranged event level fields) := by
  rw [statedFields?, read?_line]
  exact mapM_fieldOf?_member _

/-- **Journal lines.** Whatever the name of the event and the keys and values of the fields are, a
line ends with its only line feed and has no other control. It is one JSON object, whose members
state the event, the level and then the one stable sort of the fields by their keys, each with
exactly the characters that were given. If the keys are different, the line does not depend on the
order in which the fields are given. -/
theorem line_spec (level : Level) (event : String) (fields : List (String × String)) :
    (∃ object, (line level event fields).toList = object ++ ['\n'] ∧ '\n' ∉ object ∧
      ∀ c ∈ object, isControl c = false) ∧
    (∃ sorted, StableSort fields sorted ∧ (∀ other, StableSort fields other → other = sorted) ∧
      statedFields? (line level event fields) =
        some (("event", event) :: ("severity", level.text) :: sorted)) ∧
    ∀ fields' : List (String × String), fields'.Perm fields → (fields.map Prod.fst).Nodup →
      line level event fields' = line level event fields := by
  have hsort := stableSort_mergeSort fields
  refine ⟨⟨_, toList_line level event fields, ?_, fun c => isControl_of_mem_body⟩,
    ⟨_, hsort, fun other hother => hother.unique hsort, statedFields?_line level event fields⟩, ?_⟩
  · intro hfeed
    cases isControl_of_mem_body hfeed
  · intro fields' hperm hkeys
    have hsort' := stableSort_mergeSort fields'
    have hsorted := eq_of_ordered hkeys (hsort'.perm.trans hperm) hsort.perm hsort'.ordered
      hsort.ordered
    rw [line, line, arranged, arranged, hsorted]

/-- Keys and values with quotes, backslashes, controls and line separators, given in either order. -/
theorem line_spec_either_order :
    let feed : String × String := ("\"\n", "\\ \u2028")
    let delete : String × String := ("\x7f", "\x00\u0085")
    [delete, feed].Perm [feed, delete] ∧ ([feed, delete].map Prod.fst).Nodup ∧
      line .warn "a\tb" [delete, feed] = line .warn "a\tb" [feed, delete] := by
  intro feed delete
  have hperm : [delete, feed].Perm [feed, delete] := List.Perm.swap _ _ _
  have hkeys : ([feed, delete].map Prod.fst).Nodup := by decide
  exact ⟨hperm, hkeys, (line_spec .warn "a\tb" [feed, delete]).2.2 _ hperm hkeys⟩

end Folio.Journal
