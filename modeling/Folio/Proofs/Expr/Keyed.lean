import Folio.Proofs.Expr.Path
import Folio.Proofs.Value.Emission

/-!
# Keys of evaluated objects

Evaluation makes a new object only for an object constructor. Every other object in a value comes out
of the document, a parameter, a literal or a function of the caller. If none of these repeats a key
then no value does, and an object is emitted under each key with what is read there.
-/

namespace Folio

/-! ## Values without parts -/

/-- The value of a truth has no parts. -/
theorem Truth.isComposite_toValue (t : Truth) : t.toValue.isComposite = Bool.false := by
  cases t <;> rfl

/-- An operator before one operand makes no arrays and objects. -/
theorem UnaryOp.isComposite_apply (op : UnaryOp) (v : Value) :
    (op.apply v).isComposite = false := by
  cases op with
  | not => exact Truth.isComposite_toValue _
  | sign s => cases v <;> rfl

/-- An operator between two operands makes no arrays and objects; coalescing passes an operand
on. -/
theorem BinaryOp.apply_cases (op : BinaryOp) (a b : Value) :
    (op.apply a b).isComposite = false ∨ op.apply a b = a ∨ op.apply a b = b := by
  cases op with
  | coalesce =>
    rw [apply]
    split
    · exact .inr (.inr rfl)
    · exact .inr (.inl rfl)
  | arithmetic op => exact .inl (by cases a <;> cases b <;> rfl)
  | concat => exact .inl (by cases a <;> cases b <;> rfl)
  | _ => exact .inl (Truth.isComposite_toValue _)

namespace Builtin

/-- A function of a number makes no arrays and objects. -/
theorem isComposite_onNumber (f : Number → Number) (v : Value) :
    (onNumber f v).isComposite = false := by
  cases v <;> rfl

/-- A function of a string makes no arrays and objects if it makes none of a string. -/
theorem isComposite_onString {f : String → Value} (h : ∀ s, (f s).isComposite = false)
    (v : Value) : (onString f v).isComposite = false := by
  cases v with
  | string s => exact h s
  | _ => rfl

/-- A test of two strings makes no arrays and objects. -/
theorem isComposite_onStrings (test : String → String → Bool) (v w : Value) :
    (onStrings test v w).isComposite = false := by
  cases v <;> cases w <;> rfl

/-- A function of an array makes no arrays and objects if it makes none of the elements. -/
theorem isComposite_onArray {f : List Value → Value} (h : ∀ items, (f items).isComposite = false)
    (v : Value) : (onArray f v).isComposite = false := by
  cases v with
  | array items => exact h items
  | _ => rfl

/-- Joining makes no arrays and objects. -/
theorem isComposite_joined (args : List Value) : (joined args).isComposite = false := by
  rw [joined]
  split <;> rfl

/-- A built-in function makes no arrays and objects. -/
theorem isComposite_call (f : Builtin) (args : List Value) : (f.call args).isComposite = false := by
  cases f with
  | abs | floor | ceiling => exact isComposite_onNumber _ _
  | concat => exact isComposite_joined args
  | contains | startsWith | endsWith => exact isComposite_onStrings _ _ _
  | lower | upper | length => exact isComposite_onString (fun _ => rfl) _
  | arrayLength | arrayContains => exact isComposite_onArray (fun _ => rfl) _
  | _ => rfl

end Builtin

namespace Value

/-- What a value has under the value of a key has each key once if the value does. -/
theorem Keyed.at {v : Value} (h : v.Keyed) (k : Value) : (v.at k).Keyed := by
  cases k with
  | string s => exact h.child s
  | number n => exact h.child (numberKey n)
  | _ => exact keyed_of_plain rfl

end Value

/-! ## Evaluation -/

/-- What expressions are evaluated against has each key once, and so have the values of functions
on such values. -/
structure Scope.Keyed (scope : Scope) : Prop where
  document : scope.document.Keyed
  parameters : ∀ parameter ∈ scope.parameters, parameter.2.Keyed
  functions : ∀ name f, scope.functions.get? name = some f →
    ∀ args, (∀ arg ∈ args, Value.Keyed arg) → (f args).Keyed

namespace Expr

/-- Each key of an object constructor in the expression stands for one entry, and so does each key of
an object in a literal. -/
inductive Keyed : Expr → Prop
  | intro {e : Expr} (literals : ∀ v, e = .literal v → v.Keyed)
      (keys : ∀ entries, e = .object entries → (entries.map Prod.fst).Nodup)
      (children : ∀ child ∈ e.children, Keyed child) : Keyed e

variable {scope : Scope} {e : Expr} {items : List Expr} {values : List Value} {v : Value}

/-- What holds of the values of the expressions of a list holds of the list of their values. -/
theorem forall_of_evalItems {P : Value → Prop} (h : evalItems scope items = .ok values)
    (hitems : ∀ item ∈ items, ∀ w, item.eval scope = .ok w → P w) : ∀ w ∈ values, P w := by
  induction items generalizing values with
  | nil =>
    obtain rfl := Except.ok.inj h
    exact nofun
  | cons item rest ih =>
    obtain ⟨hitem, hrest⟩ := List.forall_mem_cons.mp hitems
    obtain ⟨w, hw, h⟩ := bind_eq_ok_iff.mp h
    obtain ⟨others, hothers, h⟩ := bind_eq_ok_iff.mp h
    obtain rfl := pure_eq_ok_iff.mp h
    exact List.forall_mem_cons.mpr ⟨hitem w hw, ih hothers hrest⟩

/-- Evaluated entries have the keys of the entries and the values of their expressions. -/
theorem spec_of_evalEntries {entries : List (String × Expr)} {found : List (String × Value)}
    (h : evalEntries scope entries = .ok found) : found.map Prod.fst = entries.map Prod.fst ∧
      evalItems scope (entries.map Prod.snd) = .ok (found.map Prod.snd) := by
  induction entries generalizing found with
  | nil =>
    obtain rfl := Except.ok.inj h
    exact ⟨rfl, rfl⟩
  | cons entry rest ih =>
    obtain ⟨w, hw, h⟩ := bind_eq_ok_iff.mp h
    obtain ⟨others, hothers, h⟩ := bind_eq_ok_iff.mp h
    obtain rfl := pure_eq_ok_iff.mp h
    obtain ⟨hkeys, hvalues⟩ := ih hothers
    refine ⟨congrArg (entry.1 :: ·) hkeys, ?_⟩
    rw [List.map_cons, evalItems, hw, hvalues]
    rfl

/-- **Evaluation repeats no key.** Where neither the scope nor the expression repeats a key, the value
of the expression does not. -/
theorem keyed_of_eval (hscope : scope.Keyed) (he : e.Keyed) (h : e.eval scope = .ok v) :
    v.Keyed := by
  induction he generalizing v with
  | @intro e hliteral hkeys _ ih =>
    cases e with
    | literal w =>
      obtain rfl := Except.ok.inj h
      exact hliteral w rfl
    | parameter name =>
      obtain rfl := Except.ok.inj h
      cases hlookup : scope.parameters.lookup name with
      | none => exact Value.keyed_of_plain rfl
      | some w => exact hscope.parameters _ (Entries.mem_of_lookup_eq_some hlookup)
    | identifier name =>
      obtain rfl := Except.ok.inj h
      exact hscope.document
    | property base key =>
      rw [eval_property] at h
      obtain ⟨w, hw, h⟩ := bind_eq_ok_iff.mp h
      obtain ⟨k, -, h⟩ := bind_eq_ok_iff.mp h
      obtain rfl := pure_eq_ok_iff.mp h
      exact (ih base (by simp [children]) hw).at k
    | array items =>
      obtain ⟨values, hvalues, h⟩ := bind_eq_ok_iff.mp h
      obtain rfl := pure_eq_ok_iff.mp h
      exact Value.keyed_array (forall_of_evalItems hvalues fun item hitem w => ih item hitem)
    | object entries =>
      obtain ⟨found, hfound, h⟩ := bind_eq_ok_iff.mp h
      obtain rfl := pure_eq_ok_iff.mp h
      obtain ⟨hsame, hvalues⟩ := spec_of_evalEntries hfound
      refine Value.keyed_object ?_ (forall_of_evalItems hvalues fun item hitem w => ih item hitem)
      rw [hsame]
      exact hkeys entries rfl
    | unary op operand =>
      obtain ⟨w, -, h⟩ := bind_eq_ok_iff.mp h
      obtain rfl := pure_eq_ok_iff.mp h
      exact Value.keyed_of_plain (op.isComposite_apply w)
    | binary op left right =>
      obtain ⟨a, ha, h⟩ := bind_eq_ok_iff.mp h
      obtain ⟨b, hb, h⟩ := bind_eq_ok_iff.mp h
      obtain rfl := pure_eq_ok_iff.mp h
      rcases BinaryOp.apply_cases op a b with hplain | heq | heq
      · exact Value.keyed_of_plain hplain
      · rw [heq]
        exact ih left (by simp [children]) ha
      · rw [heq]
        exact ih right (by simp [children]) hb
    | conditional test consequent alternate =>
      obtain ⟨t, -, h⟩ := bind_eq_ok_iff.mp h
      split at h
      · exact ih consequent (by simp [children]) h
      · exact ih alternate (by simp [children]) h
    | among needle choices =>
      obtain ⟨w, -, h⟩ := bind_eq_ok_iff.mp h
      split at h
      · obtain rfl := pure_eq_ok_iff.mp h
        exact Value.keyed_of_plain rfl
      · obtain ⟨found, -, h⟩ := bind_eq_ok_iff.mp h
        obtain rfl := pure_eq_ok_iff.mp h
        exact Value.keyed_of_plain rfl
    | between value low high =>
      obtain ⟨w, -, h⟩ := bind_eq_ok_iff.mp h
      obtain ⟨l, -, h⟩ := bind_eq_ok_iff.mp h
      obtain ⟨u, -, h⟩ := bind_eq_ok_iff.mp h
      obtain rfl := pure_eq_ok_iff.mp h
      exact Value.keyed_of_plain (Truth.isComposite_toValue _)
    | call name args =>
      obtain ⟨values, -, h⟩ := bind_eq_ok_iff.mp h
      split at h
      next f _ =>
        obtain rfl := pure_eq_ok_iff.mp h
        exact Value.keyed_of_plain (f.isComposite_call values)
      next => cases h
    | userCall name args =>
      obtain ⟨values, hvalues, h⟩ := bind_eq_ok_iff.mp h
      split at h
      next f hf =>
        obtain rfl := pure_eq_ok_iff.mp h
        exact hscope.functions name f hf values
          (forall_of_evalItems hvalues fun item hitem w => ih item hitem)
      next => cases h

/-- **Reading and emitting.** Take an expression whose value is an object. The object is emitted with
each key at most once. An access to a key of the expression has the first entry as its value, and the
last present entry is what is emitted there. The two are one wherever neither the scope nor the
expression repeats a key: then what is emitted under a key is what the access is emitted as, and
something is emitted under just those keys that have a present entry. -/
theorem eval_object_spec {entries : List (String × Value)}
    (h : e.eval scope = .ok (.object entries)) :
    ∃ fields, (Value.object entries).emitted = some (.object fields) ∧
      (fields.map Prod.fst).Nodup ∧ ∀ key : String,
        (property e (.literal (.string key))).eval scope = .ok ((Value.object entries).get key) ∧
        fields.lookup key = (Value.lastPresent? key entries).bind Value.emitted ∧
        (scope.Keyed → e.Keyed →
          fields.lookup key = ((Value.object entries).get key).emitted ∧
          ((fields.lookup key).isSome = true ↔
            ∃ v, (Value.object entries).get? key = some v ∧ v.isAbsent = false)) := by
  obtain ⟨fields, hemitted, hnodup, hfields⟩ := Value.emitted_object entries
  refine ⟨fields, hemitted, hnodup, fun key =>
    ⟨eval_property_of_eval (k := .string key) h rfl, hfields key, fun hscope he => ?_⟩⟩
  have hkeys := (keyed_of_eval hscope he h).nodup_keys
  rw [hfields key, Value.lastPresent?_bind_emitted hkeys key]
  exact ⟨rfl, Value.isSome_emitted_get_iff⟩

/-- The results of a function and of an absent path are emitted as they are read. Of two entries with
one key the first is read and the last is emitted. -/
theorem eval_object_spec_repeated_key :
    let pack (args : List Value) : Value := .object [("all", .array args)]
    let scope : Scope := ⟨.object [("x", .bool true)], [], .ofList [("pack", pack)]⟩
    let access (e : Expr) (key : String) : Expr := .property e (.literal (.string key))
    let once : Expr := .object [("a", .userCall "pack" [access (.identifier "c") "x"]),
      ("b", access (.identifier "c") "y")]
    let twice : Expr := .object [("a", .literal (.bool true)), ("a", .literal (.bool false))]
    let packed := pack [.bool true]
    (scope.Keyed ∧ once.Keyed ∧ ¬ twice.Keyed) ∧
    (∃ fields, (Value.object [("a", packed), ("b", .absent)]).emitted = some (.object fields) ∧
      (access once "a").eval scope = .ok packed ∧ fields.lookup "a" = packed.emitted ∧
      (access once "b").eval scope = .ok .absent ∧ fields.lookup "b" = none) ∧
    ∃ fields, (Value.object [("a", .bool true), ("a", .bool false)]).emitted =
        some (.object fields) ∧
      (access twice "a").eval scope = .ok (.bool true) ∧ fields.lookup "a" = some (.bool false) := by
  intro pack scope access once twice packed
  have hscope : scope.Keyed := by
    refine ⟨Value.keyed_object (by decide) ?_, nofun, fun name f hf args hargs => ?_⟩
    · exact List.forall_mem_singleton.mpr (Value.keyed_of_plain rfl)
    · obtain ⟨-, rfl⟩ := Prod.mk.inj (List.mem_singleton.mp (Entries.mem_of_lookup_eq_some hf))
      exact Value.keyed_object (List.nodup_singleton _)
        (List.forall_mem_singleton.mpr (Value.keyed_array hargs))
  have hidentifier : (identifier "c").Keyed := .intro nofun nofun nofun
  have hkey (key : String) : (literal (.string key)).Keyed := by
    refine .intro (fun v hv => ?_) nofun nofun
    obtain rfl := literal.inj hv
    exact Value.keyed_of_plain rfl
  have haccess (key : String) : (access (identifier "c") key).Keyed :=
    .intro nofun nofun
      (List.forall_mem_cons.mpr ⟨hidentifier, List.forall_mem_singleton.mpr (hkey key)⟩)
  have hcall : (userCall "pack" [access (identifier "c") "x"]).Keyed :=
    .intro nofun nofun (List.forall_mem_singleton.mpr (haccess "x"))
  have honce : once.Keyed := by
    refine .intro nofun (fun entries hentries => ?_)
      (List.forall_mem_cons.mpr ⟨hcall, List.forall_mem_singleton.mpr (haccess "y")⟩)
    obtain rfl := object.inj hentries
    decide
  have htwice : ¬ twice.Keyed := by
    rintro ⟨-, hkeys, -⟩
    exact absurd (hkeys _ rfl) (by decide)
  have heval : once.eval scope = .ok (.object [("a", packed), ("b", .absent)]) := rfl
  have hrepeats : twice.eval scope = .ok (.object [("a", .bool true), ("a", .bool false)]) := rfl
  obtain ⟨fields, hemitted, -, hfields⟩ := eval_object_spec heval
  obtain ⟨last, hlast, -, hread⟩ := eval_object_spec hrepeats
  exact ⟨⟨hscope, honce, htwice⟩, ⟨fields, hemitted, (hfields "a").1,
    ((hfields "a").2.2 hscope honce).1, (hfields "b").1, ((hfields "b").2.2 hscope honce).1⟩,
    last, hlast, (hread "a").1, (hread "a").2.1⟩

end Expr

end Folio
