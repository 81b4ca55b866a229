import Mathlib.Data.List.Forall2

/-!
# Steps in sequence

A sequence of steps that may fail succeeds if every step does, and fails with the error of its first
step that fails. Checks in sequence come down to the list of the faults that they find: the first of
them is the error.
-/

namespace Folio

variable {ε α β γ : Type}

/-- Two steps succeed if the first one does and the second one does with its outcome. -/
theorem bind_eq_ok_iff {x : Except ε α} {f : α → Except ε β} {b : β} :
    x >>= f = .ok b ↔ ∃ a, x = .ok a ∧ f a = .ok b := by
  cases x with
  | error e => simp [bind, Except.bind]
  | ok a => simp [bind, Except.bind]

/-- Two steps fail if the first one does, or if the second one does with its outcome. -/
theorem bind_eq_error_iff {x : Except ε α} {f : α → Except ε β} {e : ε} :
    x >>= f = .error e ↔ x = .error e ∨ ∃ a, x = .ok a ∧ f a = .error e := by
  cases x with
  | error e => simp [bind, Except.bind]
  | ok a => simp [bind, Except.bind]

/-- A step with its outcome turned into another succeeds if the step does. -/
theorem map_eq_ok_iff {x : Except ε α} {f : α → β} {b : β} :
    x.map f = .ok b ↔ ∃ a, x = .ok a ∧ f a = b := by
  cases x with
  | error e => simp [Except.map]
  | ok a => simp [Except.map]

/-- A step with its outcome turned into another fails if the step does. -/
theorem map_eq_error_iff {x : Except ε α} {f : α → β} {e : ε} :
    x.map f = .error e ↔ x = .error e := by
  cases x <;> simp [Except.map]

/-- Outcomes turned into others twice are turned once. -/
theorem map_map_eq (x : Except ε α) (f : α → β) (g : β → γ) :
    (x.map f).map g = x.map (g ∘ f) := by
  cases x <;> rfl

/-- A step that only gives a result succeeds with it. -/
theorem pure_eq_ok_iff {a b : α} : (pure a : Except ε α) = .ok b ↔ a = b := by
  simp [pure, Except.pure]

/-- A step that only gives a result does not fail. -/
theorem pure_ne_error {a : α} {e : ε} : (pure a : Except ε α) ≠ .error e := by
  simp [pure, Except.pure]

/-- What is left of a step without its error is its outcome. -/
theorem toOption_eq_some_iff {x : Except ε α} {a : α} : x.toOption = some a ↔ x = .ok a := by
  cases x <;> simp [Except.toOption]

/-- A traversal that succeeds has a first step and the traversal of the others behind it. -/
theorem mapM_cons_eq_ok_iff {f : α → Except ε β} {a : α} {as : List α} {bs : List β} :
    (a :: as).mapM f = .ok bs ↔ ∃ b rest, f a = .ok b ∧ as.mapM f = .ok rest ∧ bs = b :: rest := by
  simp only [List.mapM_cons, bind_eq_ok_iff, pure_eq_ok_iff]
  constructor
  · rintro ⟨b, hfirst, rest, hrest, heq⟩
    exact ⟨b, rest, hfirst, hrest, heq.symm⟩
  · rintro ⟨b, rest, hfirst, hrest, heq⟩
    exact ⟨b, hfirst, rest, hrest, heq.symm⟩

/-- Each outcome of a traversal is that of one of its steps. -/
theorem exists_of_mapM_eq_ok {f : α → Except ε β} {as : List α} {bs : List β}
    (h : as.mapM f = .ok bs) {b : β} (hb : b ∈ bs) : ∃ a ∈ as, f a = .ok b := by
  induction as generalizing bs with
  | nil =>
    obtain rfl := pure_eq_ok_iff.mp h
    cases hb
  | cons a as ih =>
    obtain ⟨first, rest, hfirst, hrest, rfl⟩ := mapM_cons_eq_ok_iff.mp h
    rcases List.mem_cons.mp hb with rfl | hb
    · exact ⟨a, List.mem_cons_self, hfirst⟩
    · obtain ⟨a', ha', hb'⟩ := ih hrest hb
      exact ⟨a', List.mem_cons_of_mem a ha', hb'⟩

/-- A traversal whose steps follow those of another one has outcomes that follow the other ones. -/
theorem mapM_eq_ok_map {f : α → Except ε β} {g : α → Except ε γ} {k : β → γ} {as : List α}
    {bs : List β} (h : as.mapM f = .ok bs)
    (hstep : ∀ a ∈ as, ∀ b, f a = .ok b → g a = .ok (k b)) : as.mapM g = .ok (bs.map k) := by
  induction as generalizing bs with
  | nil =>
    obtain rfl := pure_eq_ok_iff.mp h
    rfl
  | cons a as ih =>
    obtain ⟨first, rest, hfirst, hrest, rfl⟩ := mapM_cons_eq_ok_iff.mp h
    obtain ⟨ha, has⟩ := List.forall_mem_cons.mp hstep
    exact mapM_cons_eq_ok_iff.mpr ⟨k first, rest.map k, ha first hfirst, ih hrest has, rfl⟩

/-- A traversal fails with the error of one of its steps. -/
theorem exists_of_mapM_eq_error {f : α → Except ε β} {as : List α} {e : ε}
    (h : as.mapM f = .error e) : ∃ a ∈ as, f a = .error e := by
  induction as with
  | nil => exact absurd h pure_ne_error
  | cons a as ih =>
    rw [List.mapM_cons, bind_eq_error_iff] at h
    rcases h with h | ⟨b, -, h⟩
    · exact ⟨a, List.mem_cons_self, h⟩
    · rcases bind_eq_error_iff.mp h with hrest | ⟨rest, -, h⟩
      · obtain ⟨a', ha', hfails⟩ := ih hrest
        exact ⟨a', List.mem_cons_of_mem a ha', hfails⟩
      · exact absurd h pure_ne_error

/-- A row of checks succeeds if each check does. -/
theorem forall_of_forM_eq_ok {f : α → Except ε Unit} {as : List α} (h : as.forM f = .ok ()) :
    ∀ a ∈ as, f a = .ok () := by
  induction as with
  | nil => simp
  | cons a as ih =>
    obtain ⟨_, ha, has⟩ := bind_eq_ok_iff.mp h
    exact List.forall_mem_cons.mpr ⟨ha, ih has⟩

/-- A row of checks fails with the error of one of them. -/
theorem exists_of_forM_eq_error {f : α → Except ε Unit} {as : List α} {e : ε}
    (h : as.forM f = .error e) : ∃ a ∈ as, f a = .error e := by
  induction as with
  | nil => cases h
  | cons a as ih =>
    rcases bind_eq_error_iff.mp h with ha | ⟨_, -, has⟩
    · exact ⟨a, List.mem_cons_self, ha⟩
    · obtain ⟨a', ha', hfails⟩ := ih has
      exact ⟨a', List.mem_cons_of_mem a ha', hfails⟩

/-- A traversal succeeds if each of its steps does, with their outcomes in order. -/
theorem mapM_eq_ok_iff_forall₂ {f : α → Except ε β} {as : List α} {bs : List β} :
    as.mapM f = .ok bs ↔ List.Forall₂ (fun a b => f a = .ok b) as bs := by
  induction as generalizing bs with
  | nil =>
    rw [List.mapM_nil, pure_eq_ok_iff, List.forall₂_nil_left_iff]
    exact eq_comm
  | cons a as ih => simp only [mapM_cons_eq_ok_iff, ih, List.forall₂_cons_left_iff]

/-! ## Faults -/

/-- The outcome of checks that find these faults, in their order. -/
def verdict : List ε → Except ε Unit
  | [] => .ok ()
  | fault :: _ => .error fault

/-- Checks one after another find the faults of the first ones and then those of the others. -/
theorem verdict_append (front rest : List ε) :
    verdict (front ++ rest) = verdict front >>= fun _ => verdict rest := by
  cases front <;> rfl

/-- A row of checks finds the faults that each of them finds. -/
theorem forM_eq_verdict {check : α → Except ε Unit} {faults : α → List ε} {as : List α}
    (h : ∀ a ∈ as, check a = verdict (faults a)) :
    as.forM check = verdict (as.flatMap faults) := by
  induction as with
  | nil => rfl
  | cons a as ih =>
    obtain ⟨ha, has⟩ := List.forall_mem_cons.mp h
    rw [List.forM_eq_forM, List.forM_cons, List.flatMap_cons, verdict_append, ha, ← ih has]
    rfl

/-- A traversal fails with the first fault of its steps. -/
theorem mapM_eq_error_iff {f : α → Except ε β} {fault? : α → Option ε}
    (hf : ∀ a e, f a = .error e ↔ fault? a = some e) {as : List α} {e : ε} :
    as.mapM f = .error e ↔ (as.filterMap fault?).head? = some e := by
  induction as with
  | nil => simp [pure_ne_error]
  | cons a as ih =>
    rw [List.mapM_cons]
    cases ha : f a with
    | error e' =>
      rw [List.filterMap_cons_some ((hf a e').mp ha)]
      simp [bind, Except.bind]
    | ok b =>
      have hnone : fault? a = none := by
        cases hfault : fault? a with
        | none => rfl
        | some e' =>
          rw [(hf a e').mpr hfault] at ha
          cases ha
      rw [List.filterMap_cons_none hnone, ← ih]
      cases as.mapM f <;> simp [bind, Except.bind, pure, Except.pure]

end Folio
