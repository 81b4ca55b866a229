/-!
# Reading with progress

A reader takes a value from the front of a list and returns the rest with a proof that the rest is
shorter than a bound. A loop of readers therefore ends. Readings are made by `leaving`, put after
other members by `past` and after other readings by `after`, which keep the bounds in step.
-/

namespace Folio

/-- A value read from the front of a list and what follows it, fewer than `bound` members. -/
structure Progress (τ α : Type) (bound : Nat) where
  value : α
  rest : List τ
  shorter : rest.length < bound

namespace Progress

/-- The reading that leaves the given rest, under its least bound. -/
def leaving {τ α : Type} (value : α) (rest : List τ) : Progress τ α (rest.length + 1) :=
  ⟨value, rest, Nat.lt_succ_self rest.length⟩

/-- The same reading under a larger bound. -/
def weaken {τ α : Type} {m n : Nat} (step : Progress τ α m) (h : m ≤ n) : Progress τ α n :=
  ⟨step.value, step.rest, Nat.lt_of_lt_of_le step.shorter h⟩

/-- The same reading with one more member before it. -/
def past {τ α : Type} {n : Nat} (step : Progress τ α n) : Progress τ α (n + 1) :=
  step.weaken (Nat.le_succ n)

/-- The reading with another value. -/
def map {τ α β : Type} {n : Nat} (f : α → β) (step : Progress τ α n) : Progress τ β n :=
  ⟨f step.value, step.rest, step.shorter⟩

/-- A reading of what an earlier reading leaves. -/
def after {τ α β : Type} {n : Nat} (earlier : Progress τ α n)
    (later : Progress τ β earlier.rest.length) : Progress τ β n :=
  later.weaken (Nat.le_of_lt earlier.shorter)

/-- A reading, perhaps of nothing, from what an earlier reading leaves. -/
def afterOptional {τ α β : Type} {n : Nat} (earlier : Progress τ α n)
    (later : Progress τ β (earlier.rest.length + 1)) : Progress τ β n :=
  later.weaken earlier.shorter

end Progress

end Folio
