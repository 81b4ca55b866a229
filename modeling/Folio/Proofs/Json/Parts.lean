import Folio.Json.Basic
import Folio.Proofs.Entries

/-!
# Parts of JSON data

The parts of JSON data are the elements of an array and the values of the entries of an object.
-/

namespace Folio.Json

/-- The JSON directly inside JSON data. -/
def parts : Json → List Json
  | .array items => items
  | .object entries => entries.map Prod.snd
  | _ => []

/-- A part is smaller than the data. -/
theorem sizeOf_lt_of_mem_parts {part j : Json} (h : part ∈ j.parts) : sizeOf part < sizeOf j := by
  cases j with
  | array items =>
    have hitem : sizeOf part < sizeOf items := List.sizeOf_lt_of_mem h
    simp only [array.sizeOf_spec]
    omega
  | object entries =>
    have hvalue : sizeOf part < sizeOf entries := Entries.sizeOf_lt_of_mem_map_snd h
    simp only [object.sizeOf_spec]
    omega
  | _ => cases h

/-- What holds of JSON data as soon as it holds of the parts holds of all JSON data. -/
theorem induction_parts {P : Json → Prop} (step : ∀ j, (∀ part ∈ j.parts, P part) → P j) (j : Json) :
    P j :=
  step j fun part _ => induction_parts step part
termination_by sizeOf j
decreasing_by exact sizeOf_lt_of_mem_parts ‹_›

/-- Something holds everywhere in JSON data: of the data and of the parts at any depth. -/
inductive Everywhere (P : Json → Prop) : Json → Prop
  | intro {j : Json} (here : P j) (parts : ∀ part ∈ j.parts, Everywhere P part) : Everywhere P j

/-- Data without parts holds something everywhere if it holds it itself. -/
theorem everywhere_of_plain {P : Json → Prop} {j : Json} (here : P j) (h : j.parts = []) :
    j.Everywhere P := by
  refine .intro here ?_
  rw [h]
  exact List.forall_mem_nil _

end Folio.Json
