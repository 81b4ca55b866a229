/-!
# Entries

A list of keyed entries in the order of their first writing. Looking up takes the first entry with
the key; setting replaces that entry in its place or adds one at the end.
-/

namespace Folio.Entries

/-- Entries in which the first entry with the key has the value; a new key goes to the end. -/
def set {α : Type} (key : String) (value : α) : List (String × α) → List (String × α)
  | [] => [(key, value)]
  | (k, v) :: rest => if k = key then (k, value) :: rest else (k, v) :: set key value rest

/-- The entries set one after another: each key once, in the place of its first entry, with its
last value. -/
def ofList {α : Type} (entries : List (String × α)) : List (String × α) :=
  entries.foldl (fun seen entry => set entry.1 entry.2 seen) []

end Folio.Entries
