import Folio.Entries
import Folio.Text.Quoted
import Folio.Value.Basic

/-!
# Functions of the caller

A query may call functions that its caller provides under names. Registering a name again replaces
its function.
-/

namespace Folio

/-- The functions that a caller provides, each name once. -/
structure UserFunctions where
  entries : List (String × (List Value → Value))

namespace UserFunctions

/-- No functions. -/
def empty : UserFunctions := ⟨[]⟩

/-- The functions with one more, or with one replaced. -/
def register (name : String) (f : List Value → Value) (functions : UserFunctions) :
    UserFunctions :=
  ⟨Entries.set name f functions.entries⟩

/-- The functions registered one after another. -/
def ofList (entries : List (String × (List Value → Value))) : UserFunctions :=
  ⟨Entries.ofList entries⟩

/-- The function of that name. -/
def get? (name : String) (functions : UserFunctions) : Option (List Value → Value) :=
  functions.entries.lookup name

/-- The number of names. -/
def size (functions : UserFunctions) : Nat := functions.entries.length

/-- Whether no function is registered. -/
def isEmpty (functions : UserFunctions) : Bool := functions.entries.isEmpty

/-- The names, in the order of their code points. -/
def names (functions : UserFunctions) : List String :=
  (functions.entries.map Prod.fst).mergeSort fun a b => a ≤ b

/-- The names as a reader is shown them. -/
def text (functions : UserFunctions) : String :=
  "UserFunctions \x7b names: [" ++ ", ".intercalate (functions.names.map Text.quoted) ++ "] \x7d"

end UserFunctions

end Folio
