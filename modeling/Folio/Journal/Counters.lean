/-!
# Counters

What the engine counts, in 64 bits each.
-/

namespace Folio

/-- The things that are counted, in the order of their names. -/
inductive Counter where
  /-- Requests that were answered. -/
  | executions
  /-- Pages that were cut before the rows ended. -/
  | pagesTruncated
  | queriesCompiled
  | queriesParsed
  /-- Texts and requests that were refused. -/
  | queriesRejected
  | rowsReturned
  deriving DecidableEq

namespace Counter

/-- All counters in the order of their names. -/
def all : List Counter :=
  [.executions, .pagesTruncated, .queriesCompiled, .queriesParsed, .queriesRejected, .rowsReturned]

/-- The name of a counter. -/
def name : Counter → String
  | .executions => "executions"
  | .pagesTruncated => "pages_truncated"
  | .queriesCompiled => "queries_compiled"
  | .queriesParsed => "queries_parsed"
  | .queriesRejected => "queries_rejected"
  | .rowsReturned => "rows_returned"

/-- The counter of that name. -/
def ofName? (s : String) : Option Counter := all.find? fun c => c.name == s

end Counter

/-- The state of all counters. -/
structure Counters where
  count : Counter → UInt64

namespace Counters

/-- All counters at zero. -/
def zero : Counters := ⟨fun _ => 0⟩

/-- The state with an amount added to a counter. -/
def add (counters : Counters) (counter : Counter) (amount : UInt64) : Counters :=
  ⟨fun c => if c = counter then counters.count c + amount else counters.count c⟩

/-- The counters as a JSON text. -/
def text (counters : Counters) : String :=
  let entries := Counter.all.map fun c =>
    "\"" ++ c.name ++ "\":" ++ toString (counters.count c).toNat
  "\x7b" ++ ",".intercalate entries ++ "\x7d"

end Counters

end Folio
