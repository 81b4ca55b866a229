import Folio.Journal.Counters
import Folio.Journal.Line

/-!
# The journal

The journal is what an engine leaves behind besides its answers: lines in two streams, and counters.
A line is written if its level reaches the threshold; grave lines go to a stream of their own.
-/

namespace Folio

/-- The events in the life of a query. -/
inductive Event where
  | parsed
  | compiled
  | rejected
  | executed
  | pageTruncated
  deriving DecidableEq

namespace Event

/-- All events. -/
def all : List Event := [.parsed, .compiled, .rejected, .executed, .pageTruncated]

/-- The name of an event. -/
def name : Event → String
  | .parsed => "QUERY_PARSED"
  | .compiled => "QUERY_COMPILED"
  | .rejected => "QUERY_REJECTED"
  | .executed => "QUERY_EXECUTED"
  | .pageTruncated => "PAGE_TRUNCATED"

/-- The event of that name. -/
def ofName? (s : String) : Option Event := all.find? fun e => e.name == s

/-- How much an event matters. -/
def level : Event → Level
  | .rejected => .error
  | .pageTruncated => .trace
  | _ => .info

/-- The counter that counts the event. -/
def counter : Event → Counter
  | .parsed => .queriesParsed
  | .compiled => .queriesCompiled
  | .rejected => .queriesRejected
  | .executed => .executions
  | .pageTruncated => .pagesTruncated

end Event

/-- Lines in two streams and counters. -/
structure Journal where
  /-- The level that lines have to reach, unless their query has a level of its own. -/
  threshold : Level
  /-- The lines below `error`, oldest first. -/
  ordinary : List String
  /-- The lines from `error` up, oldest first. -/
  grave : List String
  counters : Counters

namespace Journal

/-- The journal at the start. -/
def empty : Journal := ⟨.warn, [], [], .zero⟩

/-- Writes a line that reaches the threshold. -/
def write (threshold level : Level) (event : String) (fields : List (String × String))
    (j : Journal) : Journal :=
  if !level.reaches threshold then j
  else if level.reaches .error then { j with grave := j.grave ++ [line level event fields] }
  else { j with ordinary := j.ordinary ++ [line level event fields] }

/-- Writes the line of an event, under a threshold of its own if there is one. -/
def log (own : Option Level) (event : Event) (fields : List (String × String)) (j : Journal) :
    Journal :=
  j.write (own.getD j.threshold) event.level event.name fields

/-- Adds to a counter. -/
def count (counter : Counter) (amount : Nat) (j : Journal) : Journal :=
  { j with counters := j.counters.add counter (UInt64.ofNat amount) }

/-- Counts an event and writes its line. -/
def record (own : Option Level) (event : Event) (fields : List (String × String)) (j : Journal) :
    Journal :=
  (j.count event.counter 1).log own event fields

end Journal

end Folio
