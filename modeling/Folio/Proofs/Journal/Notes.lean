import Folio.Journal.Basic

/-!
# Notes in the journal

What a query leaves in the journal is a row of notes: events, which are counted and written, and
numbers of rows, which are only counted. The counters grow by what the notes count. Under the
threshold `trace` every event is written, and its line begins with its name, so the lines that begin
with a name are as many as the events of that name.
-/

namespace Folio

namespace Event

/-- Different events have different counters. -/
theorem counter_inj {e e' : Event} : e.counter = e'.counter ↔ e = e' := by
  cases e <;> cases e' <;> decide

/-- No event counts rows. -/
theorem counter_ne_rowsReturned (e : Event) : e.counter ≠ .rowsReturned := by
  cases e <;> decide

/-- The characters that a line of the event begins with. -/
def opening (e : Event) : List Char := '\x7b' :: Journal.entry ("event", e.name)

/-- Whether a line begins as the lines of the event do. -/
def heads (e : Event) (line : String) : Bool := e.opening.isPrefixOf line.toList

/-- The beginnings of lines of different events differ early on. -/
theorem eq_of_opening_begins {e e' : Event} (h : e.opening <+: e'.opening) : e = e' := by
  revert h
  cases e <;> cases e' <;> decide +kernel

/-- No line begins as the lines of two events do. -/
theorem eq_of_heads {e e' : Event} {line : String} (h : e.heads line = true)
    (h' : e'.heads line = true) : e = e' := by
  rw [heads, List.isPrefixOf_iff_prefix] at h h'
  rcases List.prefix_or_prefix_of_prefix h h' with hshort | hshort
  · exact eq_of_opening_begins hshort
  · exact (eq_of_opening_begins hshort).symm

/-- The line of an event begins as the lines of the event do. -/
theorem heads_line_self (e : Event) (level : Level) (fields : List (String × String)) :
    e.heads (Journal.line level e.name fields) = true := by
  rw [heads, List.isPrefixOf_iff_prefix, Journal.line, Journal.arranged, List.map_cons,
    List.map_cons, String.toList_ofList, List.intercalate, List.intersperse_cons_cons,
    List.flatten_cons, opening, List.cons_append, List.append_assoc]
  exact List.prefix_append (_ :: _) _

/-- The line of an event begins as the lines of no other event do. -/
theorem heads_line (e e' : Event) (level : Level) (fields : List (String × String)) :
    e.heads (Journal.line level e'.name fields) = decide (e = e') := by
  have hself := heads_line_self e' level fields
  by_cases heq : e = e'
  · rw [heq, hself, decide_eq_true rfl]
  · rw [decide_eq_false heq, ← Bool.not_eq_true]
    exact fun hother => heq (eq_of_heads hother hself)

end Event

/-- Something that a query leaves in the journal. -/
inductive Note where
  | event (event : Event) (fields : List (String × String))
  /-- A number of rows that were returned. -/
  | rows (count : Nat)

/-- How much a note adds to a counter. -/
def Note.amount (counter : Counter) : Note → Nat
  | .event e _ => if e.counter = counter then 1 else 0
  | .rows count => if counter = .rowsReturned then count else 0

/-- How much notes add to a counter. -/
def Note.total (counter : Counter) : List Note → Nat
  | [] => 0
  | note :: notes => note.amount counter + total counter notes

/-- Notes in a row add up. -/
theorem Note.total_append (counter : Counter) (first second : List Note) :
    total counter (first ++ second) = total counter first + total counter second := by
  induction first with
  | nil => exact (Nat.zero_add _).symm
  | cons note first ih => rw [List.cons_append, total, total, ih, Nat.add_assoc]

namespace Journal

/-- The journal with a note, under a threshold of its own if there is one. -/
def note (own : Option Level) (j : Journal) : Note → Journal
  | .event e fields => j.record own e fields
  | .rows count => j.count .rowsReturned count

/-- The journal with notes, one after another. -/
def noteAll (own : Option Level) (notes : List Note) (j : Journal) : Journal :=
  notes.foldl (note own) j

/-- All lines, those of one stream before those of the other. -/
def lines (j : Journal) : List String := j.ordinary ++ j.grave

variable {own : Option Level} {j : Journal}

/-- Notes in a row are noted one after another. -/
theorem noteAll_append (first second : List Note) :
    j.noteAll own (first ++ second) = (j.noteAll own first).noteAll own second :=
  List.foldl_append

/-- Writing does not change the threshold and the counters. -/
theorem write_spec (threshold level : Level) (event : String) (fields : List (String × String))
    (j : Journal) : (j.write threshold level event fields).threshold = j.threshold ∧
      (j.write threshold level event fields).counters = j.counters := by
  unfold write
  by_cases hreaches : level.reaches threshold = true <;>
    by_cases hgrave : level.reaches .error = true <;> simp [hreaches, hgrave]

/-- A note does not change the threshold. -/
theorem threshold_note (note : Note) : (j.note own note).threshold = j.threshold := by
  cases note with
  | event e fields => exact (write_spec ..).1
  | rows count => rfl

/-- A note adds to the counters what it counts. -/
theorem count_note (note : Note) (counter : Counter) :
    (j.note own note).counters.count counter =
      j.counters.count counter + UInt64.ofNat (note.amount counter) := by
  cases note with
  | event e fields =>
    rw [Journal.note, record, log, (write_spec ..).2, count, Counters.add, Note.amount]
    by_cases hcounter : counter = e.counter
    · simp [hcounter]
    · simp [hcounter, Ne.symm hcounter]
  | rows count =>
    rw [Journal.note, Journal.count, Counters.add, Note.amount]
    by_cases hcounter : counter = .rowsReturned <;> simp [hcounter]

/-- A line that reaches the threshold is written to one of the streams. -/
theorem lines_write_perm {threshold level : Level} (hreaches : level.reaches threshold = true)
    (event : String) (fields : List (String × String)) (j : Journal) :
    (j.write threshold level event fields).lines.Perm (j.lines ++ [line level event fields]) := by
  rw [write, hreaches]
  by_cases hgrave : level.reaches .error = true
  · simp [hgrave, lines]
  · have hlast : ([line level event fields] ++ j.grave).Perm
        (j.grave ++ [line level event fields]) := List.perm_append_comm
    simpa [hgrave, lines] using hlast.append_left j.ordinary

/-- Every level reaches the threshold `trace`. -/
theorem reaches_trace (level : Level) : level.reaches .trace = true := by
  cases level <;> rfl

/-- A note adds a line under the threshold `trace` if it is an event. -/
theorem countP_lines_note (htrace : own.getD j.threshold = .trace) (note : Note) (e : Event) :
    (j.note own note).lines.countP e.heads =
      j.lines.countP e.heads + note.amount e.counter := by
  cases note with
  | event e' fields =>
    have hwritten := lines_write_perm (reaches_trace e'.level) e'.name fields
      (j.count e'.counter 1)
    rw [Journal.note, record, log, show (j.count e'.counter 1).threshold = j.threshold from rfl,
      htrace, hwritten.countP_eq, List.countP_append, List.countP_singleton, Event.heads_line,
      Note.amount]
    by_cases heq : e = e'
    · simp [heq, lines, count]
    · simp [heq, Ne.symm heq, lines, count, Event.counter_inj]
  | rows count => simp [note, Journal.count, lines, Note.amount, Event.counter_ne_rowsReturned]

/-- Notes do not change the threshold. -/
theorem threshold_noteAll (notes : List Note) :
    (j.noteAll own notes).threshold = j.threshold := by
  induction notes generalizing j with
  | nil => rfl
  | cons note notes ih => exact ih.trans (threshold_note note)

/-- Notes add to the counters what they count. -/
theorem count_noteAll (notes : List Note) (counter : Counter) :
    (j.noteAll own notes).counters.count counter =
      j.counters.count counter + UInt64.ofNat (Note.total counter notes) := by
  induction notes generalizing j with
  | nil => exact (UInt64.add_zero _).symm
  | cons note notes ih =>
    rw [noteAll, List.foldl_cons, ← noteAll, ih, count_note, Note.total, UInt64.ofNat_add,
      UInt64.add_assoc]

/-- Under the threshold `trace` the lines of an event become more by as many as its counter. -/
theorem countP_lines_noteAll (htrace : own.getD j.threshold = .trace) (notes : List Note)
    (e : Event) : (j.noteAll own notes).lines.countP e.heads =
      j.lines.countP e.heads + Note.total e.counter notes := by
  induction notes generalizing j with
  | nil => rfl
  | cons note notes ih =>
    have hrest := ih (j := j.note own note) (by rwa [threshold_note])
    rw [noteAll, List.foldl_cons, ← noteAll, hrest, countP_lines_note htrace, Note.total,
      Nat.add_assoc]

end Journal

end Folio
