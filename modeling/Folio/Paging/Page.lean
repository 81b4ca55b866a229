import Folio.Paging.Token
import Folio.Rows.Sort
import Folio.Value.Document

/-!
# Pages

A scan hands out sorted rows page by page. Where a page ends before the rows do, the checkpoint of
the next row goes with it. The next request finds that row again by comparing: rows behind the
checkpoint are passed over, and of the rows that tie with it as many as were handed out before.
-/

namespace Folio

/-- The range of partition keys that a continuation covers. -/
structure ScanRange where
  min : String
  max : String
  deriving DecidableEq

/-- The range of all partition keys. -/
def ScanRange.full : ScanRange := ⟨"", "FF"⟩

/-- What a caller needs to ask for the next page. -/
structure Continuation where
  token : String
  range : ScanRange

/-- One page of results. -/
structure Page where
  results : List Json
  /-- The place of the first row after the page, if there is one. -/
  next : Option Checkpoint

/-- The continuation that is handed out with a page. -/
def Page.continuation? (page : Page) (range : ScanRange) : Option Continuation :=
  page.next.map fun checkpoint => ⟨checkpoint.token, range⟩

/-- Where a row stands with respect to a checkpoint. -/
inductive Standing where
  | behind
  /-- The row ties with the checkpoint, which counts such rows. -/
  | tied
  | ahead
  deriving DecidableEq

/-- How rows are paged: by the order in which they are sorted. -/
structure Paging where
  identifier : Identifier
  clauses : List OrderClause

namespace Paging

/-- The identifier of a row, which the option needs. -/
def identify (paging : Paging) (option : PagingOption) (row : Row) : Except QueryError Value :=
  let identifier := paging.identifier.read row.source
  if identifier.isTruthy then .ok identifier
  else .error (.identifierRequired paging.identifier.field option)

/-- The order of the sort keys of a row and those of a checkpoint, absent where it has none. -/
def compareResume (paging : Paging) (checkpoint : Checkpoint) (row : Row) : Ordering :=
  match checkpoint.resume with
  | none => .eq
  | some stored =>
    OrderClause.compareKeys paging.clauses (OrderClause.keys paging.clauses row.source)
      (stored ++ List.replicate paging.clauses.length .absent)

/-- Where a row stands. Identifiers are looked at only if the sort keys tie. -/
def standing (paging : Paging) (checkpoint : Checkpoint) (row : Row) : Except QueryError Standing :=
  match paging.compareResume checkpoint row with
  | .lt => .ok .behind
  | .gt => .ok .ahead
  | .eq => do
    let identifier ← paging.identify .continuation row
    if identifier.totalCompare checkpoint.identifier = .lt then return .behind
    else if checkpoint.skip ≠ 0 ∧ identifier.deepEqual checkpoint.identifier then return .tied
    else return .ahead

/-- The number of rows to pass over, after `seen` tied ones. -/
def passOver (paging : Paging) (checkpoint : Checkpoint) (seen : Nat) :
    List Row → Except QueryError Nat
  | [] => .ok 0
  | row :: rest => do
    match ← paging.standing checkpoint row with
    | .behind => return 1 + (← passOver paging checkpoint seen rest)
    | .ahead => return 0
    | .tied =>
      if seen = checkpoint.skip then return 0
      else return 1 + (← passOver paging checkpoint (seen + 1) rest)

/-- The number of rows before the page that a checkpoint asks for. -/
def start (paging : Paging) (checkpoint : Option Checkpoint) (rows : List Row) :
    Except QueryError Nat :=
  match checkpoint with
  | some checkpoint => paging.passOver checkpoint 0 rows
  | none => .ok 0

/-- The checkpoint of the row `next`, given the rows before it in order, the size of the page and
the checkpoint where the page began. -/
def checkpointAt (paging : Paging) (before : List Row) (next : Row) (size : Nat)
    (previous : Option Checkpoint) : Except QueryError Checkpoint := do
  let identifier ← paging.identify .pageSize next
  let repeats := before.reverse.takeWhile fun row =>
    (paging.identifier.read row.source).deepEqual identifier
  return {
    identifier := identifier
    round := wrapCounter ((previous.map Checkpoint.round).getD 0 + 1)
    skip := repeats.length
    total := wrapCounter ((previous.map Checkpoint.total).getD 0 + size)
    resume :=
      if paging.clauses.isEmpty then none else some (OrderClause.keys paging.clauses next.source) }

/-- The greatest number of rows on a page: a size that is missing or not positive is no limit. -/
def limit? (size : Option Int) : Option Nat :=
  match size with
  | some size => if 0 < size then some size.toNat else none
  | none => none

/-- The results of rows: cleaned of what is absent, and without absent ones. -/
def results (rows : List Row) : List Json := rows.filterMap fun row => row.projected.clean.toJson?

/-- The page of a number of rows at most, from a place on. -/
def cut (paging : Paging) (rows : List Row) (start : Nat) (limit : Option Nat)
    (previous : Option Checkpoint) : Except QueryError Page :=
  match limit with
  | none => .ok ⟨results (rows.drop start), none⟩
  | some size =>
    match rows.drop (start + size) with
    | [] => .ok ⟨results (rows.drop start), none⟩
    | next :: _ => do
      let checkpoint ← paging.checkpointAt (rows.take (start + size)) next size previous
      return ⟨results ((rows.drop start).take size), some checkpoint⟩

/-- The page that a request asks for. -/
def paginate (paging : Paging) (rows : List Row) (size : Option Int) (token : Option String) :
    Except QueryError Page := do
  let previous ← token.mapM fun t => (Checkpoint.ofToken t).mapError .invalidToken
  let start ← paging.start previous rows
  paging.cut rows start (limit? size) previous

end Paging

/-- Whether a query has a result. A single absent row counts as none. -/
def hasResult : List Value → Bool
  | [] => false
  | [v] => !v.isAbsent
  | _ => true

end Folio
