import Folio.Expr.Operator
import Folio.Number.Interchange
import Folio.Query.Session
import Folio.Wire
import Folio.Proofs.Paging.Boundary
import Folio.Proofs.Text.Base64Url
import Folio.Proofs.Text.Utf8
import Folio.Proofs.Json.NumberText
import Folio.Proofs.Json.Quoted
import Folio.Proofs.Json.Lexeme
import Folio.Proofs.Json.Written
import Folio.Proofs.Paging.Token
import Folio.Proofs.Paging.Cut
import Folio.Proofs.Paging.Scan
import Folio.Proofs.Paging.Termination
import Folio.Proofs.Paging.Place
import Folio.Proofs.Paging.Carried
import Folio.Proofs.Value.Inside
import Folio.Proofs.Query.Execution
import Folio.Proofs.Query.Session
import Folio.Proofs.Query.Paging
import Folio.Proofs.Sequence
import Folio.Proofs.Expr.Names
import Folio.Proofs.Query.Compile
import Folio.Proofs.Query.Continuation
import Folio.Proofs.Query.Parsing
import Folio.Proofs.Expr.Progress
import Folio.Proofs.Query.Errors
import Folio.Proofs.Number.Rounding
import Folio.Proofs.Number.Shortest
import Folio.Proofs.Number.Scaling
import Folio.Proofs.Json.NumberValue
import Folio.Proofs.Query.Projection
import Folio.Proofs.Rows.Sort
import Folio.Proofs.Expr.Nodes
import Folio.Proofs.Value.Finite
import Folio.Proofs.Query.Literals
import Folio.Proofs.Query.Partition
import Folio.Proofs.Query.RoundTrip
import Folio.Proofs.Value.Relation
import Folio.Proofs.Expr.Membership
import Folio.Proofs.Query.Accounting
import Folio.Proofs.Rows.Lawful
import Folio.Proofs.Query.SortKeys
import Folio.Proofs.Expr.Positions
import Folio.Proofs.Expr.Keyed
import Folio.Proofs.Expr.Recursion
import Folio.Proofs.Query.Heights
import Folio.Proofs.Expr.Faults
import Folio.Proofs.Query.Scoping
import Folio.Proofs.Expr.Disjunction
import Folio.Proofs.Query.Columns
import Folio.Proofs.Query.Nesting
import Folio.Proofs.Query.Quotes
import Folio.Proofs.Query.Escapes
import Folio.Proofs.Query.Places
import Folio.Proofs.Value.Clean
import Folio.Proofs.Value.Document
import Folio.Proofs.Value.Insertion
import Folio.Proofs.Number.Word
import Folio.Proofs.Rows.Indexes
import Folio.Proofs.Text.CharOrder
import Folio.Proofs.Journal.Line
