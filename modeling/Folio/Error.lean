import Folio.Query.Token
import Folio.Text.Position

/-!
# Errors

An error is the cause that stopped a query. Its code, its severity and the message for the reader
follow from the cause. Data is never a cause: a value of the wrong kind makes an expression absent.
-/

namespace Folio

/-- How grave an error is. -/
inductive Severity where
  /-- The request is refused before any work is done. -/
  | reject
  /-- The work cannot be done on this input. -/
  | error
  /-- A promise between the parts of the engine is broken. -/
  | fatal
  deriving DecidableEq

/-- The name of a severity. -/
def Severity.text : Severity → String
  | .reject => "REJECT"
  | .error => "ERROR"
  | .fatal => "FATAL"

/-- The classes of errors. -/
inductive ErrorCode where
  | malformedText
  | unresolvedIdentifier
  | brokenInvariant
  | missingIndex
  | identifierRequired
  | invalidToken
  | unsupportedOperator
  | unknownFunction
  deriving DecidableEq

namespace ErrorCode

/-- The code by which callers tell errors apart. -/
def text : ErrorCode → String
  | .malformedText => "DOCQ_SYNTAX_ERROR"
  | .unresolvedIdentifier => "DOCQ_UNRESOLVED_IDENTIFIER"
  | .brokenInvariant => "DOCQ_COMPILATION_INVARIANT"
  | .missingIndex => "DOCQ_MISSING_COMPOSITE_INDEX"
  | .identifierRequired => "DOCQ_IDENTIFIER_REQUIRED"
  | .invalidToken => "DOCQ_INVALID_CONTINUATION"
  | .unsupportedOperator => "DOCQ_UNSUPPORTED_OPERATOR"
  | .unknownFunction => "DOCQ_UNKNOWN_FUNCTION"

/-- The severity of the class. -/
def severity : ErrorCode → Severity
  | .malformedText => .reject
  | .unresolvedIdentifier => .reject
  | .brokenInvariant => .fatal
  | .missingIndex => .error
  | .identifierRequired => .error
  | .invalidToken => .reject
  | .unsupportedOperator => .fatal
  | .unknownFunction => .reject

end ErrorCode

/-- The paging options that need row identifiers. -/
inductive PagingOption where
  | continuation
  | pageSize
  deriving DecidableEq

/-- The name of a paging option. -/
def PagingOption.text : PagingOption → String
  | .continuation => "continuation"
  | .pageSize => "maxItemCount"

/-- Why a text is not a continuation token. -/
inductive TokenFault where
  /-- It is not the encoding of any bytes. -/
  | encoding
  /-- The bytes do not describe a checkpoint. -/
  | malformed
  deriving DecidableEq

/-- The message for a text that is not a token. -/
def TokenFault.message : TokenFault → String
  | .encoding => "continuation token is not valid base64"
  | .malformed => "continuation token is malformed"

/-- What stopped a query. -/
inductive QueryError where
  /-- The text is not a query. -/
  | malformedText (position : Text.Position) (fault : Query.TextFault)
  /-- An identifier is not the name of the document. -/
  | unresolvedIdentifier (name : String)
  /-- Rows are to be ordered by something other than a property path. -/
  | orderNotPath
  /-- No composite index serves the order. -/
  | missingIndex
  /-- A row without an identifier meets a paging option that needs one. -/
  | identifierRequired (field : String) (option : PagingOption)
  | invalidToken (fault : TokenFault)
  | unsupportedOperator (text : String)
  | unknownFunction (name : String)
  /-- A built-in function is called with a number of arguments that it does not take. -/
  | argumentCount (name : String) (count : Nat)

namespace QueryError

/-- The class of an error. -/
def code : QueryError → ErrorCode
  | .malformedText _ _ => .malformedText
  | .unresolvedIdentifier _ => .unresolvedIdentifier
  | .orderNotPath => .brokenInvariant
  | .missingIndex => .missingIndex
  | .identifierRequired _ _ => .identifierRequired
  | .invalidToken _ => .invalidToken
  | .unsupportedOperator _ => .unsupportedOperator
  | .unknownFunction _ => .unknownFunction
  | .argumentCount _ _ => .unknownFunction

/-- The severity of an error. -/
def severity (e : QueryError) : Severity := e.code.severity

/-- Whether a promise between the parts of the engine is broken. -/
def isFatal (e : QueryError) : Bool := e.severity == .fatal

/-- The place in the query text where the error lies. -/
def position? : QueryError → Option Text.Position
  | .malformedText position _ => some position
  | _ => none

/-- What the error says. -/
def message : QueryError → String
  | .malformedText _ fault => fault.message
  | .unresolvedIdentifier name => "Identifier '" ++ name ++ "' could not be resolved"
  | .orderNotPath => "ORDER BY item is not a property path"
  | .missingIndex =>
    "The order by query does not have a corresponding composite index that it can be served from."
  | .identifierRequired field option =>
    "The " ++ field ++ " field is required on items for the " ++ option.text ++ " option."
  | .invalidToken fault => fault.message
  | .unsupportedOperator text => "Unexpected operator: " ++ text
  | .unknownFunction name => "Unknown function '" ++ name ++ "'"
  | .argumentCount name count =>
    "Function '" ++ name ++ "' does not accept " ++ toString count ++ " argument(s)"

/-- The error as one line: severity, code, message, and the place if there is one. -/
def display (e : QueryError) : String :=
  let place :=
    match e.position? with
    | some position => " (at " ++ position.text ++ ")"
    | none => ""
  "[" ++ e.severity.text ++ "] " ++ e.code.text ++ ": " ++ e.message ++ place

/-- The error of a fault in a query text. -/
def ofFault (text : String) (f : Query.LocatedFault) : QueryError :=
  .malformedText (Text.Position.locate text f.offset) f.fault

end QueryError

end Folio
