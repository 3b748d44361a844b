import StoreQuery.Value.Kind
/-!
What can go wrong with a query. Errors are values: nothing is retried, and a transport failure passes
through unchanged.
-/
namespace StoreQuery

/-- A failure that a store's transport reports, with the text of its cause if it knows one. -/
structure TransportError where
  message : String
  cause : Option String := none
  deriving DecidableEq, Repr

def TransportError.text (e : TransportError) : String := "Transport error: " ++ e.message

inductive QueryError where
  /-- A condition, query or entity that is malformed in itself. -/
  | invalidArgument (reason : String)
  /-- A query that the store cannot express. -/
  | unsupportedQuery (backend reason : String)
  /-- A value that cannot be converted without loss. -/
  | conversion (name : Option String) (reason : String)
  /-- A kind of value that the store cannot hold. -/
  | unsupportedType (backend name : String) (kind : Kind)
  /-- A query for a single entity that found two. -/
  | ambiguous (collection : String)
  | transport (e : TransportError)
  deriving DecidableEq, Repr

namespace QueryError

def code : QueryError → String
  | .invalidArgument _ => "QUERY_INVALID_ARGUMENT"
  | .unsupportedQuery _ _ => "QUERY_UNSUPPORTED"
  | .conversion _ _ => "QUERY_CONVERSION_FAILED"
  | .unsupportedType _ _ _ => "QUERY_UNSUPPORTED_TYPE"
  | .ambiguous _ => "QUERY_AMBIGUOUS_RESULT"
  | .transport _ => "QUERY_TRANSPORT_FAILED"

def message : QueryError → String
  | .invalidArgument reason => "Invalid argument: " ++ reason
  | .unsupportedQuery backend reason => "Unsupported query for " ++ backend ++ ": " ++ reason
  | .conversion name reason =>
    "Conversion failed for attribute '" ++ name.getD "<value>" ++ "': " ++ reason
  | .unsupportedType backend name kind =>
    "Unsupported type " ++ kind.name ++ " for attribute '" ++ name ++ "' on " ++ backend
  | .ambiguous collection =>
    "Ambiguous result: more than one entity in '" ++ collection ++ "' matched"
  | .transport e => e.text

/-- The attribute that the error is about, where it knows one. -/
def attribute? : QueryError → Option String
  | .conversion name _ => name
  | .unsupportedType _ name _ => some name
  | _ => none

/-- The text of what caused the error, where that is another error. -/
def cause? : QueryError → Option String
  | .transport e => e.cause
  | _ => none

/-- Names the attribute of a conversion failure; a name that is already there stays. -/
def forAttribute (name : String) : QueryError → QueryError
  | .conversion none reason => .conversion (some name) reason
  | e => e

/-- A result computed for an attribute: its failure names the attribute. -/
def within {α : Type} (name : String) (r : Except QueryError α) : Except QueryError α :=
  r.mapError (forAttribute name)

end QueryError

end StoreQuery
