/-!
The kinds of values, as errors name them.
-/
namespace StoreQuery

inductive Kind where
  | string
  | integer
  | float
  | boolean
  | temporal
  | bytes
  | sequence
  | entity
  deriving DecidableEq, Repr

def Kind.name : Kind → String
  | .string => "string"
  | .integer => "integer"
  | .float => "float"
  | .boolean => "boolean"
  | .temporal => "temporal"
  | .bytes => "bytes"
  | .sequence => "sequence"
  | .entity => "entity"

end StoreQuery
