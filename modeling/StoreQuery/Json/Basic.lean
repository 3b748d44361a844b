import StoreQuery.Number.Double
/-!
JSON values. The fields of an object stand by increasing name, each name once.
-/
namespace StoreQuery

inductive Json where
  | null
  | boolean (b : Bool)
  | integer (n : Int)
  | float (x : Double)
  | string (s : String)
  | array (items : List Json)
  | object (fields : List (String × Json))

namespace Json

abbrev Fields := List (String × Json)

namespace Fields

/-- Sets a field; a field of that name is replaced. -/
def put (name : String) (v : Json) : Fields → Fields
  | [] => [(name, v)]
  | (n, w) :: rest =>
    match compare name n with
    | .lt => (name, v) :: (n, w) :: rest
    | .eq => (name, v) :: rest
    | .gt => (n, w) :: put name v rest

def ofList (fields : List (String × Json)) : Fields := fields.foldl (fun fs f => put f.1 f.2 fs) []

def get? (fs : Fields) (name : String) : Option Json := fs.lookup name

def erase (fs : Fields) (name : String) : Fields := fs.filter fun f => f.1 ≠ name

end Fields

/-- An object from fields in any order; of one name the last counts. -/
def ofFields (fields : List (String × Json)) : Json := .object (Fields.ofList fields)

def field? : Json → String → Option Json
  | .object fs, name => Fields.get? fs name
  | _, _ => none

def items? : Json → Option (List Json)
  | .array items => some items
  | _ => none

def string? : Json → Option String
  | .string s => some s
  | _ => none

end Json

end StoreQuery
