import StoreQuery.Number.Double
import StoreQuery.Time.Instant
import StoreQuery.Value.Kind
/-!
Values, and entities as the values that have named parts: an entity belongs to a collection and holds
its attributes in order.
-/
namespace StoreQuery

mutual

inductive Value where
  | text (s : String)
  | integer (n : Int64)
  | float (x : Double)
  | boolean (b : Bool)
  | temporal (t : Instant)
  | bytes (bs : List UInt8)
  | sequence (items : List Value)
  | entity (e : Entity)

structure Entity where
  name : String
  attributes : List Attribute

structure Attribute where
  name : String
  value : Value

end

instance : Inhabited Value := ⟨.boolean false⟩

namespace Value

def kind : Value → Kind
  | .text _ => .string
  | .integer _ => .integer
  | .float _ => .float
  | .boolean _ => .boolean
  | .temporal _ => .temporal
  | .bytes _ => .bytes
  | .sequence _ => .sequence
  | .entity _ => .entity

def text? : Value → Option String
  | .text s => some s
  | _ => none

def items? : Value → Option (List Value)
  | .sequence items => some items
  | _ => none

end Value

mutual

/-- Equality of values, where floats are equal as numbers: a NaN differs from itself. -/
def Value.equal : Value → Value → Bool
  | .text a, .text b => a == b
  | .integer a, .integer b => a == b
  | .float a, .float b => a.equal b
  | .boolean a, .boolean b => a == b
  | .temporal a, .temporal b => a == b
  | .bytes a, .bytes b => a == b
  | .sequence a, .sequence b => Value.equalItems a b
  | .entity ⟨m, as⟩, .entity ⟨n, bs⟩ => m == n && Value.equalAttributes as bs
  | _, _ => false

def Value.equalItems : List Value → List Value → Bool
  | [], [] => true
  | a :: as, b :: bs => a.equal b && Value.equalItems as bs
  | _, _ => false

def Value.equalAttributes : List Attribute → List Attribute → Bool
  | [], [] => true
  | ⟨m, a⟩ :: as, ⟨n, b⟩ :: bs => m == n && a.equal b && Value.equalAttributes as bs
  | _, _ => false

end

instance : BEq Value := ⟨Value.equal⟩

/-- Equality of entities keeps the order of attributes. -/
def Entity.equal (a b : Entity) : Bool :=
  a.name == b.name && Value.equalAttributes a.attributes b.attributes

instance : BEq Entity := ⟨Entity.equal⟩

end StoreQuery
