import StoreQuery.Entity
import StoreQuery.Number.DoubleText
import StoreQuery.Time.Rfc3339
/-!
Records of the key-value store: a key in text form and the fields, the key's own field among them. There
is no form for nested entities.
-/
namespace StoreQuery.MapStore

def backend : String := "key_value"

inductive FieldValue where
  | text (s : String)
  | long (n : Int64)
  | double (x : Double)
  | bool (b : Bool)
  | instant (t : Instant)
  | bytes (bs : List UInt8)
  | list (items : List FieldValue)

mutual

def FieldValue.toValue : FieldValue → Value
  | .text s => .text s
  | .long n => .integer n
  | .double x => .float x
  | .bool b => .boolean b
  | .instant t => .temporal t
  | .bytes bs => .bytes bs
  | .list items => .sequence (FieldValue.toItems items)

def FieldValue.toItems : List FieldValue → List Value
  | [] => []
  | v :: vs => v.toValue :: FieldValue.toItems vs

end

mutual

/-- The field value of a value; the attribute is named when an entity is met. -/
def FieldValue.ofValue (name : String) : Value → Except QueryError FieldValue
  | .text s => .ok (.text s)
  | .integer n => .ok (.long n)
  | .float x => .ok (.double x)
  | .boolean b => .ok (.bool b)
  | .temporal t => .ok (.instant t)
  | .bytes bs => .ok (.bytes bs)
  | .sequence items => (FieldValue.ofItems name items).map .list
  | .entity _ => .error (.unsupportedType backend name .entity)

def FieldValue.ofItems (name : String) : List Value → Except QueryError (List FieldValue)
  | [] => .ok []
  | v :: vs => do
    let f ← FieldValue.ofValue name v
    let fs ← FieldValue.ofItems name vs
    return f :: fs

end

structure Record where
  key : String
  fields : List (String × FieldValue) := []

namespace Record

/-- Of fields with one name the first one counts. -/
def get? (r : Record) (name : String) : Option FieldValue := r.fields.lookup name

/-- The value of a field in the common value model. -/
def value? (r : Record) (name : String) : Option Value := (r.get? name).map FieldValue.toValue

def without (r : Record) (names : List String) : Record :=
  { r with fields := r.fields.filter fun f => f.1 ∉ names }

def hasAny (r : Record) (names : List String) : Bool := r.fields.any fun f => f.1 ∈ names

end Record

/-- The text form of a key. -/
def keyText (name : String) : Value → Except QueryError String
  | .text s => .ok s
  | .integer n => .ok (Decimal.ofInt n.toInt)
  | .float x => .ok x.text
  | .boolean b => .ok (if b then "true" else "false")
  | .temporal t => .ok (Rfc3339.write .letter t)
  | v => .error (.conversion (some name) (v.kind.name ++ " cannot be used as an entry key"))

def defaultKeyAttribute : String := "id"

def missingKey (collection keyAttribute : String) : QueryError :=
  .conversion (some keyAttribute) (collection ++ " has no key attribute")

def fieldsOf : List Attribute → Except QueryError (List (String × FieldValue))
  | [] => .ok []
  | a :: as => do
    let v ← FieldValue.ofValue a.name a.value
    let fs ← fieldsOf as
    return (a.name, v) :: fs

namespace Record

def ofEntity (keyAttribute : String) (e : Entity) : Except QueryError Record :=
  match e.get? keyAttribute with
  | none => .error (missingKey e.name keyAttribute)
  | some v => do
    let key ← keyText keyAttribute v
    let fields ← fieldsOf e.attributes
    return ⟨key, fields⟩

def readFields (e : Entity) : List (String × FieldValue) → Except QueryError Entity
  | [] => .ok e
  | (name, v) :: fields => do
    let e ← e.set name v.toValue
    readFields e fields

def toEntity (collection : String) (r : Record) : Except QueryError Entity := do
  let e ← Entity.new collection
  readFields e r.fields

end Record

end StoreQuery.MapStore
