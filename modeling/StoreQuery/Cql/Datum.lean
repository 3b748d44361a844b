import StoreQuery.Entity
import StoreQuery.Number.Decimal
/-!
Column values of the wide-column store. Every value has one: instants become milliseconds, and nested
entities become user-defined types, which read back as entities named after what holds them.
-/
namespace StoreQuery.Cql

inductive Datum where
  | text (s : String)
  | bigint (n : Int64)
  | double (x : Double)
  | boolean (b : Bool)
  /-- Milliseconds since 1970. -/
  | timestamp (millis : Int64)
  | blob (bs : List UInt8)
  | list (items : List Datum)
  /-- A user-defined type, its fields in order. -/
  | udt (fields : List (String × Datum))

mutual

def Datum.ofValue : Value → Datum
  | .text s => .text s
  | .integer n => .bigint n
  | .float x => .double x
  | .boolean b => .boolean b
  | .temporal t => .timestamp (Int64.ofInt t.toMillis)
  | .bytes bs => .blob bs
  | .sequence items => .list (Datum.ofItems items)
  | .entity ⟨_, as⟩ => .udt (Datum.ofAttributes as)

def Datum.ofItems : List Value → List Datum
  | [] => []
  | v :: vs => Datum.ofValue v :: Datum.ofItems vs

def Datum.ofAttributes : List Attribute → List (String × Datum)
  | [] => []
  | ⟨n, v⟩ :: as => (n, Datum.ofValue v) :: Datum.ofAttributes as

end

def badTimestamp (millis : Int64) : QueryError :=
  .conversion none ("timestamp " ++ Decimal.ofInt millis.toInt ++ " out of range")

mutual

/-- The value of a column; nested entities take the column's name. -/
def Datum.read (column : String) : Datum → Except QueryError Value
  | .text s => .ok (.text s)
  | .bigint n => .ok (.integer n)
  | .double x => .ok (.float x)
  | .boolean b => .ok (.boolean b)
  | .timestamp ms =>
    match Instant.ofMillis? ms.toInt with
    | some t => .ok (.temporal t)
    | none => .error (badTimestamp ms)
  | .blob bs => .ok (.bytes bs)
  | .list items => (Datum.readItems column items).map .sequence
  | .udt fields => do
    let attributes ← Datum.readFields fields
    let e ← Entity.of column attributes
    return .entity e

def Datum.readItems (column : String) : List Datum → Except QueryError (List Value)
  | [] => .ok []
  | d :: ds => do
    let v ← Datum.read column d
    let vs ← Datum.readItems column ds
    return v :: vs

def Datum.readFields : List (String × Datum) → Except QueryError (List Attribute)
  | [] => .ok []
  | (name, d) :: fields => do
    let v ← QueryError.within name (Datum.read name d)
    let a ← Attribute.of name v
    let as ← Datum.readFields fields
    return a :: as

end

/-- One row of a table, columns in table order. -/
structure Row where
  columns : List (String × Datum) := []

namespace Row

def push (r : Row) (column : String) (d : Datum) : Row := ⟨r.columns ++ [(column, d)]⟩

def get? (r : Row) (column : String) : Option Datum := r.columns.lookup column

def ofEntity (e : Entity) : Row := ⟨Datum.ofAttributes e.attributes⟩

def readColumns (e : Entity) : List (String × Datum) → Except QueryError Entity
  | [] => .ok e
  | (name, d) :: columns => do
    let v ← QueryError.within name (d.read name)
    let e ← e.set name v
    readColumns e columns

def toEntity (collection : String) (r : Row) : Except QueryError Entity := do
  let e ← Entity.new collection
  readColumns e r.columns

end Row

end StoreQuery.Cql
