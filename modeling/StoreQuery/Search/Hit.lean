import StoreQuery.Entity
import StoreQuery.Json.Basic
import StoreQuery.Number.DoubleText
import StoreQuery.Text.Base64
import StoreQuery.Time.Rfc3339
/-!
Entities as documents of a search store. The identifier travels beside the document, and the name of the
entity is a field of it. Instants and bytes are written as text and read back as text; nested entities
read back under the name of the field that holds them.
-/
namespace StoreQuery.Search

def backend : String := "document"

/-- The attribute that becomes the identifier. -/
def idField : String := "_id"

/-- The field that holds the name of the entity. -/
def entityField : String := "@entity"

def notFinite (x : Double) : QueryError :=
  .conversion none (x.text ++ " has no JSON representation")

mutual

def jsonOf : Value → Except QueryError Json
  | .text s => .ok (.string s)
  | .integer n => .ok (.integer n.toInt)
  | .float x => if x.isFinite then .ok (.float x) else .error (notFinite x)
  | .boolean b => .ok (.boolean b)
  | .temporal t => .ok (.string (Rfc3339.write .letter t))
  | .bytes bs => .ok (.string (String.ofList (Text.Base64.encode bs)))
  | .sequence items => (jsonOfItems items).map .array
  | .entity ⟨_, as⟩ => (jsonOfAttributes as).map Json.ofFields

def jsonOfItems : List Value → Except QueryError (List Json)
  | [] => .ok []
  | v :: vs => do
    let j ← jsonOf v
    let js ← jsonOfItems vs
    return j :: js

def jsonOfAttributes : List Attribute → Except QueryError (List (String × Json))
  | [] => .ok []
  | ⟨n, v⟩ :: as => do
    let j ← QueryError.within n (jsonOf v)
    let fs ← jsonOfAttributes as
    return (n, j) :: fs

end

/-- The number of a document as a value: a float where it is no integer of 64 bits with a sign. -/
def integerValue (n : Int) : Value :=
  if -2 ^ 63 ≤ n ∧ n < 2 ^ 63 then .integer (Int64.ofInt n) else .float (Double.ofInt n)

mutual

/-- The value of a field; null has none, and nulls in arrays are left out. -/
def valueOf (field : String) : Json → Except QueryError (Option Value)
  | .null => .ok none
  | .boolean b => .ok (some (.boolean b))
  | .integer n => .ok (some (integerValue n))
  | .float x => .ok (some (.float x))
  | .string s => .ok (some (.text s))
  | .array items => do
    let vs ← valuesOf field items
    return some (.sequence vs)
  | .object fields => do
    let e ← Entity.new field
    let e ← addFields e fields
    return some (.entity e)

def valuesOf (field : String) : List Json → Except QueryError (List Value)
  | [] => .ok []
  | j :: js => do
    let v ← valueOf field j
    let vs ← valuesOf field js
    return v.toList ++ vs

/-- Sets the fields of an object on an entity, by increasing name. -/
def addFields (e : Entity) : List (String × Json) → Except QueryError Entity
  | [] => .ok e
  | (name, j) :: fields => do
    match ← QueryError.within name (valueOf name j) with
    | none => addFields e fields
    | some v => do
      let e ← e.set name v
      addFields e fields

end

/-- A document with its identifier, which is empty when the store is to choose one. -/
structure Hit where
  id : String
  source : Json.Fields

namespace Hit

def idOf (e : Entity) : Except QueryError String :=
  match e.get? idField with
  | none => .ok ""
  | some (.text s) => .ok s
  | some v => .error (.unsupportedType backend idField v.kind)

def ofEntity (e : Entity) : Except QueryError Hit := do
  let id ← idOf e
  let fields ← jsonOfAttributes (e.attributes.filter fun a => a.name ≠ idField)
  return ⟨id, Json.Fields.put entityField (.string e.name) (Json.Fields.ofList fields)⟩

/-- The name that the document gives itself, or else the collection's. -/
def entityName (collection : String) (source : Json.Fields) : String :=
  match source.get? entityField with
  | some (.string name) => if name = "" then collection else name
  | _ => collection

def toEntity (collection : String) (h : Hit) : Except QueryError Entity := do
  let e ← Entity.new (entityName collection h.source)
  let e ← if h.id = "" then .ok e else e.set idField (.text h.id)
  addFields e (h.source.erase entityField)

def missingId : TransportError := ⟨"search hit without _id", none⟩

def badSource : TransportError := ⟨"search hit _source is not an object", none⟩

def missingHits : TransportError := ⟨"search response has no hits.hits array", none⟩

def ofJson (j : Json) : Except TransportError Hit :=
  match (j.field? "_id").bind Json.string?, j.field? "_source" with
  | none, _ => .error missingId
  | some id, some (.object source) => .ok ⟨id, source⟩
  | some id, none | some id, some .null => .ok ⟨id, []⟩
  | some _, some _ => .error badSource

/-- The hits of a search response. -/
def ofResponse (response : Json) : Except TransportError (List Hit) :=
  match ((response.field? "hits").bind (·.field? "hits")).bind Json.items? with
  | some items => items.mapM ofJson
  | none => .error missingHits

end Hit

end StoreQuery.Search
