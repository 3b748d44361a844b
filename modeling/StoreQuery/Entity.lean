import StoreQuery.Error
import StoreQuery.Value.Basic
/-!
Entities as insertion-ordered maps: names are unique, and a new value for a name that is already there
takes the place of the old one.
-/
namespace StoreQuery

def Attribute.of (name : String) (value : Value) : Except QueryError Attribute :=
  if name = "" then .error (.invalidArgument "attribute name must not be empty")
  else .ok ⟨name, value⟩

/-- A reading of the attribute's value, whose failure names the attribute. -/
def Attribute.read {α : Type} (a : Attribute) (as : Value → Except QueryError α) :
    Except QueryError α :=
  QueryError.within a.name (as a.value)

namespace Entity

def new (name : String) : Except QueryError Entity :=
  if name = "" then .error (.invalidArgument "entity collection name must not be empty")
  else .ok ⟨name, []⟩

def insert (a : Attribute) : List Attribute → List Attribute
  | [] => [a]
  | b :: bs => if b.name = a.name then a :: bs else b :: insert a bs

def add (e : Entity) (a : Attribute) : Entity := { e with attributes := insert a e.attributes }

def set (e : Entity) (name : String) (value : Value) : Except QueryError Entity :=
  (Attribute.of name value).map e.add

/-- Of attributes with one name the last one counts, in the place of the first. -/
def of (name : String) (attributes : List Attribute) : Except QueryError Entity :=
  (new name).map fun e => attributes.foldl add e

def find? (e : Entity) (name : String) : Option Attribute :=
  e.attributes.find? fun a => a.name = name

def get? (e : Entity) (name : String) : Option Value := (e.find? name).map Attribute.value

def contains (e : Entity) (name : String) : Bool := (e.find? name).isSome

def remove (e : Entity) (name : String) : Entity :=
  { e with attributes := e.attributes.eraseP fun a => a.name = name }

def size (e : Entity) : Nat := e.attributes.length

def isEmpty (e : Entity) : Bool := e.attributes.isEmpty

/-- The entity with an identifier for its key, if it brings none. -/
def withKey (e : Entity) (key identifier : String) : Except QueryError Entity :=
  if e.contains key then .ok e else e.set key (.text identifier)

def names (e : Entity) : List String := e.attributes.map Attribute.name

end Entity

mutual

/-- Equality up to the order of attributes, here and in nested entities; the order of the items of a
sequence counts. -/
def Value.sameSet : Value → Value → Bool
  | .entity ⟨m, as⟩, .entity ⟨n, bs⟩ =>
    m == n && as.length == bs.length && Value.sameSetAttributes as bs
  | .sequence a, .sequence b => Value.sameSetItems a b
  | a, b => a.equal b

def Value.sameSetItems : List Value → List Value → Bool
  | [], [] => true
  | a :: as, b :: bs => a.sameSet b && Value.sameSetItems as bs
  | _, _ => false

/-- Every attribute of the first list has an equal partner of its name in the second. -/
def Value.sameSetAttributes : List Attribute → List Attribute → Bool
  | [], _ => true
  | ⟨n, a⟩ :: as, bs =>
    (match bs.find? fun b => b.name = n with
      | some b => a.sameSet b.value
      | none => false) && Value.sameSetAttributes as bs

end

def Entity.sameSet (a b : Entity) : Bool :=
  a.name == b.name && a.size == b.size && Value.sameSetAttributes a.attributes b.attributes

end StoreQuery
