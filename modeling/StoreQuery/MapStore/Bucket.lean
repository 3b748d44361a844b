import StoreQuery.MapStore.Store
import StoreQuery.Repository
/-!
A bucket stores entities in the maps of a service, one map per collection, under the text of their key
attribute.
-/
namespace StoreQuery.MapStore

/-- The operations of a map service that a bucket needs. -/
structure MapService (σ : Type) where
  query : MapQuery → Step σ (Except TransportError (Page Record))
  put : String → Record → Option TimeToLive → Step σ (Except TransportError Unit)
  removeMatching : String → Predicate → Step σ (Except TransportError Nat)
  removeFields : String → Predicate → List String → Step σ (Except TransportError Nat)

/-- The service whose steps are carried over to another state. -/
def MapService.carried {σ ω : Type} (m : MapService σ)
    (carry : {α : Type} → Step σ α → Step ω α) : MapService ω where
  query q := carry (m.query q)
  put map r ttl := carry (m.put map r ttl)
  removeMatching map p := carry (m.removeMatching map p)
  removeFields map p names := carry (m.removeFields map p names)

/-- The maps in memory as a service. Only a deadline that there is no such time for makes them fail. -/
def Store.service : MapService Store where
  query q := Except.ok <$> Store.query q
  put := Store.put
  removeMatching map p := Except.ok <$> Store.removeMatching map p
  removeFields map p names := Except.ok <$> Store.removeFields map p names

def profile : Profile := ⟨backend, .statefulCursor, .clientSide, .pageSort⟩

def malformedToken : QueryError := .invalidArgument "malformed map cursor token"

section Compiling

variable [RegexEngine]

/-- Maps sort by one key; the further keys of a query are left to the pager. -/
def mapQuery (q : Query) (c : Cursor) (w : Window) : Except QueryError MapQuery := do
  let predicate ← Predicate.of q.condition
  let anchor ← match c.token with
    | none => .ok 0
    | some t => match position? t with
      | some n => .ok n
      | none => .error malformedToken
  return ⟨q.collection, predicate, q.sorts.head?, w.pageSize, anchor⟩

structure Bucket where
  keyAttribute : String := defaultKeyAttribute

namespace Bucket

variable {σ : Type}

def source (_ : Bucket) (m : MapService σ) : Source σ :=
  Adapter.source
    { profile := profile
      compile := mapQuery
      execute := m.query
      convert := Record.toEntity }

/-- Stores an entity; one without its key gets `identifier` for it. Gives what is stored. -/
def insert (b : Bucket) (m : MapService σ) (identifier : String) (e : Entity)
    (ttl : Option TimeToLive) : Attempt σ Entity := do
  let e ← e.withKey b.keyAttribute identifier
  let record ← Record.ofEntity b.keyAttribute e
  Attempt.ofTransport (m.put e.name record ttl)
  return e

def update (b : Bucket) (m : MapService σ) (e : Entity) : Attempt σ Entity := do
  let record ← Record.ofEntity b.keyAttribute e
  Attempt.ofTransport (m.put e.name record none)
  return e

def delete (_ : Bucket) (m : MapService σ) (d : Deletion) : Attempt σ Nat := do
  let predicate ← Predicate.of d.condition
  if d.removesEntries then Attempt.ofTransport (m.removeMatching d.collection predicate)
  else Attempt.ofTransport (m.removeFields d.collection predicate d.attributes)

def repository (b : Bucket) (m : MapService σ) : Repository σ :=
  ⟨b.source m, b.insert m, b.update m, b.delete m⟩

end Bucket

end Compiling

end StoreQuery.MapStore
