import StoreQuery.Cql.Keyspace
import StoreQuery.Repository
/-!
Reading and writing the tables of a keyspace through a connection to its cluster.
-/
namespace StoreQuery.Cql

/-- A connection to a cluster: it runs a page of a selection, and writes, telling how many rows they
affected. -/
structure Cluster (σ : Type) where
  query : Select → Step σ (Except TransportError (Page Row))
  execute : Write → Step σ (Except TransportError Nat)

variable {σ : Type}

/-- A selection without a page size brings everything, whatever the cluster says. -/
def runSelect (c : Cluster σ) (s : Select) : Step σ (Except TransportError (Page Row)) := do
  match ← c.query s with
  | .error e => return .error e
  | .ok page => return .ok (if s.pageSize.isNone then Page.last page.rows else page)

namespace Keyspace

def source (k : Keyspace) (c : Cluster σ) : Source σ :=
  Adapter.source
    { profile := k.profile
      compile := k.select
      execute := runSelect c
      convert := Row.toEntity }

/-- Stores an entity; one without its key gets `identifier` for it. Gives what is stored. -/
def insertEntity (k : Keyspace) (c : Cluster σ) (identifier : String) (e : Entity)
    (ttl : Option TimeToLive) : Attempt σ Entity := do
  let e ← e.withKey k.keyColumn identifier
  let statement ← k.insert e ttl
  let _ ← Attempt.ofTransport (c.execute statement.write)
  return e

def updateEntity (k : Keyspace) (c : Cluster σ) (e : Entity) : Attempt σ Entity := do
  let statement ← k.update e
  let _ ← Attempt.ofTransport (c.execute statement.write)
  return e

def deleteEntities (k : Keyspace) (c : Cluster σ) (d : Deletion) : Attempt σ Nat := do
  let statement ← k.delete d
  Attempt.ofTransport (c.execute statement.write)

def repository (k : Keyspace) (c : Cluster σ) : Repository σ :=
  ⟨k.source c, k.insertEntity c, k.updateEntity c, k.deleteEntities c⟩

end Keyspace

end StoreQuery.Cql
