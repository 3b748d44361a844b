import StoreQuery.Repository
import StoreQuery.Search.Body
/-!
Reading and writing the documents of an index through a client of the search engine.
-/
namespace StoreQuery.Search

/-- The operations of a search engine: a search, which answers with raw JSON; storing a document under
an identifier; and removing all that a body matches, which tells their number. -/
structure Client (σ : Type) where
  search : Request → Step σ (Except TransportError Json)
  put : String → Hit → Step σ (Except TransportError Unit)
  deleteByQuery : Request → Step σ (Except TransportError Nat)

variable {σ : Type}

/-- A response never leads to the next one; the pager counts on. -/
def runSearch (c : Client σ) (r : Request) : Step σ (Except TransportError (Page Hit)) := do
  match ← c.search r with
  | .error e => return .error e
  | .ok response => return (Hit.ofResponse response).map fun hits => Page.partway hits none

def cannotExpire : QueryError := .unsupportedQuery backend "documents cannot expire"

def missingId (collection : String) : QueryError :=
  .invalidArgument ("update of " ++ collection ++ " needs " ++ idField)

namespace Index

def source (i : Index) (c : Client σ) : Source σ :=
  Adapter.source
    { profile := i.profile
      compile := i.search
      execute := runSearch c
      convert := Hit.toEntity }

def putEntity (i : Index) (c : Client σ) (e : Entity) : Attempt σ Unit := do
  let hit ← Hit.ofEntity e
  Attempt.ofTransport (c.put i.name hit)

/-- Stores an entity; one without an identifier gets `identifier`. Gives what is stored. -/
def insertEntity (i : Index) (c : Client σ) (identifier : String) (e : Entity)
    (ttl : Option TimeToLive) : Attempt σ Entity := do
  if ttl.isSome then throw cannotExpire
  let e ← e.withKey idField identifier
  i.putEntity c e
  return e

def updateEntity (i : Index) (c : Client σ) (e : Entity) : Attempt σ Entity := do
  if !e.contains idField then throw (missingId e.name)
  i.putEntity c e
  return e

def deleteEntities (i : Index) (c : Client σ) (d : Deletion) : Attempt σ Nat := do
  let request ← i.deletion d
  Attempt.ofTransport (c.deleteByQuery request)

def repository (i : Index) (c : Client σ) : Repository σ :=
  ⟨i.source c, i.insertEntity c, i.updateEntity c, i.deleteEntities c⟩

end Index

end StoreQuery.Search
