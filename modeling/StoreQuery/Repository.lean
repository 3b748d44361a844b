import StoreQuery.Paging.Source
import StoreQuery.Time.TimeToLive
/-!
Repositories: a source of pages together with the writes of its store.
-/
namespace StoreQuery

structure Repository (σ : Type) where
  source : Source σ
  /-- Stores an entity; one without its key gets the identifier for it. Gives what is stored. -/
  insert : String → Entity → Option TimeToLive → Attempt σ Entity
  update : Entity → Attempt σ Entity
  /-- Gives the number of what was affected. -/
  delete : Deletion → Attempt σ Nat

end StoreQuery
