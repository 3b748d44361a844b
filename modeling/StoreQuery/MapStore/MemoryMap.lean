import StoreQuery.MapStore.Bucket
/-!
The maps behind their lock. An operation that panics while it holds the lock leaves it poisoned, and from
then on no operation gets it.
-/
namespace StoreQuery.MapStore

structure MemoryMap where
  store : Store := {}
  poisoned : Bool := false

def lockPoisoned : TransportError := ⟨"map lock poisoned", none⟩

namespace MemoryMap

variable {α : Type}

/-- Holds the lock during an operation, which fails by panicking only. -/
def locked (op : Step Store (Except TransportError α)) :
    Step MemoryMap (Except TransportError α) := fun m =>
  if m.poisoned then ⟨.error lockPoisoned, m, []⟩
  else
    let o := op.run m.store
    ⟨o.answer, ⟨o.state, !o.answer.isOk⟩, o.log⟩

def service : MapService MemoryMap where
  query q := locked (Store.service.query q)
  put map r ttl := locked (Store.service.put map r ttl)
  removeMatching map p := locked (Store.service.removeMatching map p)
  removeFields map p names := locked (Store.service.removeFields map p names)

def get (map key : String) : Step MemoryMap (Except TransportError (Option Record)) :=
  locked (Except.ok <$> Store.get map key)

def contains (map key : String) : Step MemoryMap (Except TransportError Bool) :=
  locked (Except.ok <$> Store.contains map key)

def size (map : String) : Step MemoryMap (Except TransportError Nat) :=
  locked (Except.ok <$> Store.size map)

end MemoryMap

end StoreQuery.MapStore
