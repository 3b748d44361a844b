import StoreQuery.Entity
import StoreQuery.Paging.StableSort
import StoreQuery.Query.Basic
import StoreQuery.Value.Order
/-!
The order of entities under a list of sort keys. A missing value is before a present one, comparable
values follow their order, and others the rank of their kinds.
-/
namespace StoreQuery

def Kind.rank : Kind → Nat
  | .boolean => 0
  | .integer => 1
  | .float => 1
  | .string => 2
  | .temporal => 3
  | .bytes => 4
  | .sequence => 5
  | .entity => 6

/-- The order in which sorting puts two values, either of which may be missing. -/
def sortOrder : Option Value → Option Value → Ordering
  | none, none => .eq
  | none, some _ => .lt
  | some _, none => .gt
  | some a, some b => (a.compare? b).getD (compare a.kind.rank b.kind.rank)

def Direction.apply : Direction → Ordering → Ordering
  | .asc, o => o
  | .desc, o => o.swap

/-- The first key that tells two entities apart decides. -/
def entityOrder : List SortKey → Entity → Entity → Ordering
  | [], _, _ => .eq
  | key :: keys, a, b =>
    (key.direction.apply (sortOrder (a.get? key.subject) (b.get? key.subject))).then
      (entityOrder keys a b)

def sortEntities (keys : List SortKey) (entities : List Entity) : List Entity :=
  stableSort (fun a b => entityOrder keys a b == .lt) entities

end StoreQuery
