import StoreQuery.Paging.EntityStream
/-!
Sessions route a query to the source that is registered for its collection.
-/
namespace StoreQuery

/-- Rows per fetch unless it is set otherwise. -/
def defaultPageSize : Nat := 100

structure Session (σ : Type) where
  sources : List (String × Source σ) := []
  /-- The source of collections without one of their own. -/
  fallback : Option (Source σ) := none
  pageSize : Nat := defaultPageSize

namespace Session

variable {σ : Type}

def logRegistered (collection : String) (source : Source σ) : Step σ Unit :=
  Step.event .sourceRegistered [("collection", collection), ("backend", source.profile.backend),
    ("strategy", source.profile.strategy.name)]

/-- A later registration takes the place of an earlier one. -/
def register (s : Session σ) (collection : String) (source : Source σ) : Step σ (Session σ) := do
  logRegistered collection source
  return { s with sources := (collection, source) :: s.sources.filter fun r => r.1 ≠ collection }

def withDefault (s : Session σ) (source : Source σ) : Step σ (Session σ) := do
  logRegistered "*" source
  return { s with fallback := some source }

def sourceFor (s : Session σ) (collection : String) : Except QueryError (Source σ) :=
  match s.sources.lookup collection <|> s.fallback with
  | some source => .ok source
  | none => .error (.invalidArgument ("no source registered for collection " ++ collection))

/-- The source of a query and a pager at its start. -/
def pager (s : Session σ) (q : Query) : Except QueryError (Source σ × Pager) := do
  let source ← s.sourceFor q.collection
  let pager ← Pager.new source.profile q s.pageSize
  return (source, pager)

def stream (s : Session σ) (q : Query) : Except QueryError (Source σ × EntityStream) := do
  let (source, pager) ← s.pager q
  return (source, { pager := pager })

/-- The single entity that a query finds; a second one makes the query ambiguous. -/
def executeOne (s : Session σ) (q : Query) : Step σ (Except QueryError (Option Entity)) :=
  match s.stream q with
  | .error e => pure (.error e)
  | .ok (source, t) => do
    match ← t.next source with
    | (none, _) => pure (.ok none)
    | (some (.error e), _) => pure (.error e)
    | (some (.ok first), t) =>
      match ← t.next source with
      | (none, _) => pure (.ok (some first))
      | (some (.error e), _) => pure (.error e)
      | (some (.ok _), _) => do
        Step.event .ambiguousResult [("collection", q.collection)]
        pure (.error (.ambiguous q.collection))

end Session

end StoreQuery
