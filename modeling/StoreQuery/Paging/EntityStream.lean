import StoreQuery.Paging.Pager
/-!
The entities of a query one at a time. The first error is yielded once and ends the stream.
-/
namespace StoreQuery

structure EntityStream where
  pager : Pager
  /-- Entities of the last page that are not yielded yet. -/
  buffer : List Entity := []
  done : Bool := false

namespace EntityStream

variable {σ : Type}

def next (source : Source σ) (t : EntityStream) : Step σ (Option RowResult × EntityStream) :=
  match t.buffer with
  | e :: rest => pure (some (.ok e), { t with buffer := rest })
  | [] =>
    if t.done then pure (none, t)
    else do
      let turn ← t.pager.nextPage source
      match turn.answer with
      | .ok (some (e :: rest)) => pure (some (.ok e), ⟨turn.pager, rest, false⟩)
      | .ok _ => pure (none, ⟨turn.pager, [], true⟩)
      | .error e => pure (some (.error e), ⟨turn.pager, [], true⟩)

/-- The next items, at most `n` of them. -/
def take (source : Source σ) : Nat → EntityStream → Step σ (List RowResult × EntityStream)
  | 0, t => pure ([], t)
  | n + 1, t => do
    match ← t.next source with
    | (none, t) => pure ([], t)
    | (some row, t) => do
      let (rows, t) ← take source n t
      pure (row :: rows, t)

end EntityStream

end StoreQuery
