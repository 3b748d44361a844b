import StoreQuery.Paging.Page
import StoreQuery.Paging.Profile
import StoreQuery.Query.Basic
import StoreQuery.Step
/-!
Sources of pages. A source answers a query one page at a time; an adapter makes one from a compiler, a
transport and a reading of the store's records.
-/
namespace StoreQuery

/-- A row that was converted, or the error that its conversion met. -/
abbrev RowResult := Except QueryError Entity

structure Source (σ : Type) where
  profile : Profile
  fetch : Query → Cursor → Window → Step σ (Except QueryError (Page RowResult))

/-- The three parts of a store: requests `ρ` that queries compile to, a transport that runs them, and
records `κ` that read as entities of a collection. -/
structure Adapter (σ ρ κ : Type) where
  profile : Profile
  compile : Query → Cursor → Window → Except QueryError ρ
  execute : ρ → Step σ (Except TransportError (Page κ))
  convert : String → κ → RowResult

namespace Adapter

variable {σ ρ κ : Type}

/-- Records are converted one by one; the first that fails is the last row. -/
def convertRows (convert : κ → RowResult) : List κ → List RowResult
  | [] => []
  | k :: ks =>
    match convert k with
    | .ok e => .ok e :: convertRows convert ks
    | .error e => [.error e]

def fetch (a : Adapter σ ρ κ) (q : Query) (c : Cursor) (w : Window) :
    Step σ (Except QueryError (Page RowResult)) :=
  match a.compile q c w with
  | .error e => pure (.error e)
  | .ok request => do
    match ← a.execute request with
    | .error e => pure (.error (.transport e))
    | .ok page =>
      pure (.ok ⟨convertRows (a.convert q.collection) page.rows, page.continuation, page.complete⟩)

def source (a : Adapter σ ρ κ) : Source σ := ⟨a.profile, a.fetch⟩

end Adapter

end StoreQuery
