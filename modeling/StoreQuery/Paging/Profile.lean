import StoreQuery.Text.Blank
/-!
What a store can do by itself: how a cursor travels between fetches, where skip and limit are applied,
and how many sort keys are honoured.
-/
namespace StoreQuery

inductive Strategy where
  /-- Each page brings a token, and the next request carries it. -/
  | statefulCursor
  /-- Offset and size are computed anew for each request. -/
  | stateless
  deriving DecidableEq, Repr

namespace Strategy

def name : Strategy → String
  | .statefulCursor => "stateful_cursor"
  | .stateless => "stateless"

def ofName? (s : String) : Option Strategy :=
  match Text.fold s with
  | "stateful_cursor" => some .statefulCursor
  | "stateless" => some .stateless
  | _ => none

end Strategy

inductive Windowing where
  /-- The store applies skip and limit. -/
  | native
  /-- The store applies skip + limit as its limit, and the pager drops the skipped rows. -/
  | nativeLimitOnly
  /-- The pager applies both. -/
  | clientSide
  deriving DecidableEq, Repr

def Windowing.name : Windowing → String
  | .native => "native"
  | .nativeLimitOnly => "native_limit_only"
  | .clientSide => "client_side"

inductive SortSupport where
  | multiKey
  /-- The store sorts by the first key, and the pager sorts each page by all of them. -/
  | pageSort
  | singleKey
  deriving DecidableEq, Repr

def SortSupport.name : SortSupport → String
  | .multiKey => "multi_key"
  | .pageSort => "page_sort"
  | .singleKey => "single_key"

structure Profile where
  backend : String
  strategy : Strategy
  windowing : Windowing
  sort : SortSupport
  deriving DecidableEq, Repr

namespace Profile

def maxSortKeys? (p : Profile) : Option Nat :=
  match p.sort with
  | .singleKey => some 1
  | _ => none

def skipsClientSide (p : Profile) : Bool := p.windowing != .native

end Profile

end StoreQuery
