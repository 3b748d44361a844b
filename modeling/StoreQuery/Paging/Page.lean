import StoreQuery.Number.Power
/-!
Pages, the cursor that leads from one to the next, and the window that a request asks for.
-/
namespace StoreQuery

/-- What a store hands out to resume from. -/
abbrev Token := List UInt8

/-- Counts are numbers of 64 bits; sums stop at the largest. -/
def maxCount : Nat := 2 ^ 64 - 1

def cappedAdd (a b : Nat) : Nat := min (a + b) maxCount

/-- The rows that one request asks for. A limit of zero stands for none, a page size of zero for all
rows in one response. -/
structure Window where
  offset : Nat := 0
  limit : Nat := 0
  pageSize : Nat := 0
  deriving DecidableEq, Repr

structure Page (α : Type) where
  rows : List α
  /-- Where to resume; without a token there are no more pages. -/
  continuation : Option Token
  /-- The store says that nothing is left. -/
  complete : Bool
  deriving Repr

namespace Page

variable {α : Type}

def last (rows : List α) : Page α := ⟨rows, none, true⟩

def partway (rows : List α) (continuation : Option Token) : Page α := ⟨rows, continuation, false⟩

end Page

structure Cursor where
  token : Option Token := none
  exhausted : Bool := false
  deriving DecidableEq, Repr

namespace Cursor

def fresh : Cursor := {}

def isFresh (c : Cursor) : Bool := c.token.isNone && !c.exhausted

def advance (c : Cursor) (token : Option Token) : Cursor := { c with token := token }

def exhaust (_ : Cursor) : Cursor := ⟨none, true⟩

end Cursor

end StoreQuery
