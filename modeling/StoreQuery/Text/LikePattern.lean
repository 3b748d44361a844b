/-!
Patterns of the LIKE operator: a percent sign stands for any run of characters, an underscore for
exactly one, and every other character for itself.
-/
namespace StoreQuery

inductive LikeToken where
  | run
  | single
  | literal (c : Char)
  deriving DecidableEq, Repr

abbrev LikePattern := List LikeToken

namespace LikePattern

def ofText (s : String) : LikePattern :=
  s.toList.map fun c => if c = '%' then .run else if c = '_' then .single else .literal c

/-- For each suffix of a text, from the text itself to the empty one, whether a pattern matches it. -/
abbrev Row := List Bool

/-- Only the empty suffix matches the empty pattern. -/
def emptyRow : List Char → Row
  | [] => [true]
  | _ :: cs => false :: emptyRow cs

/-- A token that takes one character moves each answer of `next` one place forward. -/
def stepRow (accepts : Char → Bool) : List Char → Row → Row
  | c :: cs, _ :: next => (accepts c && next.headD false) :: stepRow accepts cs next
  | _, _ => [false]

/-- A run may take any number of characters, so an answer carries over to every longer suffix. -/
def runRow : Row → Row
  | [] => []
  | b :: rest =>
    let tail := runRow rest
    (b || tail.headD false) :: tail

def row (text : List Char) : LikePattern → Row
  | [] => emptyRow text
  | .run :: p => runRow (row text p)
  | .single :: p => stepRow (fun _ => true) text (row text p)
  | .literal c :: p => stepRow (fun d => d == c) text (row text p)

/-- The whole text has to match. -/
def accepts (p : LikePattern) (text : String) : Bool := (row text.toList p).headD false

end LikePattern

end StoreQuery
