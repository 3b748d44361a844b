import StoreQuery.Number.Decimal
import StoreQuery.Settings.Tree
/-!
Paths into a tree of settings: names joined by points, and indexes in square brackets. A negative index
counts from the end.
-/
namespace StoreQuery

inductive PathStep where
  | key (name : String)
  | index (i : Int)
  deriving DecidableEq, Repr

/-- A path begins with a name in the outermost table. -/
structure SettingPath where
  root : String
  steps : List PathStep
  deriving DecidableEq, Repr

namespace SettingPath

def isNameChar (c : Char) : Bool := c.isAlphanum || c == ' ' || c == '_' || c == '-'

def isPadding (c : Char) : Bool := c == ' ' || c == '\t'

def name? (cs : List Char) : Option (String × List Char) :=
  let name := cs.takeWhile isNameChar
  if name = [] then none else some (String.ofList name, cs.dropWhile isNameChar)

/-- An index after its opening bracket, up to the closing one. -/
def index? (cs : List Char) : Option (Int × List Char) :=
  let cs := cs.dropWhile isPadding
  let (negative, cs) := match cs with
    | '-' :: rest => (true, rest)
    | _ => (false, cs)
  let ds := cs.takeWhile Char.isDigit
  match (cs.dropWhile Char.isDigit).dropWhile isPadding with
  | ']' :: rest =>
    (Decimal.int64? (if negative then '-' :: ds else ds)).map fun n => (n.toInt, rest)
  | _ => none

/-- Each step takes a character at least, so the length of the text bounds their number. -/
def steps? : Nat → List Char → Option (List PathStep)
  | _, [] => some []
  | 0, _ => none
  | n + 1, '.' :: cs => do
    let (name, rest) ← name? cs
    return .key name :: (← steps? n rest)
  | n + 1, '[' :: cs => do
    let (i, rest) ← index? cs
    return .index i :: (← steps? n rest)
  | _, _ => none

def ofText? (text : String) : Option SettingPath := do
  let (root, rest) ← name? text.toList
  return ⟨root, ← steps? rest.length rest⟩

/-- The position that an index means in an array of a length. -/
def position? (i : Int) (length : Nat) : Option Nat :=
  if 0 ≤ i then some i.toNat
  else if i.natAbs ≤ length then some (length - i.natAbs)
  else none

def step? (s : Setting) : PathStep → Option Setting
  | .key name => s.field? name
  | .index i => (position? i s.items.length).bind fun n => s.items[n]?

/-- The setting that a path leads to. -/
def find? (p : SettingPath) (fields : List (String × Setting)) : Option Setting :=
  (fields.lookup p.root).bind fun s => p.steps.foldlM step? s

/-- Puts an item into an array, with nulls in the gap before it. -/
def putItem (n : Nat) (f : Option Setting → Setting) (items : List Setting) : List Setting :=
  (items ++ List.replicate (n + 1 - items.length) Setting.null).modify n fun s => f (some s)

/-- A setting laid down at the end of a path. What stands in the way makes room for the table or array
that the next step needs. The end of a path by name takes a table in field by field. -/
def lay (value : Setting) : List PathStep → Option Setting → Setting
  | [], below => value.laidOver below
  | .key name :: rest, below =>
    .table (Setting.alter name (lay value rest) (below.getD Setting.null).fields)
  | .index i :: rest, below =>
    let items := (below.getD Setting.null).items
    match position? i items.length with
    | none => .array items
    | some n =>
      let next := if rest.isEmpty then fun _ => value else lay value rest
      .array (putItem n next items)

def set (p : SettingPath) (value : Setting) (fields : List (String × Setting)) :
    List (String × Setting) :=
  Setting.alter p.root (lay value p.steps) fields

end SettingPath

end StoreQuery
