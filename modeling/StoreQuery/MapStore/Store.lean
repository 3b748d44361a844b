import StoreQuery.MapStore.Predicate
import StoreQuery.Paging.EntityOrder
import StoreQuery.Paging.Page
import StoreQuery.Step
import StoreQuery.Time.TimeToLive
/-!
Named maps in memory. Entries are kept by increasing key and may have a deadline; those past it are
dropped, with a log entry each, when their map is next used. Answers to a query are ordered by the first
sort key, then by entry key, and are paged by position.
-/
namespace StoreQuery.MapStore

/-- One page of a named map, from a position on. A page size of zero stands for all entries. -/
structure MapQuery where
  map : String
  predicate : Predicate
  orderBy : Option SortKey
  pageSize : Nat
  anchor : Nat

/-- A position as eight bytes, the most significant first. -/
def positionToken (position : Nat) : Token :=
  [56, 48, 40, 32, 24, 16, 8, 0].map fun (k : Nat) => UInt8.ofNat (position / 2 ^ k)

def position? (t : Token) : Option Nat :=
  if t.length = 8 then some (t.foldl (fun n b => 256 * n + b.toNat) 0) else none

structure Entry where
  record : Record
  /-- The entry is gone once the clock reaches it. -/
  deadline : Option Nat

def Entry.isLive (now : Nat) (e : Entry) : Bool := e.deadline.all fun t => decide (now < t)

/-- The entries of one map by increasing key. -/
abbrev Shelf := List Entry

namespace Shelf

def put (e : Entry) : Shelf → Shelf
  | [] => [e]
  | d :: rest =>
    match compare e.record.key d.record.key with
    | .lt => e :: d :: rest
    | .eq => e :: rest
    | .gt => d :: put e rest

def find? (s : Shelf) (key : String) : Option Entry := List.find? (fun e => e.record.key = key) s

end Shelf

/-- The clock counts seconds in 63 bits; this many nanoseconds are beyond it. -/
def clockEnd : Nat := 9223372036854775808 * 1000000000

/-- The panic of a thread that adds more to the time than the clock can count, as an error. -/
def deadlineOverflow : TransportError := ⟨"overflow when adding duration to instant", none⟩

/-- Every map, empty until it is written to, and the clock in nanoseconds. -/
structure Store where
  shelf : String → Shelf := fun _ => []
  clock : Nat := 0

/-- Orders two records by the sort key, if there is one. -/
def recordOrder : Option SortKey → Record → Record → Ordering
  | none, _, _ => .eq
  | some key, a, b => key.direction.apply (sortOrder (a.value? key.subject) (b.value? key.subject))

namespace Store

def set (s : Store) (map : String) (shelf : Shelf) : Store :=
  { s with shelf := fun m => if m = map then shelf else s.shelf m }

def tick (s : Store) (now : Nat) : Store := { s with clock := now }

def live (s : Store) (map : String) : Shelf := (s.shelf map).filter (Entry.isLive s.clock)

def expired (s : Store) (map : String) : Shelf :=
  (s.shelf map).filter fun e => !e.isLive s.clock

def expiredEntry (map : String) (e : Entry) : LogEntry :=
  .of .entryExpired [("map", map), ("key", e.record.key)]

/-- Drops the expired entries of a map. -/
def purge (map : String) : Step Store Unit := fun s =>
  ⟨(), s.set map (s.live map), (s.expired map).map (expiredEntry map)⟩

/-- The matching live records in the order of the answers. -/
def matching (s : Store) (q : MapQuery) : List Record :=
  stableSort (fun a b => recordOrder q.orderBy a b == .lt)
    (((s.live q.map).map Entry.record).filter (Predicate.test · q.predicate))

/-- The part of the answers that a query asks for, with the position of the next part. -/
def pageOf (q : MapQuery) (records : List Record) : Page Record :=
  let total := records.length
  let start := min q.anchor total
  let stop := if q.pageSize = 0 then total else min (cappedAdd start q.pageSize) total
  let rows := (records.take stop).drop start
  if stop < total then .partway rows (some (positionToken stop)) else .last rows

def query (q : MapQuery) : Step Store (Page Record) := do
  purge q.map
  fun s => ⟨pageOf q (s.matching q), s, []⟩

/-- When an entry is gone that is put now. -/
def deadline? (s : Store) : Option TimeToLive → Except TransportError (Option Nat)
  | none => .ok none
  | some ttl =>
    let deadline := s.clock + ttl.toNanos
    if deadline < clockEnd then .ok (some deadline) else .error deadlineOverflow

/-- Replaces the entry of the same key, with its deadline. -/
def put (map : String) (r : Record) (ttl : Option TimeToLive) :
    Step Store (Except TransportError Unit) := fun s =>
  match s.deadline? ttl with
  | .error e => ⟨.error e, s, []⟩
  | .ok deadline => ⟨.ok (), s.set map ((s.shelf map).put ⟨r, deadline⟩), []⟩

def get (map key : String) : Step Store (Option Record) := do
  purge map
  fun s => ⟨((s.shelf map).find? key).map Entry.record, s, []⟩

def contains (map key : String) : Step Store Bool := do
  return (← get map key).isSome

def size (map : String) : Step Store Nat := do
  purge map
  fun s => ⟨(s.shelf map).length, s, []⟩

/-- Gives the number of entries removed. -/
def removeMatching (map : String) (p : Predicate) : Step Store Nat := do
  purge map
  fun s =>
    let kept := (s.shelf map).filter fun e => !Predicate.test e.record p
    ⟨(s.shelf map).length - kept.length, s.set map kept, []⟩

/-- Drops the named fields from the matching entries; gives the number of entries that had any. -/
def removeFields (map : String) (p : Predicate) (names : List String) : Step Store Nat := do
  purge map
  fun s =>
    let touched (e : Entry) : Bool := Predicate.test e.record p && e.record.hasAny names
    let strip (e : Entry) : Entry :=
      if Predicate.test e.record p then { e with record := e.record.without names } else e
    ⟨(s.shelf map).countP touched, s.set map ((s.shelf map).map strip), []⟩

end Store

end StoreQuery.MapStore
