import StoreQuery.Cql.Keyspace
import StoreQuery.MapStore.Bucket
import StoreQuery.Search.Body
import StoreQuery.Session
import StoreQuery.Settings.Layers
import StoreQuery.Text.Quoted
/-!
The settings of the engine and of each store, with their defaults.
-/
namespace StoreQuery

/-- A field of a section: by name in a table, by position in an array. -/
def Setting.part? (s : Setting) (name : String) (position : Nat) : Option Setting :=
  match s with
  | .table fields => fields.lookup name
  | .array items => items[position]?
  | _ => none

/-- Whether a setting can hold the fields of a section. -/
def Setting.isSection : Setting → Bool
  | .table _ => true
  | .array _ => true
  | _ => false

/-- A field read as a type, with a default for one that is not there. -/
def Setting.partOr {α : Type} (s : Setting) (as : Setting → Option α) (name : String)
    (position : Nat) (default : α) : Option α :=
  match s.part? name position with
  | some v => as v
  | none => some default

namespace Settings

def readPageSize (s : Setting) : Option Nat :=
  if s.isSection then
    s.partOr (fun v => v.asNatural?.map UInt64.toNat) "page_size" 0 defaultPageSize
  else none

/-- Rows per fetch. -/
def pageSize (s : Settings) : Except SettingsError Nat :=
  (s.read readPageSize "engine").map fun n => n.getD defaultPageSize

end Settings

structure MapStoreSettings where
  instanceName : String := "polyquery"
  keyAttribute : String := MapStore.defaultKeyAttribute
  deriving DecidableEq, Repr

namespace MapStoreSettings

def ofSection (s : Setting) : Option MapStoreSettings :=
  if s.isSection then do
    let defaults : MapStoreSettings := {}
    let instanceName ← s.partOr Setting.asText? "instance" 0 defaults.instanceName
    let keyAttribute ← s.partOr Setting.asText? "key" 1 defaults.keyAttribute
    return ⟨instanceName, keyAttribute⟩
  else none

def ofSettings (s : Settings) : Except SettingsError MapStoreSettings :=
  (s.read ofSection "key_value").map fun m => m.getD {}

def bucket (m : MapStoreSettings) : MapStore.Bucket := ⟨m.keyAttribute⟩

end MapStoreSettings

structure SearchSettings where
  hosts : List String
  index : String
  deriving DecidableEq, Repr

namespace SearchSettings

def ofSettings (s : Settings) : Except SettingsError SearchSettings := do
  let hosts := s.enumerate "document.host"
  let index ← s.require "document.index"
  return ⟨if hosts.isEmpty then ["localhost:9200"] else hosts, index⟩

def compiler (s : SearchSettings) : Search.Index := ⟨s.index⟩

end SearchSettings

structure CqlSettings where
  hosts : List String
  port : UInt16
  keyspace : String
  user : Option String
  password : Option String
  name : Option String
  dataCenter : Option String
  allowFiltering : Bool
  startupQueries : List String
  strategy : Strategy
  consistency : Option Cql.Consistency
  deriving DecidableEq, Repr

namespace CqlSettings

def defaultPort : UInt16 := 9042

def unknownStrategy (name : String) : SettingsError :=
  .invalidValue "wide_column.strategy" ("unknown execution strategy " ++ Text.quoted name)

def unknownConsistency (name : String) : SettingsError :=
  .invalidValue "wide_column.consistency" ("unknown consistency level " ++ Text.quoted name)

def readStrategy (s : Settings) : Except SettingsError Strategy :=
  match s.get? "wide_column.strategy" with
  | none => .ok .statefulCursor
  | some name =>
    match Strategy.ofName? name with
    | some strategy => .ok strategy
    | none => .error (unknownStrategy name)

def readConsistency (s : Settings) : Except SettingsError (Option Cql.Consistency) :=
  match s.get? "wide_column.consistency" with
  | none => .ok none
  | some name =>
    match Cql.Consistency.ofName? name with
    | some level => .ok (some level)
    | none => .error (unknownConsistency name)

/-- Of several faults the strategy is reported first, then consistency, port, keyspace and filtering. -/
def ofSettings (s : Settings) : Except SettingsError CqlSettings := do
  let hosts := s.enumerate "wide_column.host"
  let strategy ← readStrategy s
  let consistency ← readConsistency s
  let port ← s.read Setting.asPort? "wide_column.port"
  let keyspace ← s.require "wide_column.keyspace"
  let allowFiltering ← s.read Setting.asBoolean? "wide_column.allow_filtering"
  return { hosts := if hosts.isEmpty then ["localhost"] else hosts
           port := port.getD defaultPort
           keyspace := keyspace
           user := s.get? "wide_column.user"
           password := s.get? "wide_column.password"
           name := s.get? "wide_column.name"
           dataCenter := s.get? "wide_column.data.center"
           allowFiltering := allowFiltering.getD false
           startupQueries := s.enumerate "wide_column.query"
           strategy := strategy
           consistency := consistency }

/-- Host and port of every contact point; a host that carries a port keeps it. -/
def contactPoints (c : CqlSettings) : List String :=
  c.hosts.map fun host =>
    if ':' ∈ host.toList then host else host ++ ":" ++ Decimal.ofNat c.port.toNat

def compiler (c : CqlSettings) : Cql.Keyspace :=
  { name := c.keyspace, allowFiltering := c.allowFiltering, strategy := c.strategy,
    consistency := c.consistency }

end CqlSettings

end StoreQuery
