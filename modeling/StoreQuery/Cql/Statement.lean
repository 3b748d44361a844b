import StoreQuery.Cql.Datum
import StoreQuery.Paging.Page
import StoreQuery.Query.Basic
import StoreQuery.Text.Blank
/-!
CQL statements. Identifiers are quoted, and operands never stand in the text: each has a question mark
there and its value in the list of bound values.
-/
namespace StoreQuery.Cql

def quote (identifier : String) : String :=
  String.ofList ('"' :: (identifier.toList.flatMap (fun c => if c = '"' then ['"', '"'] else [c]) ++
    ['"']))

/-- The texts with a separator between them. -/
def separated (separator : String) : List String → String
  | [] => ""
  | [s] => s
  | s :: t :: rest => s ++ separator ++ separated separator (t :: rest)

def tableName (keyspace table : String) : String :=
  if keyspace = "" then quote table else quote keyspace ++ "." ++ quote table

inductive RelationOp where
  | eq
  | gt
  | gte
  | lt
  | lte
  | oneOf
  | like
  deriving DecidableEq, Repr

def RelationOp.text : RelationOp → String
  | .eq => "="
  | .gt => ">"
  | .gte => ">="
  | .lt => "<"
  | .lte => "<="
  | .oneOf => "IN"
  | .like => "LIKE"

def RelationOp.all : List RelationOp := [.eq, .gt, .gte, .lt, .lte, .oneOf, .like]

structure Relation where
  column : String
  op : RelationOp
  value : Datum

def Relation.text (r : Relation) : String := quote r.column ++ " " ++ r.op.text ++ " ?"

def whereClause : List Relation → String
  | [] => ""
  | rs => " WHERE " ++ separated " AND " (rs.map Relation.text)

inductive Consistency where
  | any
  | one
  | two
  | three
  | quorum
  | all
  | localQuorum
  | eachQuorum
  | serial
  | localSerial
  | localOne
  deriving DecidableEq, Repr

namespace Consistency

def name : Consistency → String
  | .any => "ANY"
  | .one => "ONE"
  | .two => "TWO"
  | .three => "THREE"
  | .quorum => "QUORUM"
  | .all => "ALL"
  | .localQuorum => "LOCAL_QUORUM"
  | .eachQuorum => "EACH_QUORUM"
  | .serial => "SERIAL"
  | .localSerial => "LOCAL_SERIAL"
  | .localOne => "LOCAL_ONE"

def levels : List Consistency :=
  [.any, .one, .two, .three, .quorum, .all, .localQuorum, .eachQuorum, .serial, .localSerial,
    .localOne]

def ofName? (s : String) : Option Consistency :=
  levels.find? fun l => l.name.toLower = Text.fold s

end Consistency

/-- A paged selection. -/
structure Select where
  keyspace : String
  table : String
  relations : List Relation
  orderings : List SortKey
  /-- The most rows in all. -/
  limit : Option Nat
  /-- Rows per page; without it every row comes in one response. -/
  pageSize : Option Nat
  pagingState : Option Token
  allowFiltering : Bool
  /-- Without it the session's own level holds. -/
  consistency : Option Consistency

def directionText : Direction → String
  | .asc => "ASC"
  | .desc => "DESC"

def orderClause : List SortKey → String
  | [] => ""
  | keys => " ORDER BY " ++ separated ", " (keys.map fun k =>
      quote k.subject ++ " " ++ directionText k.direction)

namespace Select

def cql (s : Select) : String :=
  "SELECT * FROM " ++ tableName s.keyspace s.table ++ whereClause s.relations ++
    orderClause s.orderings ++
    (match s.limit with
      | some n => " LIMIT " ++ Decimal.ofNat n
      | none => "") ++
    if s.allowFiltering then " ALLOW FILTERING" else ""

/-- The bound values in the order of their question marks. -/
def values (s : Select) : List Datum := s.relations.map Relation.value

end Select

/-- A statement that writes, as it is sent. -/
structure Write where
  cql : String
  values : List Datum

structure Insert where
  keyspace : String
  table : String
  columns : List (String × Datum)
  ttlSeconds : Option UInt64

def Insert.write (s : Insert) : Write :=
  { cql := "INSERT INTO " ++ tableName s.keyspace s.table ++ " (" ++
      separated ", " (s.columns.map fun c => quote c.1) ++ ") VALUES (" ++
      separated ", " (s.columns.map fun _ => "?") ++ ")" ++
      (match s.ttlSeconds with
        | some n => " USING TTL " ++ Decimal.ofNat n.toNat
        | none => "")
    values := s.columns.map Prod.snd }

structure Update where
  keyspace : String
  table : String
  assignments : List (String × Datum)
  key : Relation

def Update.write (s : Update) : Write :=
  { cql := "UPDATE " ++ tableName s.keyspace s.table ++ " SET " ++
      separated ", " (s.assignments.map fun a => quote a.1 ++ " = ?") ++ whereClause [s.key]
    values := s.assignments.map Prod.snd ++ [s.key.value] }

/-- Without columns whole rows go. -/
structure Delete where
  keyspace : String
  table : String
  columns : List String
  relations : List Relation

def columnList : List String → String
  | [] => ""
  | columns => " " ++ separated ", " (columns.map quote)

def Delete.write (s : Delete) : Write :=
  { cql := "DELETE" ++ columnList s.columns ++ " FROM " ++ tableName s.keyspace s.table ++
      whereClause s.relations
    values := s.relations.map Relation.value }

end StoreQuery.Cql
