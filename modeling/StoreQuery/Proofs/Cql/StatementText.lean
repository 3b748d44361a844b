import StoreQuery.Cql.Keyspace
import StoreQuery.Proofs.Cql.OutlineText
import StoreQuery.Proofs.Cql.RoundTrip
/-!
What the text of a statement tells. It is the text of the statement's outline, so it tells all of the
statement but its operands, and nothing of these; the operands are bound in the order of their question
marks.
-/
namespace StoreQuery.Cql

inductive Statement where
  | select (s : Select)
  | insert (s : Insert)
  | update (s : Update)
  | delete (s : Delete)

def keyspace? (keyspace : String) : Option String := if keyspace = "" then none else some keyspace

def Relation.bare (r : Relation) : String × RelationOp := (r.column, r.op)

def Relation.operand (r : Relation) : String × Datum := (r.column, r.value)

namespace Statement

def cql : Statement → String
  | .select s => s.cql
  | .insert s => s.write.cql
  | .update s => s.write.cql
  | .delete s => s.write.cql

def values : Statement → List Datum
  | .select s => s.values
  | .insert s => s.write.values
  | .update s => s.write.values
  | .delete s => s.write.values

def outline : Statement → Outline
  | .select s => .select (keyspace? s.keyspace) s.table (s.relations.map Relation.bare) s.orderings
      s.limit s.allowFiltering
  | .insert s => .insert (keyspace? s.keyspace) s.table (s.columns.map Prod.fst)
      (s.ttlSeconds.map UInt64.toNat)
  | .update s => .update (keyspace? s.keyspace) s.table (s.assignments.map Prod.fst) [s.key.bare]
  | .delete s => .delete (keyspace? s.keyspace) s.table s.columns (s.relations.map Relation.bare)

def operands : Statement → List (String × Datum)
  | .select s => s.relations.map Relation.operand
  | .insert s => s.columns
  | .update s => s.assignments ++ [s.key.operand]
  | .delete s => s.relations.map Relation.operand

/-- A statement whose text tells all of it but its operands, which are bound in the order of their
question marks. -/
structure Unambiguous (s : Statement) : Prop where
  scanned : tokens? s.cql = some s.outline.tokens
  read : Outline.ofText? s.cql = some s.outline
  told : ∀ t : Statement, t.cql = s.cql ↔ t.outline = s.outline
  counted : s.outline.tokens.count .marker = s.values.length
  marked : s.outline.marked = s.operands.map fun operand => some operand.1
  bound : s.values = s.operands.map Prod.snd

end Statement

theorem tableName_eq (keyspace table : String) :
    tableName keyspace table = placeText (keyspace? keyspace) table := by
  by_cases h : keyspace = ""
  · rw [keyspace?, tableName, if_pos h, if_pos h, placeText]
  · rw [keyspace?, tableName, if_neg h, if_neg h, placeText, String.append_assoc]

theorem whereClause_eq (rs : List Relation) :
    whereClause rs = whereText (rs.map Relation.bare) := by
  have htext : Relation.text = relationText ∘ Relation.bare := by
    funext r
    rw [Relation.text, String.append_assoc, String.append_assoc]
    rfl
  cases rs with
  | nil => rfl
  | cons r rs =>
    rw [whereClause, htext, ← List.map_map]
    · rfl
    · exact List.cons_ne_nil r rs

theorem orderClause_eq (keys : List SortKey) :
    orderClause keys = clauseText " ORDER BY " ", " orderingText keys := by
  have htext : (fun k : SortKey => quote k.subject ++ " " ++ directionText k.direction) =
      orderingText := by
    funext k
    exact String.append_assoc
  cases keys with
  | nil => rfl
  | cons k keys =>
    rw [orderClause, htext]
    · rfl
    · exact List.cons_ne_nil k keys

/-- Only the outline of a statement reaches its text. -/
theorem Statement.cql_eq (s : Statement) : s.cql = s.outline.text := by
  cases s with
  | select s =>
    obtain ⟨keyspace, table, relations, orderings, limit, _, _, allowFiltering, _⟩ := s
    change Select.cql _ = _
    unfold Select.cql
    rw [tableName_eq, whereClause_eq, orderClause_eq, String.append_assoc, String.append_assoc,
      String.append_assoc, String.append_assoc]
    cases limit <;> rfl
  | insert s =>
    change s.write.cql = _
    unfold Insert.write
    simp only [outline, Outline.text, tableName_eq, String.append_assoc, List.map_map]
    cases s.ttlSeconds <;> rfl
  | update s =>
    change s.write.cql = _
    simp only [Update.write, outline, Outline.text, tableName_eq, whereClause_eq,
      String.append_assoc, List.map_map]
    rfl
  | delete s =>
    change s.write.cql = _
    have hcolumns : columnList s.columns = clauseText " " ", " quote s.columns := by
      cases s.columns <;> rfl
    simp only [Delete.write, outline, Outline.text, tableName_eq, whereClause_eq, hcolumns,
      String.append_assoc]

theorem Statement.marked_eq (s : Statement) :
    s.outline.marked = s.operands.map fun operand => some operand.1 := by
  cases s with
  | select s =>
    refine (owns_select _ _ _ _ _ _).owners_eq.trans ?_
    rw [operands, List.map_map, List.map_map, List.map_map]
    rfl
  | insert s => exact List.map_map
  | update s =>
    refine (owns_update _ _ _ _).owners_eq.trans ?_
    rw [operands, List.map_append, List.map_append, List.map_map]
    rfl
  | delete s =>
    refine (owns_delete _ _ _ _).owners_eq.trans ?_
    rw [operands, List.map_map, List.map_map, List.map_map]
    rfl

theorem Statement.values_eq (s : Statement) : s.values = s.operands.map Prod.snd := by
  cases s with
  | select s =>
    rw [operands, List.map_map]
    rfl
  | insert s => rfl
  | update s =>
    rw [operands, List.map_append]
    rfl
  | delete s =>
    rw [operands, List.map_map]
    rfl

theorem Statement.count_markers (s : Statement) :
    s.outline.tokens.count .marker = s.values.length := by
  have hlength := congrArg List.length s.marked_eq
  rw [List.length_map] at hlength
  rw [s.values_eq, List.length_map, ← hlength]
  cases s with
  | insert s => exact (count_insert _ _ _ _).trans (List.length_map _).symm
  | _ => exact (length_owners _ _).symm

theorem Statement.unambiguous (s : Statement) : s.Unambiguous := by
  have hread (t : Statement) : Outline.ofText? t.cql = some t.outline := by
    rw [Outline.ofText?, t.cql_eq, t.outline.spells.tokens, Option.bind_some,
      Outline.ofTokens?_tokens]
  refine ⟨?_, hread s, ?_, s.count_markers, s.marked_eq, s.values_eq⟩
  · rw [s.cql_eq]
    exact s.outline.spells.tokens
  · intro t
    constructor
    · intro h
      have hsame := (hread t).symm.trans ((congrArg Outline.ofText? h).trans (hread s))
      exact Option.some.inj hsame
    · intro h
      rw [t.cql_eq, s.cql_eq, h]

section Compilation

variable {k : Keyspace}

def bindings (as : List Attribute) : List (String × Datum) :=
  as.map fun a => (a.name, Datum.ofValue a.value)

theorem select_says {q : Query} {c : Cursor} {w : Window} {s : Select}
    (h : k.select q c w = .ok s) :
    ∃ rs, relationsOf? q.condition = .ok rs ∧
      (Statement.select s).operands = rs.map Relation.operand ∧
      (Statement.select s).outline = .select (keyspace? k.name) q.collection (rs.map Relation.bare)
        q.sorts (Keyspace.positive? w.limit) k.allowFiltering := by
  rw [Keyspace.select] at h
  cases hrs : relationsOf? q.condition with
  | error e =>
    rw [hrs] at h
    cases h
  | ok rs =>
    rw [hrs] at h
    cases h
    exact ⟨rs, rfl, rfl, rfl⟩

theorem insert_says {e : Entity} {ttl : Option TimeToLive} {i : Insert}
    (h : k.insert e ttl = .ok i) :
    (Statement.insert i).operands = bindings e.attributes ∧
      (Statement.insert i).outline = .insert (keyspace? k.name) e.name e.names
        (ttl.map fun t => t.wholeSeconds.toNat) := by
  rw [Keyspace.insert] at h
  by_cases hempty : e.isEmpty = true
  · rw [if_pos hempty] at h
    cases h
  · rw [if_neg hempty, ofAttributes_eq] at h
    cases h
    refine ⟨rfl, ?_⟩
    simp only [Statement.outline, Option.map_map, List.map_map]
    rfl

theorem update_says {e : Entity} {u : Update} (h : k.update e = .ok u) :
    ∃ key, e.get? k.keyColumn = some key ∧
      let rest := e.attributes.filter fun a => a.name ≠ k.keyColumn
      (Statement.update u).operands = bindings rest ++ [(k.keyColumn, Datum.ofValue key)] ∧
      (Statement.update u).outline = .update (keyspace? k.name) e.name (rest.map Attribute.name)
        [(k.keyColumn, .eq)] := by
  rw [Keyspace.update] at h
  cases hkey : e.get? k.keyColumn with
  | none =>
    rw [hkey] at h
    cases h
  | some key =>
    rw [hkey, ofAttributes_eq] at h
    dsimp only at h
    refine ⟨key, rfl, ?_⟩
    intro rest
    split at h
    · cases h
    · cases h
      refine ⟨rfl, ?_⟩
      simp only [Statement.outline, List.map_map]
      rfl

theorem delete_says {d : Deletion} {s : Delete} (h : k.delete d = .ok s) :
    ∃ rs, relationsOf? d.condition = .ok rs ∧
      (Statement.delete s).operands = rs.map Relation.operand ∧
      (Statement.delete s).outline =
        .delete (keyspace? k.name) d.collection d.attributes (rs.map Relation.bare) := by
  rw [Keyspace.delete] at h
  cases hcondition : d.condition with
  | none =>
    rw [hcondition] at h
    cases h
  | some c =>
    rw [hcondition] at h
    dsimp only at h
    cases hrs : relations c with
    | error e =>
      rw [hrs] at h
      cases h
    | ok rs =>
      rw [hrs] at h
      cases h
      exact ⟨rs, hrs, rfl, rfl⟩

end Compilation

/-- The text of a statement tells all of it but its operands, which are bound in the order of their
question marks: those of an insertion in the order of the attributes, those of an update likewise with
the key last, and the others in the order of the relations. -/
theorem statements_unambiguous :
    (∀ s : Statement, s.Unambiguous) ∧
    (∀ (k : Keyspace) (e : Entity) (ttl : Option TimeToLive) (i : Insert),
      k.insert e ttl = .ok i →
      (Statement.insert i).operands = bindings e.attributes ∧
      (Statement.insert i).outline = .insert (keyspace? k.name) e.name e.names
        (ttl.map fun t => t.wholeSeconds.toNat)) ∧
    (∀ (k : Keyspace) (e : Entity) (u : Update), k.update e = .ok u →
      ∃ key, e.get? k.keyColumn = some key ∧
        let rest := e.attributes.filter fun a => a.name ≠ k.keyColumn
        (Statement.update u).operands = bindings rest ++ [(k.keyColumn, Datum.ofValue key)] ∧
        (Statement.update u).outline = .update (keyspace? k.name) e.name (rest.map Attribute.name)
          [(k.keyColumn, .eq)]) ∧
    (∀ (k : Keyspace) (q : Query) (c : Cursor) (w : Window) (s : Select),
      k.select q c w = .ok s →
      ∃ rs, relationsOf? q.condition = .ok rs ∧
        (Statement.select s).operands = rs.map Relation.operand ∧
        (Statement.select s).outline = .select (keyspace? k.name) q.collection
          (rs.map Relation.bare) q.sorts (Keyspace.positive? w.limit) k.allowFiltering) ∧
    ∀ (k : Keyspace) (d : Deletion) (s : Delete), k.delete d = .ok s →
      ∃ rs, relationsOf? d.condition = .ok rs ∧
        (Statement.delete s).operands = rs.map Relation.operand ∧
        (Statement.delete s).outline =
          .delete (keyspace? k.name) d.collection d.attributes (rs.map Relation.bare) :=
  ⟨Statement.unambiguous, fun _ _ _ _ => insert_says, fun _ _ _ => update_says,
    fun _ _ _ _ _ => select_says, fun _ _ _ => delete_says⟩

/-- Names made of quotes, question marks and words of the language. -/
theorem statements_unambiguous_of_quotes :
    let k : Keyspace := { name := "a\".\"b", keyColumn := "\"" }
    let e : Entity := ⟨"? AND", [⟨"\"", .text "a?"⟩, ⟨"x\" = ?", .integer 1⟩]⟩
    let low : Condition := .leaf ⟨"?", .between, .sequence [.integer 1, .integer 2]⟩
    let i : Insert := ⟨k.name, e.name, bindings e.attributes, some 2⟩
    let u : Update := ⟨k.name, e.name, [("x\" = ?", .bigint 1)], ⟨"\"", .eq, .text "a?"⟩⟩
    let rs : List Relation := [⟨"?", .gte, .bigint 1⟩, ⟨"?", .lte, .bigint 2⟩]
    let s : Select := ⟨k.name, e.name, rs, [], some 3, some 2, none, false, none⟩
    let d : Delete := ⟨k.name, e.name, ["\""], rs⟩
    (k.insert e (some ⟨1, 1⟩) = .ok i ∧ k.update e = .ok u ∧
      k.select ⟨e.name, some low, [], 0, 3⟩ {} ⟨0, 3, 2⟩ = .ok s ∧
      k.delete ⟨e.name, some low, ["\""]⟩ = .ok d) ∧
    (Statement.update u).cql =
      "UPDATE \"a\"\".\"\"b\".\"? AND\" SET \"x\"\" = ?\" = ? WHERE \"\"\"\" = ?" ∧
    Outline.ofText? (Statement.update u).cql = some (Statement.update u).outline ∧
    (Statement.insert i).operands = bindings e.attributes ∧
    (∃ key, e.get? k.keyColumn = some key ∧ (Statement.update u).operands =
      [("x\" = ?", .bigint 1), ("\"", Datum.ofValue key)]) ∧
    (Statement.select s).outline = .select (some "a\".\"b") "? AND" [("?", .gte), ("?", .lte)] []
      (some 3) false ∧
    (Statement.delete d).operands = rs.map Relation.operand := by
  intro k e low i u rs s d
  have hinsert : k.insert e (some ⟨1, 1⟩) = .ok i := rfl
  have hupdate : k.update e = .ok u := rfl
  have hselect : k.select ⟨e.name, some low, [], 0, 3⟩ {} ⟨0, 3, 2⟩ = .ok s := rfl
  have hdelete : k.delete ⟨e.name, some low, ["\""]⟩ = .ok d := rfl
  have hcql : (Statement.update u).cql =
      "UPDATE \"a\"\".\"\"b\".\"? AND\" SET \"x\"\" = ?\" = ? WHERE \"\"\"\" = ?" := by
    decide +kernel
  obtain ⟨hall, hinserted, hupdated, hselected, hdeleted⟩ := statements_unambiguous
  obtain ⟨key, hkey, hoperands, -⟩ := hupdated k e u hupdate
  obtain ⟨_, hrs, -, houtline⟩ := hselected k _ _ _ s hselect
  obtain ⟨_, hdeletes, hdeletions, -⟩ := hdeleted k _ d hdelete
  cases hrs
  cases hdeletes
  exact ⟨⟨hinsert, hupdate, hselect, hdelete⟩, hcql, (hall (.update u)).read,
    (hinserted k e _ i hinsert).1, ⟨key, hkey, hoperands⟩, houtline, hdeletions⟩

end StoreQuery.Cql
