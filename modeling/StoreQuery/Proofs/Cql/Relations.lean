import StoreQuery.Cql.Keyspace
import StoreQuery.Proofs.Condition.Meaning
import StoreQuery.Proofs.Verdict
/-!
Conditions as relations of a WHERE clause. A conjunction becomes the relations of its comparisons from
left to right, no more and no less, and anything else is refused by its first other connective. A
removal therefore never goes without a WHERE clause.
-/
namespace StoreQuery.Cql

def relationOp? : Operator → Option RelationOp
  | .equal => some .eq
  | .greater => some .gt
  | .greaterEqual => some .gte
  | .lesser => some .lt
  | .lesserEqual => some .lte
  | .like => some .like
  | .between | .oneOf => none

inductive RelationsOf : Comparison → List Relation → Prop where
  | one {subject : String} {operator : Operator} {operand : Value} {op : RelationOp} :
      relationOp? operator = some op →
      RelationsOf ⟨subject, operator, operand⟩ [⟨subject, op, Datum.ofValue operand⟩]
  | list {subject : String} {items : List Value} :
      RelationsOf ⟨subject, .oneOf, .sequence items⟩
        [⟨subject, .oneOf, .list (items.map Datum.ofValue)⟩]
  | pair {subject : String} {lower upper : Value} :
      RelationsOf ⟨subject, .between, .sequence [lower, upper]⟩
        [⟨subject, .gte, Datum.ofValue lower⟩, ⟨subject, .lte, Datum.ofValue upper⟩]

/-- A comparison read through its relations: a range means both of its bounds. -/
def ReadAs (reading : Relation → Prop) (c : Comparison) : Prop :=
  ∃ group, RelationsOf c group ∧ ∀ r ∈ group, reading r

section Leaf

variable {c : Comparison} {group : List Relation}

theorem ofItems_eq (items : List Value) : Datum.ofItems items = items.map Datum.ofValue := by
  induction items with
  | nil => rfl
  | cons item items ih => rw [Datum.ofItems, ih, List.map_cons]

theorem RelationsOf.ne_nil (h : RelationsOf c group) : group ≠ [] := by
  cases h <;> exact List.cons_ne_nil _ _

theorem RelationsOf.unique {other : List Relation} (h : RelationsOf c group)
    (hother : RelationsOf c other) : group = other := by
  cases h with
  | one hop =>
    cases hother with
    | one hop' =>
      cases hop.symm.trans hop'
      rfl
    | list => cases hop
    | pair => cases hop
  | list =>
    cases hother with
    | one hop => cases hop
    | list => rfl
  | pair =>
    cases hother with
    | one hop => cases hop
    | pair => rfl

theorem exists_comparisonRelations
    (h : Condition.defect? c.subject c.operator c.operand = none) :
    ∃ group, comparisonRelations c = .ok group ∧ RelationsOf c group := by
  obtain ⟨subject, operator, operand⟩ := c
  cases operator with
  | between =>
    obtain ⟨low, high, rfl⟩ := Condition.operand_of_between h
    exact ⟨_, rfl, .pair⟩
  | oneOf =>
    obtain ⟨items, rfl⟩ := Condition.operand_of_oneOf h
    refine ⟨_, rfl, ?_⟩
    rw [Datum.ofValue, ofItems_eq]
    exact .list
  | _ => exact ⟨_, rfl, .one rfl⟩

end Leaf

section Tree

variable {c : Condition} {cs : List Condition} {rs : List Relation}

def Lists (leaves : List Comparison) (rs : List Relation) : Prop :=
  ∃ groups, List.Forall₂ RelationsOf leaves groups ∧ groups.flatten = rs

theorem Lists.append {leaves others : List Comparison} {rest : List Relation}
    (h : Lists leaves rs) (hrest : Lists others rest) : Lists (leaves ++ others) (rs ++ rest) := by
  obtain ⟨groups, hgroups, rfl⟩ := h
  obtain ⟨more, hmore, rfl⟩ := hrest
  exact ⟨groups ++ more, List.rel_append hgroups hmore, List.flatten_append⟩

def firstForeign? (c : Condition) : Option Connective := c.connectives.find? (· ≠ .and)

def fault? (c : Condition) : Option QueryError := (firstForeign? c).map noConnective

theorem verdict_relationsOfAll (h : ∀ c ∈ cs, Verdict (fault? c) (relations c) (Lists c.leaves)) :
    Verdict (cs.findSome? fault?) (relationsOfAll cs) (Lists (cs.flatMap Condition.leaves)) := by
  induction cs with
  | nil => exact .accept ⟨[], .nil, rfl⟩
  | cons c cs ih =>
    rw [Verdict.findSome?_cons_or]
    apply (h c List.mem_cons_self).bind
    intro first hfirst
    apply (ih fun d hd => h d (List.mem_cons_of_mem c hd)).map
    intro rest hrest
    exact hfirst.append hrest

theorem fault?_and (cs : List Condition) : fault? (.composite .and cs) = cs.findSome? fault? := by
  simp only [fault?, firstForeign?, Condition.connectives_composite]
  rw [List.find?_cons_of_neg (by decide), List.find?_flatMap, List.map_findSome?]
  rfl

/-- A condition that was built becomes the relations of its comparisons, unless it has a connective that
CQL does not have. -/
theorem verdict_relations (h : c.Built) : Verdict (fault? c) (relations c) (Lists c.leaves) := by
  induction c, h using Condition.Built.byShape with
  | leaf c _ hdefect =>
    obtain ⟨group, hgroup, hof⟩ := exists_comparisonRelations hdefect
    rw [relations, hgroup]
    exact .accept ⟨[group], .cons hof .nil, List.flatten_singleton⟩
  | and cs _ _ ih =>
    rw [fault?_and, Condition.leaves_composite]
    exact verdict_relationsOfAll fun d hd => (ih d hd).2
  | or => exact .refuse _
  | not => exact .refuse _

theorem fault?_eq_none_iff :
    fault? c = none ↔ ∀ connective ∈ c.connectives, connective = .and := by
  simp [fault?, firstForeign?]

theorem Lists.ne_nil {leaves : List Comparison} (h : Lists leaves rs) (hleaves : leaves ≠ []) :
    rs ≠ [] := by
  obtain ⟨groups, hgroups, rfl⟩ := h
  cases hgroups with
  | nil => exact (hleaves rfl).elim
  | cons hgroup => exact List.append_ne_nil_of_left_ne_nil hgroup.ne_nil _

theorem Lists.kept {leaves : List Comparison} (h : Lists leaves rs) {leaf : Comparison}
    (hleaf : leaf ∈ leaves) : ∃ group, RelationsOf leaf group ∧ group <:+: rs := by
  obtain ⟨groups, hgroups, rfl⟩ := h
  induction hgroups with
  | nil => cases hleaf
  | @cons first group leaves groups hgroup _ ih =>
    rw [List.flatten_cons]
    rcases List.mem_cons.mp hleaf with rfl | hleaf
    · exact ⟨group, hgroup, List.infix_append [] _ _⟩
    · obtain ⟨other, hother, hinfix⟩ := ih hleaf
      exact ⟨other, hother, hinfix.trans (List.suffix_append group _).isInfix⟩

theorem Lists.reads {leaves : List Comparison} (h : Lists leaves rs) (reading : Relation → Prop) :
    (∀ r ∈ rs, reading r) ↔ ∀ leaf ∈ leaves, ReadAs reading leaf := by
  obtain ⟨groups, hgroups, rfl⟩ := h
  induction hgroups with
  | nil => simp
  | @cons leaf group leaves groups hgroup _ ih =>
    -- A comparison has one group of relations only.
    have hleaf : ReadAs reading leaf ↔ ∀ r ∈ group, reading r := by
      constructor
      · rintro ⟨other, hother, hreads⟩
        rwa [hgroup.unique hother]
      · intro hreads
        exact ⟨group, hgroup, hreads⟩
    rw [List.flatten_cons, List.forall_mem_append, List.forall_mem_cons, ih, hleaf]

structure Exact (c : Condition) (rs : List Relation) : Prop where
  inOrder : Lists c.leaves rs
  nonempty : rs ≠ []
  kept : ∀ leaf ∈ c.leaves, ∃ group, RelationsOf leaf group ∧ group <:+: rs
  means : ∀ reading : Relation → Prop, (∀ r ∈ rs, reading r) ↔ c.Holds (ReadAs reading)

theorem exact_of_lists (hbuilt : c.Built) (hall : ∀ connective ∈ c.connectives, connective = .and)
    (h : Lists c.leaves rs) : Exact c rs where
  inOrder := h
  nonempty := h.ne_nil (Condition.leaves_ne_nil hbuilt)
  kept _ hleaf := h.kept hleaf
  means reading := by rw [Condition.holds_of_conjunctive hbuilt hall, h.reads]

inductive Rejects (e : QueryError) : Connective → Prop where
  | or : e.message = "Unsupported query for wide_column: CQL has no OR operator" → Rejects e .or
  | not : e.message = "Unsupported query for wide_column: CQL has no NOT operator" → Rejects e .not

theorem rejects_noConnective {connective : Connective} (h : connective ≠ .and) :
    Rejects (noConnective connective) connective := by
  cases connective with
  | and => exact (h rfl).elim
  | or => exact .or rfl
  | not => exact .not rfl

structure Conjunctive {α : Type} (c : Condition) (result : Except QueryError α)
    (relationsIn : α → List Relation) : Prop where
  compiles : (∃ a, result = .ok a) ↔ ∀ connective ∈ c.connectives, connective = .and
  /-- The error names the first connective that CQL does not have. -/
  fails : ∀ connective, c.connectives.find? (· ≠ .and) = some connective →
    ∃ e, result = .error e ∧ e.code = "QUERY_UNSUPPORTED" ∧ Rejects e connective
  exact : ∀ a, result = .ok a → Exact c (relationsIn a)

theorem conjunctive_of_verdict {α : Type} {result : Except QueryError α}
    {relationsIn : α → List Relation} (hbuilt : c.Built)
    (h : Verdict (fault? c) result fun a => Lists c.leaves (relationsIn a)) :
    Conjunctive c result relationsIn where
  compiles := by rw [h.ok_iff, fault?_eq_none_iff]
  fails connective hfirst := by
    have hne : connective ≠ .and := by simpa using List.find?_some hfirst
    refine ⟨noConnective connective, h.error _ ?_, rfl, rejects_noConnective hne⟩
    rw [fault?, firstForeign?, hfirst, Option.map_some]
  exact a ha := by
    have hall := fault?_eq_none_iff.mp (h.ok_iff.mp ⟨a, ha⟩)
    exact exact_of_lists hbuilt hall (h.good_of_ok ha)

end Tree

theorem whereClause_of_ne_nil {rs : List Relation} (h : rs ≠ []) :
    whereClause rs = " WHERE " ++ separated " AND " (rs.map Relation.text) := by
  cases rs with
  | nil => exact (h rfl).elim
  | cons r rs => rfl

/-- Selections and removals carry the relations of their condition and nothing else, and a removal
always has a WHERE clause of at least one of them. -/
theorem conditions_compile_exactly (k : Keyspace) {c : Condition} (hbuilt : c.Built)
    (collection : String) :
    (∀ sorts skip limit cursor w, Conjunctive c
      (k.select ⟨collection, some c, sorts, skip, limit⟩ cursor w) Select.relations) ∧
    ∀ attributes,
      Conjunctive c (k.delete ⟨collection, some c, attributes⟩) Delete.relations ∧
      (∀ statement, k.delete ⟨collection, some c, attributes⟩ = .ok statement →
        statement.write.cql = "DELETE" ++ columnList attributes ++ " FROM " ++
          tableName k.name collection ++ " WHERE " ++
            separated " AND " (statement.relations.map Relation.text)) ∧
      k.delete ⟨collection, none, attributes⟩ = .error Keyspace.unconditionalDelete := by
  have hverdict := verdict_relations hbuilt
  refine ⟨?_, ?_⟩
  · intro sorts skip limit cursor w
    apply conjunctive_of_verdict hbuilt
    exact hverdict.map fun rs hrs => hrs
  · intro attributes
    have hdelete : Conjunctive c (k.delete ⟨collection, some c, attributes⟩) Delete.relations := by
      apply conjunctive_of_verdict hbuilt
      exact hverdict.map fun rs hrs => hrs
    refine ⟨hdelete, ?_, rfl⟩
    intro statement hstatement
    have hne := (hdelete.exact statement hstatement).nonempty
    simp only [Keyspace.delete] at hstatement
    cases hrs : relations c with
    | error e => simp [hrs, Except.map] at hstatement
    | ok rs =>
      rw [hrs] at hstatement
      cases hstatement
      rw [Delete.write, whereClause_of_ne_nil hne, ← String.append_assoc]

/-- A range and a pattern, one conjunction inside another. -/
theorem nested_conjunction_compiles_exactly :
    let k : Keyspace := { name := "shop" }
    let c : Condition := .composite .and
      [.composite .and [.leaf ⟨"price", .between, .sequence [.integer 1, .integer 9]⟩],
        .leaf ⟨"title", .like, .text "a%"⟩]
    c.Built ∧
    (∀ sorts skip limit cursor w, Conjunctive c
      (k.select ⟨"items", some c, sorts, skip, limit⟩ cursor w) Select.relations) ∧
    ∀ attributes,
      Conjunctive c (k.delete ⟨"items", some c, attributes⟩) Delete.relations ∧
      (∀ statement, k.delete ⟨"items", some c, attributes⟩ = .ok statement →
        statement.write.cql = "DELETE" ++ columnList attributes ++ " FROM " ++
          tableName k.name "items" ++ " WHERE " ++
            separated " AND " (statement.relations.map Relation.text)) ∧
      k.delete ⟨"items", none, attributes⟩ = .error Keyspace.unconditionalDelete := by
  intro k c
  have hrange : Condition.Built (.leaf ⟨"price", .between, .sequence [.integer 1, .integer 9]⟩) :=
    Condition.built_leaf (by decide)
  have hbuilt : c.Built := by
    apply Condition.built_and (List.cons_ne_nil _ _)
    rw [List.forall_mem_cons, List.forall_mem_singleton]
    refine ⟨?_, Condition.built_leaf (by decide)⟩
    exact Condition.built_and (List.cons_ne_nil _ _) (List.forall_mem_singleton.mpr hrange)
  exact ⟨hbuilt, conditions_compile_exactly k hbuilt "items"⟩

end StoreQuery.Cql
