import StoreQuery.Proofs.Cql.Relations
import StoreQuery.Proofs.Failures
import StoreQuery.Proofs.MapStore.Compilation
import StoreQuery.Proofs.Search.Scope
import StoreQuery.Proofs.Within
/-!
Conditions as trees, and how they fail to compile. Whatever the shape of a condition, none of the three
compilers fails but for one of its comparisons, or for a connective that CQL does not have.
-/
namespace StoreQuery

namespace Condition

def parts : Condition → List Condition
  | .leaf _ => []
  | .composite _ children => children

def Within (inner outer : Condition) : Prop := StoreQuery.Within parts inner outer

theorem sizeOf_part_lt {c d : Condition} (h : d ∈ c.parts) : sizeOf d < sizeOf c := by
  cases c with
  | leaf c => cases h
  | composite connective children =>
    have hlt := List.sizeOf_lt_of_mem (show d ∈ children from h)
    simp only [Condition.composite.sizeOf_spec]
    omega

/-- Induction from the parts of a condition to the condition. -/
theorem byParts {motive : Condition → Prop} (leaf : ∀ c, motive (.leaf c))
    (composite : ∀ connective cs, (∀ c ∈ cs, motive c) → motive (.composite connective cs))
    (c : Condition) : motive c :=
  match c with
  | .leaf c => leaf c
  | .composite connective cs => composite connective cs fun d _ => byParts leaf composite d
termination_by sizeOf c
decreasing_by exact sizeOf_part_lt (c := .composite connective cs) ‹_›

end Condition

section Operands

theorem MapStore.failsAs_ofValue (name : String) (v : Value) :
    FailsAs (· = .unsupportedType backend name .entity) (FieldValue.ofValue name v) := by
  intro e he
  have hfault := (stored_value name v).error_iff.mp he
  rw [entityFault] at hfault
  split at hfault
  · exact (Option.some.inj hfault).symm
  · cases hfault

mutual

theorem Search.failsAs_jsonOf : ∀ v : Value, FailsAs QueryError.IsConversion (jsonOf v)
  | .text _ | .integer _ | .boolean _ | .temporal _ | .bytes _ => .ok _
  | .float x => by
    rw [jsonOf]
    split
    · exact .ok _
    · exact .error ⟨_, _, rfl⟩
  | .sequence items => (failsAs_jsonOfItems items).map
  | .entity ⟨_, as⟩ => (failsAs_jsonOfAttributes as).map

theorem Search.failsAs_jsonOfItems : ∀ vs : List Value,
    FailsAs QueryError.IsConversion (jsonOfItems vs)
  | [] => .ok _
  | v :: vs => (failsAs_jsonOf v).bind fun _ => (failsAs_jsonOfItems vs).bind fun _ => .ok _

theorem Search.failsAs_jsonOfAttributes : ∀ as : List Attribute,
    FailsAs QueryError.IsConversion (jsonOfAttributes as)
  | [] => .ok _
  | ⟨n, v⟩ :: as =>
    ((failsAs_jsonOf v).within fun _ => isConversion_forAttribute n).bind fun _ =>
      (failsAs_jsonOfAttributes as).bind fun _ => .ok _

end

end Operands

section Trees

variable {sort : QueryError → Prop} {c : Condition}

theorem failsAs_ofCondition [RegexEngine]
    (h : ∀ d ∈ c.leaves, FailsAs sort (MapStore.Predicate.ofComparison d)) :
    FailsAs sort (MapStore.Predicate.ofCondition c) := by
  induction c using Condition.byParts with
  | leaf c => exact h c (List.mem_singleton_self c)
  | composite connective cs ih =>
    rw [Condition.leaves_composite, List.forall_mem_flatMap] at h
    rw [MapStore.Predicate.ofCondition, MapStore.ofConditions_eq]
    exact (FailsAs.mapM fun d hd => ih d hd (h d hd)).map

theorem failsAs_conditionClause (h : ∀ d ∈ c.leaves, FailsAs sort (Search.comparisonClause d)) :
    FailsAs sort (Search.conditionClause c) := by
  induction c using Condition.byParts with
  | leaf c => exact h c (List.mem_singleton_self c)
  | composite connective cs ih =>
    rw [Condition.leaves_composite, List.forall_mem_flatMap] at h
    rw [Search.conditionClause, Search.conditionClauses_eq]
    exact (FailsAs.mapM fun d hd => ih d hd (h d hd)).map

theorem failsAs_relationsOfAll {cs : List Condition} (h : ∀ d ∈ cs, FailsAs sort (Cql.relations d)) :
    FailsAs sort (Cql.relationsOfAll cs) := by
  induction cs with
  | nil => exact .ok []
  | cons c cs ih =>
    rw [List.forall_mem_cons] at h
    exact h.1.bind fun first => (ih h.2).bind fun rest => .ok (first ++ rest)

theorem failsAs_relations (hforeign : ∀ connective, sort (Cql.noConnective connective))
    (h : ∀ d ∈ c.leaves, FailsAs sort (Cql.comparisonRelations d)) :
    FailsAs sort (Cql.relations c) := by
  induction c using Condition.byParts with
  | leaf c => exact h c (List.mem_singleton_self c)
  | composite connective cs ih =>
    cases connective with
    | and =>
      rw [Condition.leaves_composite, List.forall_mem_flatMap] at h
      exact failsAs_relationsOfAll fun d hd => ih d hd (h d hd)
    | _ => exact .error (hforeign _)

end Trees

end StoreQuery
