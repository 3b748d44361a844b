import StoreQuery.Cql.Table
import StoreQuery.MapStore.Bucket
import StoreQuery.Proofs.Condition.Compilers
import StoreQuery.Proofs.Entity
import StoreQuery.Proofs.Writing.Journal
import StoreQuery.Search.Documents
/-!
What is sent to the stores, and how making it fails: never as if a transport had failed, wherever in an
entity or a condition the fault is.
-/
namespace StoreQuery

open QueryError (Own)

namespace Entity

/-- The entity with an identifier behind its attributes, if it has no key. -/
def keyed (e : Entity) (key identifier : String) : Entity :=
  if e.contains key then e else ⟨e.name, e.attributes ++ [⟨key, .text identifier⟩]⟩

theorem own_withKey (e : Entity) (key identifier : String) :
    FailsAs Own (e.withKey key identifier) := by
  rw [withKey, set, Attribute.of]
  split
  · exact .ok e
  · split
    · exact .error (.invalidArgument _)
    · exact .ok _

theorem withKey_of_missing {e : Entity} {key : String} (h : e.contains key = false)
    (hkey : key ≠ "") (identifier : String) :
    e.withKey key identifier = .ok (e.keyed key identifier) := by
  have hnew : key ∉ e.names := by
    rw [← get?_eq_none_iff, get?, Option.map_eq_none_iff, ← Option.isNone_iff_eq_none,
      ← Option.not_isSome, ← contains, h]
    rfl
  have hadd : e.add ⟨key, .text identifier⟩ = e.keyed key identifier := by
    rw [add, insert_of_not_mem hnew, keyed, h]
    rfl
  rw [withKey, h, set, Attribute.of, if_neg hkey, ← hadd]
  rfl

/-- Only where the name of the key is empty an entity without it gets none. -/
theorem withKey_eq_ok_iff {e f : Entity} {key identifier : String} (he : e.Valid) :
    e.withKey key identifier = .ok f ↔ f = e.keyed key identifier ∧ f.Valid := by
  cases h : e.contains key with
  | true =>
    have hkeyed : e.keyed key identifier = e := if_pos h
    rw [hkeyed, withKey, if_pos h, Except.ok.injEq, @eq_comm _ e]
    exact ⟨fun hf => ⟨hf, hf ▸ he⟩, And.left⟩
  | false =>
    by_cases hkey : key = ""
    · subst hkey
      have hkeyed : "" ∈ (e.keyed "" identifier).names := by simp [keyed, h, names]
      have hrefused : e.withKey "" identifier =
          .error (.invalidArgument "attribute name must not be empty") := by
        rw [withKey, h]
        rfl
      rw [hrefused]
      constructor
      · rintro ⟨⟩
      · rintro ⟨rfl, hvalid⟩
        exact (hvalid.attributes_named hkeyed).elim
    · have hwith := withKey_of_missing h hkey identifier
      rw [hwith, Except.ok.injEq, @eq_comm _ _ f]
      exact ⟨fun hf => ⟨hf, hf ▸ withKey_valid he hwith⟩, And.left⟩

end Entity

namespace MapStore

theorem own_keyText (name : String) (v : Value) : FailsAs Own (keyText name v) := by
  cases v with
  | bytes | sequence | entity => exact .error (.conversion _ _)
  | _ => exact .ok _

theorem own_ofValue (name : String) (v : Value) : FailsAs Own (FieldValue.ofValue name v) := by
  refine (failsAs_ofValue name v).imp ?_
  rintro e rfl
  exact .unsupportedType _ _ _

theorem own_ofItems (name : String) (vs : List Value) : FailsAs Own (FieldValue.ofItems name vs) := by
  induction vs with
  | nil => exact .ok []
  | cons v vs ih => exact (own_ofValue name v).bind fun f => ih.bind fun fs => .ok (f :: fs)

theorem own_fieldsOf (as : List Attribute) : FailsAs Own (fieldsOf as) := by
  induction as with
  | nil => exact .ok []
  | cons a as ih => exact (own_ofValue a.name a.value).bind fun v => ih.bind fun fs => .ok _

theorem own_ofEntity (k : String) (e : Entity) : FailsAs Own (Record.ofEntity k e) := by
  rw [Record.ofEntity]
  split
  · exact .error (.conversion _ _)
  · exact (own_keyText k _).bind fun key => (own_fieldsOf e.attributes).bind fun fields => .ok _

section Predicates

variable [RegexEngine]

theorem own_ofPattern (subject pattern : String) :
    FailsAs Own (Predicate.ofPattern subject pattern) := by
  rw [Predicate.ofPattern]
  split
  · exact .error (.invalidArgument _)
  · exact .ok _

theorem own_ofComparison (c : Comparison) : FailsAs Own (Predicate.ofComparison c) := by
  obtain ⟨subject, operator, operand⟩ := c
  cases operator with
  | between =>
    simp only [Predicate.ofComparison]
    split
    · exact .error (.invalidArgument _)
    · exact (own_ofValue subject _).bind fun low => (own_ofValue subject _).bind fun high => .ok _
  | oneOf =>
    simp only [Predicate.ofComparison]
    split
    · exact .error (.invalidArgument _)
    · exact (own_ofItems subject _).map
  | like =>
    simp only [Predicate.ofComparison]
    split
    · exact .error (.invalidArgument _)
    · exact own_ofPattern subject _
  | _ => exact (own_ofValue subject operand).map

theorem own_predicate (condition : Option Condition) : FailsAs Own (Predicate.of condition) := by
  cases condition with
  | none => exact .ok _
  | some c => exact failsAs_ofCondition fun d _ => own_ofComparison d

end Predicates

end MapStore

namespace Search

theorem own_of_isConversion {e : QueryError} (h : e.IsConversion) : e.Own := by
  obtain ⟨name, reason, rfl⟩ := h
  exact .conversion _ _

theorem own_operand (name : String) (v : Value) : FailsAs Own (QueryError.within name (jsonOf v)) :=
  ((failsAs_jsonOf v).within fun _ => isConversion_forAttribute name).imp fun _ => own_of_isConversion

theorem own_idOf (e : Entity) : FailsAs Own (Hit.idOf e) := by
  rw [Hit.idOf]
  split
  · exact .ok _
  · exact .ok _
  · exact .error (.unsupportedType _ _ _)

theorem own_hit (e : Entity) : FailsAs Own (Hit.ofEntity e) :=
  (own_idOf e).bind fun _ =>
    ((failsAs_jsonOfAttributes _).imp fun _ => own_of_isConversion).bind fun _ => .ok _

theorem own_comparisonClause (c : Comparison) : FailsAs Own (comparisonClause c) := by
  obtain ⟨subject, operator, operand⟩ := c
  cases operator with
  | between =>
    simp only [comparisonClause]
    split
    · exact .error (.invalidArgument _)
    · exact (own_operand subject _).bind fun _ => (own_operand subject _).bind fun _ => .ok _
  | like =>
    simp only [comparisonClause]
    split
    · exact .error (.invalidArgument _)
    · exact .ok _
  | _ => exact (own_operand subject operand).map

theorem own_deletion (i : Index) (d : Deletion) : FailsAs Own (i.deletion d) := by
  rw [Index.deletion]
  split
  · apply FailsAs.map
    cases d.condition with
    | none => exact .ok _
    | some c => exact (failsAs_conditionClause fun d _ => own_comparisonClause d).bind fun _ => .ok _
  · exact .error (.unsupportedQuery _ _)

end Search

namespace Cql

theorem own_comparisonRelations (c : Comparison) : FailsAs Own (comparisonRelations c) := by
  obtain ⟨subject, operator, operand⟩ := c
  cases operator with
  | between =>
    simp only [comparisonRelations]
    split
    · exact .ok _
    · exact .error (.invalidArgument _)
  | _ => exact .ok _

theorem own_insert (k : Keyspace) (e : Entity) (ttl : Option TimeToLive) :
    FailsAs Own (k.insert e ttl) := by
  rw [Keyspace.insert]
  split
  · exact .error (.invalidArgument _)
  · exact .ok _

theorem own_update (k : Keyspace) (e : Entity) : FailsAs Own (k.update e) := by
  rw [Keyspace.update]
  split
  · exact .error (.invalidArgument _)
  · split
    · exact .error (.invalidArgument _)
    · exact .ok _

theorem own_delete (k : Keyspace) (d : Deletion) : FailsAs Own (k.delete d) := by
  rw [Keyspace.delete]
  split
  · exact .error (.unsupportedQuery _ _)
  · exact (failsAs_relations (fun _ => .unsupportedQuery _ _) fun d _ => own_comparisonRelations d).map

end Cql

end StoreQuery
