import StoreQuery.Proofs.Failures
import StoreQuery.Proofs.Search.RoundTrip
/-!
Which documents can be read. Only empty names are refused, of the entity or of a field at any depth.
-/
namespace StoreQuery.Search

variable {j : Json} {field : String} {js : List Json} {fields : Json.Fields}

theorem exists_valuesOf (h : ∀ j ∈ js, ∃ o, valueOf field j = .ok o) :
    ∃ vs, valuesOf field js = .ok vs := by
  induction js with
  | nil => exact ⟨[], rfl⟩
  | cons j js ih =>
    rw [List.forall_mem_cons] at h
    obtain ⟨o, ho⟩ := h.1
    obtain ⟨vs, hvs⟩ := ih h.2
    refine ⟨o.toList ++ vs, ?_⟩
    rw [valuesOf, ho, hvs]
    rfl

theorem exists_addFields_of_named (hnamed : "" ∉ fields.map Prod.fst)
    (h : ∀ f ∈ fields, f.1 ≠ "" → ∃ o, valueOf f.1 f.2 = .ok o) (e : Entity) :
    ∃ f, addFields e fields = .ok f := by
  induction fields generalizing e with
  | nil => exact ⟨e, rfl⟩
  | cons g fields ih =>
    obtain ⟨name, j⟩ := g
    rw [List.map_cons, List.mem_cons, not_or] at hnamed
    rw [List.forall_mem_cons] at h
    have hname : name ≠ "" := Ne.symm hnamed.1
    obtain ⟨o, ho⟩ := h.1 hname
    rw [addFields, QueryError.within_eq_ok.mpr ho, ok_bind]
    cases o with
    | none => exact ih hnamed.2 h.2 e
    | some v =>
      simp only [Entity.set, Attribute.of, if_neg hname]
      exact ih hnamed.2 h.2 _

/-- Without empty names, everything that stands in a document can be read. -/
theorem exists_read_of_named (hnamed : j.Named) (hfield : field ≠ "") : ∃ o, valueOf field j = .ok o := by
  induction j using Json.byParts generalizing field with
  | whole j ih =>
    cases j with
    | array items =>
      have hitems : ∀ p ∈ items, ∃ o, valueOf field p = .ok o :=
        fun p hp => ih p hp (hnamed.part hp) hfield
      obtain ⟨vs, hvs⟩ := exists_valuesOf hitems
      refine ⟨some (.sequence vs), ?_⟩
      rw [valueOf, hvs]
      rfl
    | object fields =>
      have hfields : ∀ f ∈ fields, f.1 ≠ "" → ∃ o, valueOf f.1 f.2 = .ok o := by
        intro f hf hname
        have hpart : f.2 ∈ (Json.object fields).parts := List.mem_map_of_mem hf
        exact ih f.2 hpart (hnamed.part hpart) hname
      obtain ⟨e, he⟩ := exists_addFields_of_named (hnamed fields .self) hfields ⟨field, []⟩
      refine ⟨some (.entity e), ?_⟩
      rw [valueOf, Entity.new_of_named hfield, ok_bind, he]
      rfl
    | _ => exact ⟨_, rfl⟩

section Failures

theorem failsAs_valuesOf (h : ∀ j ∈ js, FailsAs QueryError.IsInvalid (valueOf field j)) :
    FailsAs QueryError.IsInvalid (valuesOf field js) := by
  induction js with
  | nil => exact .ok []
  | cons j js ih =>
    rw [List.forall_mem_cons] at h
    rw [valuesOf]
    exact h.1.bind fun o => (ih h.2).bind fun vs => .ok _

theorem failsAs_set (e : Entity) (name : String) (v : Value) :
    FailsAs QueryError.IsInvalid (e.set name v) := by
  rw [Entity.set, Attribute.of]
  split
  · exact .error ⟨_, rfl⟩
  · exact .ok _

theorem failsAs_new (name : String) : FailsAs QueryError.IsInvalid (Entity.new name) := by
  rw [Entity.new]
  split
  · exact .error ⟨_, rfl⟩
  · exact .ok _

theorem failsAs_addFields (h : ∀ f ∈ fields, FailsAs QueryError.IsInvalid (valueOf f.1 f.2)) (e : Entity) :
    FailsAs QueryError.IsInvalid (addFields e fields) := by
  have hattribute : ∀ name err, QueryError.IsInvalid err → QueryError.IsInvalid (err.forAttribute name) := by
    rintro name _ ⟨reason, rfl⟩
    exact ⟨reason, rfl⟩
  induction fields generalizing e with
  | nil => exact .ok e
  | cons g fields ih =>
    obtain ⟨name, j⟩ := g
    rw [List.forall_mem_cons] at h
    rw [addFields]
    refine (h.1.within (hattribute name)).bind fun o => ?_
    cases o with
    | none => exact ih h.2 e
    | some v => exact (failsAs_set e name v).bind fun f => ih h.2 f

/-- No number is refused, and nothing else but an empty name. -/
theorem failsAs_valueOf (j : Json) (field : String) : FailsAs QueryError.IsInvalid (valueOf field j) := by
  induction j using Json.byParts generalizing field with
  | whole j ih =>
    cases j with
    | array items =>
      rw [valueOf]
      exact (failsAs_valuesOf fun p hp => ih p hp field).bind fun vs => .ok _
    | object fields =>
      rw [valueOf]
      refine (failsAs_new field).bind fun e => ?_
      exact (failsAs_addFields (fun f hf => ih f.2 (List.mem_map_of_mem hf) f.1) e).bind fun f => .ok _
    | _ => exact .ok _

end Failures

section Hits

variable {hit : Hit} {collection : String}

theorem toEntity_of_unnamed (h : Hit.entityName collection hit.source = "") :
    hit.toEntity collection = .error (.invalidArgument "entity collection name must not be empty") := by
  rw [Hit.toEntity, h]
  rfl

theorem failsAs_toEntity (hit : Hit) (collection : String) :
    FailsAs QueryError.IsInvalid (hit.toEntity collection) := by
  by_cases hname : Hit.entityName collection hit.source = ""
  · rw [toEntity_of_unnamed hname]
    exact .error ⟨_, rfl⟩
  · rw [toEntity_eq rfl hname]
    exact failsAs_addFields (fun f _ => failsAs_valueOf f.2 f.1) _

theorem entityName_ne_empty (hcollection : collection ≠ "") (source : Json.Fields) :
    Hit.entityName collection source ≠ "" := by
  rw [Hit.entityName]
  split
  · split
    · exact hcollection
    · assumption
  · exact hcollection

theorem exists_toEntity_of_named (hnamed : (Json.object hit.source).Named)
    (hname : Hit.entityName collection hit.source ≠ "") : ∃ e, hit.toEntity collection = .ok e := by
  have herased : (hit.source.erase entityField).Sublist hit.source := List.filter_sublist
  rw [toEntity_eq rfl hname]
  apply exists_addFields_of_named
  · exact fun hmem => hnamed hit.source .self ((herased.map Prod.fst).subset hmem)
  · intro f hf hne
    have hpart : f.2 ∈ (Json.object hit.source).parts := List.mem_map_of_mem (herased.subset hf)
    exact exists_read_of_named (hnamed.part hpart) hne

end Hits

end StoreQuery.Search
