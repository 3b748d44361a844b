import StoreQuery.Proofs.Search.Reading
/-!
Places in entities and in documents. What stands at a place of an entity is written at the same place of a
document, and what stands at a place of a document is read at the same place of an entity.
-/
namespace StoreQuery

/-- A way to a part: into a field, or to an item of a list. -/
inductive Segment where
  | field (name : String)
  | item (index : Nat)

def Json.isNull : Json → Bool
  | .null => true
  | _ => false

/-- The part that a segment leads to. Nulls in an array are passed over. -/
def Json.part? : Json → Segment → Option Json
  | .object fields, .field name => Fields.get? fields name
  | .array items, .item index => (items.filter fun j => !j.isNull)[index]?
  | _, _ => none

def Json.at? (j : Json) (path : List Segment) : Option Json := path.foldlM Json.part? j

def Value.part? : Value → Segment → Option Value
  | .entity e, .field name => e.get? name
  | .sequence items, .item index => items[index]?
  | _, _ => none

def Value.at? (v : Value) (path : List Segment) : Option Value := path.foldlM Value.part? v

namespace Json

variable {j p : Json} {s : Segment} {path : List Segment}

theorem at?_cons (j : Json) (s : Segment) (path : List Segment) :
    j.at? (s :: path) = (j.part? s).bind (·.at? path) := by
  rw [at?, List.foldlM_cons]
  rfl

/-- A null has no parts. -/
theorem isNull_of_at? (h : j.at? path = some p) (hp : p.isNull = false) : j.isNull = false := by
  cases j with
  | null =>
    cases path with
    | nil =>
      cases h
      exact hp
    | cons s path =>
      rw [at?_cons] at h
      cases h
  | _ => rfl

theorem mem_parts_of_part? (h : j.part? s = some p) : p ∈ j.parts := by
  cases j with
  | object fields =>
    cases s with
    | field name => exact List.mem_map.mpr ⟨_, Fields.mem_of_get? h, rfl⟩
    | item index => cases h
  | array items =>
    cases s with
    | field name => cases h
    | item index => exact List.mem_of_mem_filter (List.mem_of_getElem? h)
  | _ => cases s <;> cases h

end Json

namespace Search

variable {j p : Json} {v : Value} {o : Option Value} {field name : String} {js : List Json}
  {vs : List Value} {fields : Json.Fields} {e f : Entity} {s : Segment} {path : List Segment}
  {hit : Hit} {collection : String}

section Reading

/-- Only null has no value. -/
theorem isNull_of_valueOf (h : valueOf field j = .ok o) : j.isNull = o.isNone := by
  cases j with
  | array items =>
    obtain ⟨vs, -, h⟩ := exists_of_bind_ok h
    cases h
    rfl
  | object fields =>
    obtain ⟨e, -, h⟩ := exists_of_bind_ok h
    obtain ⟨f, -, h⟩ := exists_of_bind_ok h
    cases h
    rfl
  | _ =>
    cases h
    rfl

theorem exists_of_valueOf (h : valueOf field j = .ok o) (hnull : j.isNull = false) :
    ∃ v, o = some v := by
  rw [isNull_of_valueOf h] at hnull
  exact Option.isSome_iff_exists.mp (Option.isNone_eq_false_iff.mp hnull)

/-- The values of an array are those of its items that are not null, in order. -/
theorem related_of_valuesOf (h : valuesOf field js = .ok vs) :
    List.Forall₂ (fun j v => valueOf field j = .ok (some v)) (js.filter fun j => !j.isNull) vs := by
  induction js generalizing vs with
  | nil =>
    cases h
    exact .nil
  | cons j js ih =>
    obtain ⟨o, hj, h⟩ := exists_of_bind_ok h
    obtain ⟨rest, hrest, h⟩ := exists_of_bind_ok h
    cases h
    rw [List.filter_cons, isNull_of_valueOf hj]
    cases o with
    | none => exact ih hrest
    | some v => exact .cons hj (ih hrest)

/-- What setting the first field leaves for the others. -/
theorem exists_of_addFields_cons (h : addFields e ((name, j) :: fields) = .ok f) :
    ∃ o g, valueOf name j = .ok o ∧ addFields g fields = .ok f ∧
      match o with
      | none => g = e
      | some v => e.set name v = .ok g := by
  rw [addFields] at h
  obtain ⟨o, ho, h⟩ := exists_of_bind_ok h
  have hread := QueryError.within_eq_ok.mp ho
  cases o with
  | none => exact ⟨none, e, hread, h, rfl⟩
  | some v =>
    obtain ⟨g, hg, h⟩ := exists_of_bind_ok h
    exact ⟨some v, g, hread, h, hg⟩

theorem get?_addFields_of_new (h : addFields e fields = .ok f) (hnew : name ∉ fields.map Prod.fst) :
    f.get? name = e.get? name := by
  induction fields generalizing e with
  | nil =>
    cases h
    rfl
  | cons g fields ih =>
    obtain ⟨other, j⟩ := g
    rw [List.map_cons, List.mem_cons, not_or] at hnew
    obtain ⟨o, g, -, hrest, hset⟩ := exists_of_addFields_cons h
    rw [ih hrest hnew.2]
    cases o with
    | none => rw [hset]
    | some v => rw [Entity.get?_set hset, if_neg (Ne.symm hnew.1)]

/-- Each field that is not null becomes an attribute. -/
theorem get?_addFields (h : addFields e fields = .ok f) (hdistinct : (fields.map Prod.fst).Nodup)
    (hget : fields.get? name = some j) (hnull : j.isNull = false) :
    ∃ v, f.get? name = some v ∧ valueOf name j = .ok (some v) := by
  induction fields generalizing e with
  | nil => cases hget
  | cons g fields ih =>
    obtain ⟨other, k⟩ := g
    obtain ⟨hnew, hdistinct⟩ := List.nodup_cons.mp hdistinct
    obtain ⟨o, g, hread, hrest, hset⟩ := exists_of_addFields_cons h
    rw [Json.Fields.get?_cons] at hget
    split at hget
    · rename_i hname
      cases hget
      subst hname
      obtain ⟨v, rfl⟩ := exists_of_valueOf hread hnull
      refine ⟨v, ?_, hread⟩
      rw [get?_addFields_of_new hrest hnew, Entity.get?_set hset, if_pos rfl]
    · exact ih hrest hdistinct hget

/-- A part of what is read is read in its place. -/
theorem part?_of_valueOf (h : valueOf field j = .ok (some v)) (hordered : j.Ordered)
    (hp : j.part? s = some p) (hnull : p.isNull = false) :
    ∃ w field, v.part? s = some w ∧ valueOf field p = .ok (some w) := by
  cases j with
  | object fields =>
    cases s with
    | field name =>
      obtain ⟨e, -, h⟩ := exists_of_bind_ok h
      obtain ⟨f, hf, h⟩ := exists_of_bind_ok h
      cases h
      obtain ⟨w, hw, hread⟩ := get?_addFields hf (hordered fields .self).nodup hp hnull
      exact ⟨w, name, hw, hread⟩
    | item index => cases hp
  | array items =>
    cases s with
    | field name => cases hp
    | item index =>
      obtain ⟨vs, hvs, h⟩ := exists_of_bind_ok h
      cases h
      have hrelated := related_of_valuesOf hvs
      obtain ⟨hindex, rfl⟩ := List.getElem?_eq_some_iff.mp hp
      have hlength : index < vs.length := hrelated.length_eq ▸ hindex
      exact ⟨vs[index], field, List.getElem?_eq_getElem hlength, hrelated.get hindex hlength⟩
  | _ => cases s <;> cases hp

theorem at?_of_valueOf (h : valueOf field j = .ok (some v)) (hordered : j.Ordered)
    (hp : j.at? path = some p) (hnull : p.isNull = false) :
    ∃ w field, v.at? path = some w ∧ valueOf field p = .ok (some w) := by
  induction path generalizing j v field with
  | nil =>
    cases hp
    exact ⟨v, field, rfl, h⟩
  | cons s path ih =>
    rw [Json.at?_cons] at hp
    obtain ⟨q, hq, hp⟩ := Option.bind_eq_some_iff.mp hp
    obtain ⟨w, field, hw, hread⟩ := part?_of_valueOf h hordered hq (Json.isNull_of_at? hp hnull)
    obtain ⟨u, field, hu, hread⟩ := ih hread (hordered.part (Json.mem_parts_of_part? hq)) hp
    refine ⟨u, field, ?_, hread⟩
    rw [Value.at?, List.foldlM_cons, hw]
    exact hu

theorem exists_addFields_of_toEntity (h : hit.toEntity collection = .ok e) :
    ∃ start, addFields start (hit.source.erase entityField) = .ok e := by
  by_cases hname : Hit.entityName collection hit.source = ""
  · rw [toEntity_of_unnamed hname] at h
    cases h
  · rw [toEntity_eq rfl hname] at h
    exact ⟨_, h⟩

/-- What stands in a document is read in its place; only the field for the name of the entity has none. -/
theorem at?_of_toEntity (h : hit.toEntity collection = .ok e) (hordered : (Json.object hit.source).Ordered)
    (hname : name ≠ entityField) (hp : (Json.object hit.source).at? (.field name :: path) = some p)
    (hnull : p.isNull = false) :
    ∃ w field, (Value.entity e).at? (.field name :: path) = some w ∧ valueOf field p = .ok (some w) := by
  obtain ⟨start, hfields⟩ := exists_addFields_of_toEntity h
  rw [Json.at?_cons] at hp
  obtain ⟨q, hq, hp⟩ := Option.bind_eq_some_iff.mp hp
  have hincreasing := hordered hit.source .self
  have herased : (hit.source.erase entityField).get? name = some q :=
    (Json.Fields.get?_erase hname hit.source).trans hq
  have hdistinct : ((hit.source.erase entityField).map Prod.fst).Nodup :=
    hincreasing.nodup.sublist (List.filter_sublist.map Prod.fst)
  obtain ⟨v, hv, hread⟩ := get?_addFields hfields hdistinct herased (Json.isNull_of_at? hp hnull)
  obtain ⟨w, field, hw, hread⟩ :=
    at?_of_valueOf hread (hordered.part (Json.mem_parts_of_part? hq)) hp hnull
  refine ⟨w, field, ?_, hread⟩
  rw [Value.at?, List.foldlM_cons, show (Value.entity e).part? (.field name) = some v from hv]
  exact hw

end Reading

section Writing

variable {w : Value} {as : List Attribute} {fs : List (String × Json)}

/-- Nothing is written as null. -/
theorem isNull_of_jsonOf (h : jsonOf v = .ok j) : j.isNull = false := by
  cases v with
  | float x =>
    rw [jsonOf] at h
    split at h
    · cases h
      rfl
    · cases h
  | sequence items =>
    obtain ⟨js, -, rfl⟩ := map_eq_ok.mp h
    rfl
  | entity e =>
    obtain ⟨name, as⟩ := e
    obtain ⟨fs, -, rfl⟩ := map_eq_ok.mp h
    rfl
  | _ =>
    cases h
    rfl

theorem filter_of_jsonOfItems (h : List.Forall₂ (fun v j => jsonOf v = .ok j) vs js) :
    (js.filter fun j => !j.isNull) = js := by
  apply List.filter_eq_self.mpr
  intro j hj
  obtain ⟨v, -, hv⟩ := exists_mem_of_related h.flip hj
  rw [isNull_of_jsonOf hv]
  rfl

/-- An attribute is written as the field of its name. -/
theorem get?_ofList_of_writes (hwrites : List.Forall₂ Writes as fs) (hdistinct : (as.map Attribute.name).Nodup)
    {a : Attribute} (ha : a ∈ as) : ∃ j, (Json.Fields.ofList fs).get? a.name = some j ∧ jsonOf a.value = .ok j := by
  obtain ⟨f, hf, hname, hj⟩ := exists_mem_of_related hwrites ha
  have hnodup : (fs.map Prod.fst).Nodup := names_of_writes hwrites ▸ hdistinct
  have hperm := Json.Fields.ofList_perm hnodup
  refine ⟨f.2, ?_, hj⟩
  rw [← hname]
  exact Json.Fields.get?_of_mem ((hperm.map Prod.fst).nodup_iff.mpr hnodup) (hperm.mem_iff.mpr hf)

/-- A part of what is written is written in its place. -/
theorem part?_of_jsonOf (h : jsonOf v = .ok j) (hsound : v.Sound) (hw : v.part? s = some w) :
    ∃ p, j.part? s = some p ∧ jsonOf w = .ok p := by
  cases v with
  | sequence items =>
    obtain ⟨js, hjs, rfl⟩ := map_eq_ok.mp h
    have hrelated := jsonOfItems_eq_ok.mp hjs
    cases s with
    | field name => cases hw
    | item index =>
      obtain ⟨hindex, rfl⟩ := List.getElem?_eq_some_iff.mp hw
      have hlength : index < js.length := hrelated.length_eq ▸ hindex
      refine ⟨js[index], ?_, hrelated.get hindex hlength⟩
      rw [Json.part?, filter_of_jsonOfItems hrelated, List.getElem?_eq_getElem hlength]
  | entity e =>
    have hvalid : e.Valid := hsound e .self
    obtain ⟨entityName, as⟩ := e
    obtain ⟨fs, hfs, rfl⟩ := map_eq_ok.mp h
    cases s with
    | field name =>
      exact get?_ofList_of_writes (jsonOfAttributes_eq_ok.mp hfs) hvalid.distinct (Entity.mem_of_get? hw)
    | item index => cases hw
  | _ => cases s <;> cases hw

theorem mem_parts_of_part? (h : v.part? s = some w) : w ∈ v.parts := by
  cases v with
  | sequence items =>
    cases s with
    | field name => cases h
    | item index => exact List.mem_of_getElem? h
  | entity e =>
    cases s with
    | field name => exact List.mem_map.mpr ⟨_, Entity.mem_of_get? h, rfl⟩
    | item index => cases h
  | _ => cases s <;> cases h

theorem at?_of_jsonOf (h : jsonOf v = .ok j) (hsound : v.Sound) (hw : v.at? path = some w) :
    ∃ p, j.at? path = some p ∧ jsonOf w = .ok p := by
  induction path generalizing v j with
  | nil =>
    cases hw
    exact ⟨j, rfl, h⟩
  | cons s path ih =>
    rw [Value.at?, List.foldlM_cons] at hw
    obtain ⟨u, hu, hw⟩ := Option.bind_eq_some_iff.mp hw
    obtain ⟨q, hq, hj⟩ := part?_of_jsonOf h hsound hu
    obtain ⟨p, hp, hread⟩ := ih hj (hsound.part (mem_parts_of_part? hu)) hw
    exact ⟨p, by rw [Json.at?_cons, hq, Option.bind_some, hp], hread⟩

/-- The fields that attributes are written as. -/
theorem regular_of_writes (hwrites : List.Forall₂ Writes as fs) (hdistinct : (as.map Attribute.name).Nodup)
    (hnamed : ∀ a ∈ as, a.name ≠ "") (h : ∀ a ∈ as, ∀ j, jsonOf a.value = .ok j → j.Regular)
    {f : String × Json} (hf : f ∈ Json.Fields.ofList fs) : f.1 ≠ "" ∧ f.2.Regular := by
  have hperm := Json.Fields.ofList_perm (names_of_writes hwrites ▸ hdistinct)
  obtain ⟨a, ha, hname, hj⟩ := exists_mem_of_related hwrites.flip (hperm.mem_iff.mp hf)
  exact ⟨fun hempty => hnamed a ha (hname.symm.trans hempty), h a ha f.2 hj⟩

theorem regular_jsonOf (h : jsonOf v = .ok j) (hsound : v.Sound) : j.Regular := by
  induction v using Value.byParts generalizing j with
  | whole v ih =>
    cases v with
    | sequence items =>
      obtain ⟨js, hjs, rfl⟩ := map_eq_ok.mp h
      apply Json.regular_array
      intro p hp
      obtain ⟨w, hw, hj⟩ := exists_mem_of_related (jsonOfItems_eq_ok.mp hjs).flip hp
      exact ih w hw hj (hsound.part hw)
    | entity e =>
      have hvalid : e.Valid := hsound e .self
      obtain ⟨name, as⟩ := e
      obtain ⟨fs, hfs, rfl⟩ := map_eq_ok.mp h
      have hvalues : ∀ a ∈ as, ∀ j, jsonOf a.value = .ok j → j.Regular := by
        intro a ha j hj
        have hpart : a.value ∈ (Value.entity ⟨name, as⟩).parts := List.mem_map_of_mem ha
        exact ih a.value hpart hj (hsound.part hpart)
      have hfields {f : String × Json} (hf : f ∈ Json.Fields.ofList fs) : f.1 ≠ "" ∧ f.2.Regular :=
        regular_of_writes (jsonOfAttributes_eq_ok.mp hfs) hvalid.distinct
          (fun _ => hvalid.name_ne_empty) hvalues hf
      apply Json.regular_object (Json.Fields.increasing_ofList fs)
      · intro hmem
        obtain ⟨f, hf, hempty⟩ := List.mem_map.mp hmem
        exact (hfields hf).1 hempty
      · exact fun f hf => (hfields hf).2
    | float x =>
      rw [jsonOf] at h
      split at h
      · cases h
        exact Json.regular_of_scalar rfl fun _ => Json.noConfusion
      · cases h
    | _ =>
      cases h
      exact Json.regular_of_scalar rfl fun _ => Json.noConfusion

theorem regular_ofEntity (h : Hit.ofEntity e = .ok hit) (hsound : e.Sound) :
    (Json.object hit.source).Regular := by
  obtain ⟨id, fs, -, hwrites, rfl⟩ := ofEntity_eq_ok.mp h
  have hothers : (otherAttributes e).Sublist e.attributes := List.filter_sublist
  have hfields {f : String × Json} (hf : f ∈ Json.Fields.put entityField (.string e.name) (.ofList fs)) :
      f.1 ≠ "" ∧ f.2.Regular := by
    rcases Json.Fields.mem_put hf with rfl | hf
    · exact ⟨show entityField ≠ "" by decide, Json.regular_of_scalar rfl fun _ => Json.noConfusion⟩
    · refine regular_of_writes hwrites (hsound.valid.distinct.sublist (hothers.map Attribute.name)) ?_ ?_ hf
      · exact fun a ha => hsound.valid.name_ne_empty (hothers.subset ha)
      · exact fun a ha j hj => regular_jsonOf hj (hsound.value (hothers.subset ha))
  apply Json.regular_object (Json.Fields.increasing_ofList fs).put
  · intro hmem
    obtain ⟨f, hf, hempty⟩ := List.mem_map.mp hmem
    exact (hfields hf).1 hempty
  · exact fun f hf => (hfields hf).2

/-- A document that an entity was written as can be read. -/
theorem exists_toEntity_of_ofEntity (h : Hit.ofEntity e = .ok hit) (hsound : e.Sound) (collection : String) :
    ∃ back, hit.toEntity collection = .ok back := by
  have hregular := regular_ofEntity h hsound
  obtain ⟨id, fs, -, -, rfl⟩ := ofEntity_eq_ok.mp h
  apply exists_toEntity_of_named hregular.named
  have hnamed := hsound.valid.named
  rw [entityName_eq hnamed (Json.Fields.get?_put_self ..)]
  exact hnamed

/-- What stands in an entity is written in its place; the identifier and the reserved field have none. -/
theorem at?_of_ofEntity (h : Hit.ofEntity e = .ok hit) (hsound : e.Sound) (hid : name ≠ idField)
    (hname : name ≠ entityField) (hw : (Value.entity e).at? (.field name :: path) = some w) :
    ∃ p, (Json.object hit.source).at? (.field name :: path) = some p ∧ jsonOf w = .ok p := by
  obtain ⟨id, fs, -, hwrites, rfl⟩ := ofEntity_eq_ok.mp h
  rw [Value.at?, List.foldlM_cons] at hw
  obtain ⟨u, hu, hw⟩ := Option.bind_eq_some_iff.mp hw
  have hother : ⟨name, u⟩ ∈ otherAttributes e :=
    List.mem_filter.mpr ⟨Entity.mem_of_get? hu, decide_eq_true hid⟩
  have hdistinct : ((otherAttributes e).map Attribute.name).Nodup :=
    hsound.valid.distinct.sublist (List.filter_sublist.map Attribute.name)
  obtain ⟨q, hq, hj⟩ := get?_ofList_of_writes hwrites hdistinct hother
  obtain ⟨p, hp, hread⟩ := at?_of_jsonOf hj (hsound.value (List.mem_of_mem_filter hother)) hw
  refine ⟨p, ?_, hread⟩
  have hpart : (Json.object (Json.Fields.put entityField (.string e.name) (Json.Fields.ofList fs))).part?
      (.field name) = some q := by
    rw [Json.part?, Json.Fields.get?_put, if_neg hname, hq]
  rw [Json.at?_cons, hpart, Option.bind_some, hp]

end Writing

end Search

end StoreQuery
