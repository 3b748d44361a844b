import StoreQuery.Proofs.Json.Ordered
import StoreQuery.Proofs.Step
import StoreQuery.Proofs.Text.Base64
import StoreQuery.Proofs.Time.Timestamp
import StoreQuery.Proofs.Value.Sameness
import StoreQuery.Proofs.Verdict
import StoreQuery.Search.Hit
import Mathlib.Data.List.Perm.Basic
/-!
Documents as a form of entities. An entity is written unless its identifier is no text or it holds a
float that is not finite, and it reads back with its attributes in some order, instants and bytes as text;
a document that is read is written as it was.
-/
namespace StoreQuery

def Value.Finite (v : Value) : Prop := ∀ x, (Value.float x).Within v → x.isFinite = true

theorem Value.finite_sequence {items : List Value} :
    (Value.sequence items).Finite ↔ ∀ v ∈ items, v.Finite :=
  floats_within_iff (.sequence items) nofun

theorem Value.finite_entity {e : Entity} :
    (Value.entity e).Finite ↔ ∀ a ∈ e.attributes, a.value.Finite :=
  (floats_within_iff (.entity e) nofun).trans List.forall_mem_map

theorem Value.finite_float {x : Double} : (Value.float x).Finite ↔ x.isFinite = true := by
  constructor
  · intro h
    exact h x .self
  · intro h y hy
    cases (within_of_scalar rfl).mp hy
    exact h

namespace Search

section Writing

variable {v : Value} {vs : List Value} {js : List Json} {as : List Attribute}
  {fs : List (String × Json)}

def Writes (a : Attribute) (f : String × Json) : Prop := f.1 = a.name ∧ jsonOf a.value = .ok f.2

theorem jsonOfItems_eq_ok :
    jsonOfItems vs = .ok js ↔ List.Forall₂ (fun v j => jsonOf v = .ok j) vs js := by
  induction vs generalizing js with
  | nil => cases js <;> simp [jsonOfItems]
  | cons v vs ih =>
    rw [jsonOfItems, List.forall₂_cons_left_iff]
    constructor
    · intro h
      obtain ⟨j, hj, h⟩ := exists_of_bind_ok h
      obtain ⟨rest, hrest, h⟩ := exists_of_bind_ok h
      cases h
      exact ⟨j, rest, hj, ih.mp hrest, rfl⟩
    · rintro ⟨j, rest, hj, hrest, rfl⟩
      rw [hj, ih.mpr hrest]
      rfl

theorem jsonOfAttributes_eq_ok : jsonOfAttributes as = .ok fs ↔ List.Forall₂ Writes as fs := by
  induction as generalizing fs with
  | nil => cases fs <;> simp [jsonOfAttributes]
  | cons a as ih =>
    obtain ⟨name, v⟩ := a
    rw [jsonOfAttributes, List.forall₂_cons_left_iff]
    constructor
    · intro h
      obtain ⟨j, hj, h⟩ := exists_of_bind_ok h
      obtain ⟨rest, hrest, h⟩ := exists_of_bind_ok h
      cases h
      exact ⟨(name, j), rest, ⟨rfl, QueryError.within_eq_ok.mp hj⟩, ih.mp hrest, rfl⟩
    · rintro ⟨⟨_, j⟩, rest, ⟨rfl, hj⟩, hrest, rfl⟩
      rw [QueryError.within_eq_ok.mpr hj, ih.mpr hrest]
      rfl

theorem names_of_writes (h : List.Forall₂ Writes as fs) :
    as.map Attribute.name = fs.map Prod.fst :=
  map_eq_of_related (h.imp fun _ _ hwrites => hwrites.1.symm)

theorem exists_writes_iff {a : Attribute} : (∃ f, Writes a f) ↔ ∃ j, jsonOf a.value = .ok j := by
  constructor
  · rintro ⟨f, _, hj⟩
    exact ⟨f.2, hj⟩
  · rintro ⟨j, hj⟩
    exact ⟨(a.name, j), rfl, hj⟩

/-- Exactly what is finite has a form in a document. -/
theorem exists_jsonOf_iff : (∃ j, jsonOf v = .ok j) ↔ v.Finite := by
  induction v using Value.byParts with
  | whole v ih =>
    cases v with
    | float x =>
      rw [Value.finite_float, jsonOf]
      split
      · simp [*]
      · simp [*]
    | sequence items =>
      calc (∃ j, jsonOf (.sequence items) = .ok j)
          ↔ ∃ js, jsonOfItems items = .ok js := by simp [jsonOf, map_eq_ok]
        _ ↔ ∀ v ∈ items, ∃ j, jsonOf v = .ok j := by
          simp only [jsonOfItems_eq_ok, exists_partners_iff]
        _ ↔ ∀ v ∈ items, v.Finite := forall₂_congr ih
        _ ↔ (Value.sequence items).Finite := Value.finite_sequence.symm
    | entity e =>
      obtain ⟨name, as⟩ := e
      calc (∃ j, jsonOf (.entity ⟨name, as⟩) = .ok j)
          ↔ ∃ fs, jsonOfAttributes as = .ok fs := by simp [jsonOf, map_eq_ok]
        _ ↔ ∀ a ∈ as, ∃ j, jsonOf a.value = .ok j := by
          simp only [jsonOfAttributes_eq_ok, exists_partners_iff, exists_writes_iff]
        _ ↔ ∀ a ∈ as, a.value.Finite :=
          forall₂_congr fun a ha => ih a.value (List.mem_map_of_mem ha)
        _ ↔ (Value.entity ⟨name, as⟩).Finite := (Value.finite_entity (e := ⟨name, as⟩)).symm
    | _ =>
      refine iff_of_true ⟨_, rfl⟩ ?_
      intro x hx
      cases (Value.within_of_scalar rfl).mp hx

end Writing

section Reading

variable {field : String} {js : List Json} {vs : List Value} {fields : List (String × Json)}
  {as : List Attribute}

def textual : Value → Value
  | .temporal t => .text (Rfc3339.write .letter t)
  | .bytes bs => .text (String.ofList (Text.Base64.encode bs))
  | v => v

/-- What stands for the scalars that documents have no form of their own for: a timestamp for an instant,
and for bytes the text that they are decoded of. -/
structure TextForms (form : Value → Value) : Prop where
  temporal : ∀ t, ∃ s, form (.temporal t) = .text s ∧ Rfc3339.Timestamp t s
  bytes : ∀ bs, ∃ s, form (.bytes bs) = .text s ∧ Text.Base64.decode? s.toList = some bs
  others : ∀ v, v.kind ≠ .temporal → v.kind ≠ .bytes → form v = v

theorem textForms_textual : TextForms textual where
  temporal t := ⟨_, rfl, Rfc3339.timestamp_write t⟩
  bytes bs := by
    refine ⟨_, rfl, ?_⟩
    rw [String.toList_ofList]
    exact Text.Base64.decode?_encode bs
  others v htemporal hbytes := by
    cases v with
    | temporal t => exact (htemporal rfl).elim
    | bytes bs => exact (hbytes rfl).elim
    | _ => rfl

def Reads (f : String × Json) (a : Attribute) : Prop :=
  f.1 = a.name ∧ valueOf f.1 f.2 = .ok (some a.value)

theorem valuesOf_of_related
    (h : List.Forall₂ (fun j v => valueOf field j = .ok (some v)) js vs) :
    valuesOf field js = .ok vs := by
  induction h with
  | nil => rfl
  | cons hj _ ih =>
    rw [valuesOf, hj, ih]
    rfl

theorem addFields_of_related (h : List.Forall₂ Reads fields as) (e : Entity) :
    addFields e fields = e.setAll as := by
  induction h generalizing e with
  | nil => rfl
  | @cons f a fields as hfa _ ih =>
    obtain ⟨name, j⟩ := f
    obtain ⟨rfl, hread⟩ := hfa
    rw [addFields, QueryError.within_eq_ok.mpr hread, Entity.setAll]
    exact congrArg (_ >>= ·) (funext ih)

variable {v : Value} {j : Json} {e : Entity} {fs : List (String × Json)}

/-- Attributes that are written and read back, whatever the order of the fields. -/
theorem exists_addFields (hwritten : List.Forall₂ Writes as fs) (hperm : fields.Perm fs)
    (hback : ∀ a ∈ as, ∀ f, Writes a f →
      ∃ b, Reads f b ∧ b.SameBy Eq (a.rebuilt textual))
    (hnamed : "" ∉ as.map Attribute.name) (hnew : (e.names ++ as.map Attribute.name).Nodup) :
    ∃ bs, addFields e fields = .ok ⟨e.name, e.attributes ++ bs⟩ ∧
      Reordered Eq bs (as.map (Attribute.rebuilt textual)) := by
  obtain ⟨cs, hcs, hcsperm⟩ := List.perm_comp_forall₂ hperm (related_back hwritten hback)
  obtain ⟨bs, hreads, hsame⟩ := exists_between hcs
  have hreordered : Reordered Eq bs (as.map (Attribute.rebuilt textual)) :=
    ⟨cs.map (Attribute.rebuilt textual), hcsperm.map _, List.forall₂_map_right_iff.mpr hsame⟩
  have hnames := hreordered.names_perm
  rw [List.map_map] at hnames
  refine ⟨bs, ?_, hreordered⟩
  rw [addFields_of_related hreads]
  apply Entity.setAll_of_new
  · exact fun hmem => hnamed (hnames.mem_iff.mp hmem)
  · exact (hnames.append_left e.names).nodup_iff.mpr hnew

theorem integerValue_toInt (n : Int64) : integerValue n.toInt = .integer n := by
  rw [integerValue, if_pos ⟨n.le_toInt, n.toInt_lt⟩, Int64.ofInt_toInt]

theorem exists_reads {a : Attribute} {f : String × Json} (h : Writes a f)
    (hback : ∃ w, valueOf a.name f.2 = .ok (some w) ∧ w.SameBy Eq (a.value.rebuilt textual a.name)) :
    ∃ b, Reads f b ∧ b.SameBy Eq (a.rebuilt textual) := by
  obtain ⟨name, j⟩ := f
  obtain ⟨rfl, _⟩ := h
  obtain ⟨w, hread, hsame⟩ := hback
  exact ⟨⟨a.name, w⟩, ⟨rfl, hread⟩, rfl, hsame⟩

theorem exists_valueOf (hsound : v.Sound) (hj : jsonOf v = .ok j) (hfield : field ≠ "") :
    ∃ w, valueOf field j = .ok (some w) ∧ w.SameBy Eq (v.rebuilt textual field) := by
  induction v using Value.byParts generalizing j field with
  | whole v ih =>
    cases v with
    | integer n =>
      cases hj
      refine ⟨.integer n, ?_, rfl⟩
      rw [valueOf, integerValue_toInt]
    | float x =>
      simp only [jsonOf] at hj
      split at hj
      · cases hj
        exact ⟨.float x, rfl, rfl⟩
      · cases hj
    | sequence items =>
      obtain ⟨js, hjs, rfl⟩ := map_eq_ok.mp hj
      have hback : ∀ v ∈ items, ∀ j, jsonOf v = .ok j →
          ∃ w, valueOf field j = .ok (some w) ∧ w.SameBy Eq (v.rebuilt textual field) :=
        fun v hv j hj => ih v hv (hsound.part hv) hj hfield
      obtain ⟨ws, hread, hsame⟩ :=
        exists_between (related_back (jsonOfItems_eq_ok.mp hjs) hback)
      refine ⟨.sequence ws, ?_, ?_⟩
      · rw [valueOf, valuesOf_of_related hread]
        rfl
      · rw [Value.rebuilt_sequence, Value.sameBy_sequence]
        exact List.forall₂_map_right_iff.mpr hsame
    | entity e =>
      have hvalid : e.Valid := hsound e .self
      obtain ⟨name, as⟩ := e
      obtain ⟨fs, hfs, rfl⟩ := map_eq_ok.mp hj
      have hwritten := jsonOfAttributes_eq_ok.mp hfs
      have hback : ∀ a ∈ as, ∀ f, Writes a f →
          ∃ b, Reads f b ∧ b.SameBy Eq (a.rebuilt textual) := by
        intro a ha f hf
        have hpart : a.value ∈ (Value.entity ⟨name, as⟩).parts := List.mem_map_of_mem ha
        exact exists_reads hf
          (ih a.value hpart (hsound.part hpart) hf.2 (hvalid.name_ne_empty ha))
      have hnodup : (fs.map Prod.fst).Nodup := names_of_writes hwritten ▸ hvalid.distinct
      have hperm := Json.Fields.ofList_perm hnodup
      obtain ⟨bs, hbs, hreordered⟩ := exists_addFields (e := ⟨field, []⟩) hwritten hperm hback
        hvalid.attributes_named hvalid.distinct
      refine ⟨.entity ⟨field, bs⟩, ?_, ?_⟩
      · rw [Json.ofFields, valueOf, Entity.new_of_named hfield]
        change (addFields _ _ >>= _) = _
        rw [hbs]
        rfl
      · rw [Value.rebuilt_entity, Value.sameBy_entity]
        exact hreordered.sameBy (hvalid.rebuilt textual hfield).distinct
    | _ =>
      cases hj
      exact ⟨_, rfl, rfl⟩

end Reading

section Documents

/-- Values of a document that nothing is lost of when they are read: fields have names, nothing is null,
integers have 64 bits and floats are finite. -/
structure Plain (j : Json) : Prop where
  named : ∀ fs, (Json.object fs).Within j → "" ∉ fs.map Prod.fst
  not_null : ¬ Json.null.Within j
  integers : ∀ n, (Json.integer n).Within j → -2 ^ 63 ≤ n ∧ n < 2 ^ 63
  floats : ∀ x, (Json.float x).Within j → x.isFinite = true

variable {j p : Json} {field : String} {fields : List (String × Json)}

theorem Plain.part (h : Plain j) (hp : p ∈ j.parts) : Plain p where
  named fs hfs := h.named fs (.part hp hfs)
  not_null hnull := h.not_null (.part hp hnull)
  integers n hn := h.integers n (.part hp hn)
  floats x hx := h.floats x (.part hp hx)

theorem exists_attributes (hnamed : "" ∉ fields.map Prod.fst)
    (h : ∀ f ∈ fields, f.1 ≠ "" → ∃ v, valueOf f.1 f.2 = .ok (some v) ∧ jsonOf v = .ok f.2) :
    ∃ as, List.Forall₂ Reads fields as ∧ List.Forall₂ Writes as fields := by
  have hpartner : ∀ f ∈ fields, ∃ a, Reads f a ∧ Writes a f := by
    intro f hf
    have hname : f.1 ≠ "" := fun hempty => hnamed (hempty ▸ List.mem_map_of_mem hf)
    obtain ⟨v, hread, hwritten⟩ := h f hf hname
    exact ⟨⟨f.1, v⟩, ⟨rfl, hread⟩, rfl, hwritten⟩
  obtain ⟨as, has⟩ := exists_partners hpartner
  exact ⟨as, has.imp fun _ _ hfa => hfa.1, (has.imp fun _ _ hfa => hfa.2).flip⟩

theorem exists_read (hplain : Plain j) (hordered : j.Ordered) (hfield : field ≠ "") :
    ∃ v, valueOf field j = .ok (some v) ∧ jsonOf v = .ok j := by
  induction j using Json.byParts generalizing field with
  | whole j ih =>
    cases j with
    | null => exact (hplain.not_null .self).elim
    | boolean b => exact ⟨.boolean b, rfl, rfl⟩
    | string s => exact ⟨.text s, rfl, rfl⟩
    | integer n =>
      obtain ⟨hlow, hhigh⟩ := hplain.integers n .self
      refine ⟨.integer (Int64.ofInt n), ?_, ?_⟩
      · rw [valueOf, integerValue, if_pos ⟨hlow, hhigh⟩]
      · rw [jsonOf, Int64.toInt_ofInt_of_le hlow hhigh]
    | float x =>
      refine ⟨.float x, rfl, ?_⟩
      rw [jsonOf, if_pos (hplain.floats x .self)]
    | array items =>
      have hpartner : ∀ p ∈ items, ∃ v, valueOf field p = .ok (some v) ∧ jsonOf v = .ok p :=
        fun p hp => ih p hp (hplain.part hp) (hordered.part hp) hfield
      obtain ⟨vs, hvs⟩ := exists_partners hpartner
      have hwritten := jsonOfItems_eq_ok.mpr (hvs.imp fun _ _ hp => hp.2).flip
      refine ⟨.sequence vs, ?_, ?_⟩
      · rw [valueOf, valuesOf_of_related (hvs.imp fun _ _ hp => hp.1)]
        rfl
      · rw [jsonOf, hwritten]
        rfl
    | object fields =>
      have hnamed := hplain.named fields .self
      obtain ⟨as, hreads, hwrites⟩ := exists_attributes hnamed fun f hf hname =>
        have hpart : f.2 ∈ (Json.object fields).parts := List.mem_map_of_mem hf
        ih f.2 hpart (hplain.part hpart) (hordered.part hpart) hname
      have hincreasing := hordered fields .self
      have hnames := names_of_writes hwrites
      have hset := Entity.setAll_of_new (e := ⟨field, []⟩) (hnames ▸ hnamed)
        (hnames ▸ hincreasing.nodup)
      refine ⟨.entity ⟨field, as⟩, ?_, ?_⟩
      · rw [valueOf, Entity.new_of_named hfield]
        change (addFields _ _ >>= _) = _
        rw [addFields_of_related hreads, hset]
        rfl
      · rw [jsonOf, jsonOfAttributes_eq_ok.mpr hwrites]
        exact congrArg (fun fs => Except.ok (Json.object fs))
          (Json.Fields.ofList_of_increasing hincreasing)

end Documents

section Hits

variable {e : Entity} {hit : Hit} {id name collection : String}

def idAttributes (id : String) : List Attribute := if id = "" then [] else [⟨idField, .text id⟩]

theorem rebuilt_idAttributes (id : String) :
    (idAttributes id).map (Attribute.rebuilt textual) = idAttributes id := by
  rw [idAttributes]
  split <;> rfl

theorem idAttributes_same (id : String) :
    List.Forall₂ (Attribute.SameBy Eq) (idAttributes id) (idAttributes id) := by
  rw [idAttributes]
  split
  · exact .nil
  · exact .cons ⟨rfl, rfl⟩ .nil

def otherAttributes (e : Entity) : List Attribute := e.attributes.filter fun a => a.name ≠ idField

theorem exists_idOf_iff :
    (∃ id, Hit.idOf e = .ok id) ↔ ∀ v, e.get? idField = some v → ∃ s, v = .text s := by
  rw [Hit.idOf]
  cases e.get? idField with
  | none => simp
  | some v => cases v <;> simp

theorem idAttributes_perm (hvalid : e.Valid) (hid : Hit.idOf e = .ok id)
    (hne : e.get? idField ≠ some (.text "")) :
    (idAttributes id ++ otherAttributes e).Perm e.attributes := by
  rw [Hit.idOf] at hid
  cases hget : e.get? idField with
  | none =>
    rw [hget] at hid
    cases hid
    have hothers : otherAttributes e = e.attributes :=
      filter_eq_self_of_new (Entity.get?_eq_none_iff.mp hget)
    rw [hothers, idAttributes, if_pos rfl, List.nil_append]
  | some v =>
    rw [hget] at hid
    cases v with
    | text s =>
      cases hid
      have hs : id ≠ "" := fun hempty => hne (hempty ▸ hget)
      rw [idAttributes, if_neg hs]
      exact cons_filter_perm hvalid.distinct (Entity.mem_of_get? hget)
    | _ => cases hid

theorem ofEntity_eq_ok :
    Hit.ofEntity e = .ok hit ↔ ∃ id fs, Hit.idOf e = .ok id ∧
      List.Forall₂ Writes (otherAttributes e) fs ∧
      (⟨id, Json.Fields.put entityField (.string e.name) (Json.Fields.ofList fs)⟩ : Hit) = hit := by
  constructor
  · intro h
    obtain ⟨id, hid, h⟩ := exists_of_bind_ok h
    obtain ⟨fs, hfs, h⟩ := exists_of_bind_ok h
    cases h
    exact ⟨id, fs, hid, jsonOfAttributes_eq_ok.mp hfs, rfl⟩
  · rintro ⟨id, fs, hid, hfs, rfl⟩
    have hfs : jsonOfAttributes (e.attributes.filter fun a => a.name ≠ idField) = .ok fs :=
      jsonOfAttributes_eq_ok.mpr hfs
    rw [Hit.ofEntity, hid, hfs]
    rfl

/-- What can be written: entities with a text for identifier, if any, and no float that is not finite. -/
theorem exists_ofEntity_iff :
    (∃ hit, Hit.ofEntity e = .ok hit) ↔
      (∀ v, e.get? idField = some v → ∃ s, v = .text s) ∧
        ∀ a ∈ e.attributes, a.name ≠ idField → a.value.Finite := by
  have hfinite : (∃ fs, List.Forall₂ Writes (otherAttributes e) fs) ↔
      ∀ a ∈ e.attributes, a.name ≠ idField → a.value.Finite := by
    simp only [exists_partners_iff, exists_writes_iff, exists_jsonOf_iff, otherAttributes,
      List.mem_filter, and_imp, decide_eq_true_eq]
  rw [← exists_idOf_iff, ← hfinite]
  simp [ofEntity_eq_ok]

theorem toEntity_eq (hname : Hit.entityName collection hit.source = name) (hne : name ≠ "") :
    hit.toEntity collection =
      addFields ⟨name, idAttributes hit.id⟩ (hit.source.erase entityField) := by
  by_cases hid : hit.id = ""
  · simp only [Hit.toEntity, hname, Entity.new_of_named hne, idAttributes, hid, if_true]
    rfl
  · simp only [Hit.toEntity, hname, Entity.new_of_named hne, idAttributes, hid, if_false]
    rfl

theorem entityName_eq {source : Json.Fields} (hn : name ≠ "")
    (h : source.get? entityField = some (.string name)) :
    Hit.entityName collection source = name := by
  simp only [Hit.entityName, h, if_neg hn]

/-- What is written reads back under the name that it had, whatever the collection is. -/
theorem exists_toEntity (hsound : e.Sound) (hreserved : entityField ∉ e.names)
    (hid : e.get? idField ≠ some (.text "")) (h : Hit.ofEntity e = .ok hit) (collection : String) :
    ∃ back, hit.toEntity collection = .ok back ∧ back.SameBy Eq (e.rebuilt textual e.name) := by
  have hvalid := hsound.valid
  obtain ⟨id, fs, hidOf, hwrites, rfl⟩ := ofEntity_eq_ok.mp h
  have hperm := idAttributes_perm hvalid hidOf hid
  have hdistinct : ((idAttributes id).map Attribute.name ++
      (otherAttributes e).map Attribute.name).Nodup := by
    rw [← List.map_append]
    exact (hperm.map Attribute.name).nodup_iff.mpr hvalid.distinct
  have hothers : ((otherAttributes e).map Attribute.name).Sublist e.names :=
    List.filter_sublist.map Attribute.name
  have hnames := names_of_writes hwrites
  have hofList : (Json.Fields.ofList fs).Perm fs :=
    Json.Fields.ofList_perm (hnames ▸ hvalid.distinct.sublist hothers)
  have hnew : entityField ∉ (Json.Fields.ofList fs).map Prod.fst := by
    intro hmem
    have hmem := (hofList.map Prod.fst).mem_iff.mp hmem
    exact hreserved (hothers.subset (hnames ▸ hmem))
  have hback : ∀ a ∈ otherAttributes e, ∀ f, Writes a f →
      ∃ b, Reads f b ∧ b.SameBy Eq (a.rebuilt textual) := by
    intro a ha f hf
    have ha := (List.mem_filter.mp ha).1
    exact exists_reads hf (exists_valueOf (hsound.value ha) hf.2 (hvalid.name_ne_empty ha))
  obtain ⟨bs, hbs, cs, hcs, hsame⟩ := exists_addFields (e := ⟨e.name, idAttributes id⟩) hwrites
    ((Json.Fields.erase_put_perm hnew).trans hofList) hback
    (fun hmem => hvalid.attributes_named (hothers.subset hmem)) hdistinct
  have hreordered : Reordered Eq (idAttributes id ++ bs)
      (e.attributes.map (Attribute.rebuilt textual)) := by
    refine ⟨idAttributes id ++ cs, ?_, List.rel_append (idAttributes_same id) hsame⟩
    have hrebuilt := hperm.map (Attribute.rebuilt textual)
    rw [List.map_append, rebuilt_idAttributes] at hrebuilt
    exact (hcs.append_left _).trans hrebuilt
  refine ⟨⟨e.name, idAttributes id ++ bs⟩, ?_, ?_⟩
  · rw [toEntity_eq (entityName_eq hvalid.named (Json.Fields.get?_put_self ..)) hvalid.named]
    exact hbs
  · exact hreordered.sameBy (hvalid.rebuilt textual hvalid.named).distinct

/-- What is read is written as the document that it was. -/
theorem exists_ofEntity (hid : hit.id ≠ "") (hplain : Plain (.object hit.source))
    (hordered : (Json.object hit.source).Ordered) (hn : name ≠ "")
    (hname : hit.source.get? entityField = some (.string name))
    (hreserved : idField ∉ hit.source.map Prod.fst) (collection : String) :
    ∃ e, hit.toEntity collection = .ok e ∧ Hit.ofEntity e = .ok hit := by
  have hincreasing := hordered hit.source .self
  have herased : (hit.source.erase entityField).Sublist hit.source := List.filter_sublist
  have hnames := herased.map Prod.fst
  have hnamed : "" ∉ (hit.source.erase entityField).map Prod.fst :=
    fun hmem => hplain.named hit.source .self (hnames.subset hmem)
  obtain ⟨as, hreads, hwrites⟩ := exists_attributes hnamed fun f hf hne =>
    have hpart : f.2 ∈ (Json.object hit.source).parts := List.mem_map_of_mem (herased.subset hf)
    exists_read (hplain.part hpart) (hordered.part hpart) hne
  have hwritten := names_of_writes hwrites
  have hnew : idField ∉ as.map Attribute.name :=
    hwritten ▸ fun hmem => hreserved (hnames.subset hmem)
  have hdistinct : (as.map Attribute.name).Nodup := hwritten ▸ hincreasing.nodup.sublist hnames
  have hset := Entity.setAll_of_new (e := ⟨name, [⟨idField, .text hit.id⟩]⟩) (hwritten ▸ hnamed)
    (List.nodup_cons.mpr ⟨hnew, hdistinct⟩)
  refine ⟨⟨name, ⟨idField, .text hit.id⟩ :: as⟩, ?_, ?_⟩
  · rw [toEntity_eq (entityName_eq hn hname) hn, addFields_of_related hreads, idAttributes, if_neg hid]
    exact hset
  · have hothers : otherAttributes ⟨name, ⟨idField, .text hit.id⟩ :: as⟩ = as := by
      rw [otherAttributes, List.filter_cons_of_neg (by simp), filter_eq_self_of_new hnew]
    rw [ofEntity_eq_ok, hothers]
    refine ⟨hit.id, hit.source.erase entityField, rfl, hwrites, ?_⟩
    rw [Json.Fields.ofList_of_increasing (hincreasing.sublist herased), hincreasing.put_erase hname]

end Hits

/-- An entity without an attribute of the reserved name is written exactly when its identifier is a text,
if it has one, and its other floats are finite; it reads back under its own name with the same attributes,
instants and bytes as text. A document with an identifier and the name of an entity is written as it was
read. -/
theorem documents_round_trip : ∃ form, TextForms form ∧
    (∀ e : Entity, e.Sound → entityField ∉ e.names → e.get? idField ≠ some (.text "") →
      ((∃ hit, Hit.ofEntity e = .ok hit) ↔
        (∀ v, e.get? idField = some v → ∃ s, v = .text s) ∧
          ∀ a ∈ e.attributes, a.name ≠ idField → a.value.Finite) ∧
      ∀ hit, Hit.ofEntity e = .ok hit → ∀ collection,
        ∃ back, hit.toEntity collection = .ok back ∧ back.SameBy Eq (e.rebuilt form e.name)) ∧
    ∀ (hit : Hit) (name : String), hit.id ≠ "" → (Json.object hit.source).Ordered →
      Plain (.object hit.source) → name ≠ "" →
      hit.source.get? entityField = some (.string name) → idField ∉ hit.source.map Prod.fst →
      ∀ collection, ∃ e, hit.toEntity collection = .ok e ∧ Hit.ofEntity e = .ok hit := by
  refine ⟨textual, textForms_textual, ?_, ?_⟩
  · intro e hsound hreserved hid
    exact ⟨exists_ofEntity_iff, fun hit hhit => exists_toEntity hsound hreserved hid hhit⟩
  · intro hit name hid hordered hplain hn hname hreserved
    exact exists_ofEntity hid hplain hordered hn hname hreserved

/-- A person whose address uses the reserved names, and a document with an object in an array. -/
theorem documents_round_trip_of_person :
    let half : Double := ⟨0x3FE0000000000000⟩
    let address : Entity := ⟨"home", [⟨"_id", .bytes [104, 105]⟩, ⟨"@entity", .float half⟩]⟩
    let e : Entity := ⟨"person", [⟨"_id", .text "p1"⟩, ⟨"address", .entity address⟩]⟩
    let hit : Hit := ⟨"p1", [("@entity", .string "person"),
      ("tags", .array [.object [("_id", .integer 7)], .float half])]⟩
    e.Sound ∧ entityField ∉ e.names ∧ e.get? idField ≠ some (.text "") ∧
      (∃ form hit, TextForms form ∧ Hit.ofEntity e = .ok hit ∧ ∀ collection, ∃ back,
        hit.toEntity collection = .ok back ∧ back.SameBy Eq (e.rebuilt form "person")) ∧
      hit.id ≠ "" ∧ (Json.object hit.source).Ordered ∧ Plain (.object hit.source) ∧
      hit.source.get? entityField = some (.string "person") ∧ idField ∉ hit.source.map Prod.fst ∧
      ∀ collection, ∃ e, hit.toEntity collection = .ok e ∧ Hit.ofEntity e = .ok hit := by
  intro half address e hit
  have hid (v : Value) : v.Within (.text "p1") ↔ v = .text "p1" := Value.within_of_scalar rfl
  have hbytes (v : Value) : v.Within (.bytes [104, 105]) ↔ v = .bytes [104, 105] :=
    Value.within_of_scalar rfl
  have hhalf (v : Value) : v.Within (.float half) ↔ v = .float half := Value.within_of_scalar rfl
  have hsound : e.Sound := by
    intro f hf
    have hf : f = e ∨ f = address := by simpa [e, address, hid, hbytes, hhalf] using hf
    rcases hf with rfl | rfl
    · exact ⟨by decide, by decide, by decide⟩
    · exact ⟨by decide, by decide, by decide⟩
  have hget : e.get? idField ≠ some (.text "") := by
    intro h
    have hp1 : "p1" = "" := Value.text.inj (Option.some.inj h)
    exact absurd hp1 (by decide)
  have hfinite : (Value.entity e).Finite := by
    intro x hx
    have hx : x = half := by simpa [e, address, hid, hbytes, hhalf] using hx
    rw [hx]
    decide
  have hwritable : (∀ v, e.get? idField = some v → ∃ s, v = .text s) ∧
      ∀ a ∈ e.attributes, a.name ≠ idField → a.value.Finite := by
    refine ⟨?_, ?_⟩
    · intro v hv
      cases hv
      exact ⟨"p1", rfl⟩
    · intro a ha _
      exact Value.finite_entity.mp hfinite a ha
  have hperson (j : Json) : j.Within (.string "person") ↔ j = .string "person" :=
    Json.within_of_scalar rfl
  have hseven (j : Json) : j.Within (.integer 7) ↔ j = .integer 7 := Json.within_of_scalar rfl
  have hfloat (j : Json) : j.Within (.float half) ↔ j = .float half := Json.within_of_scalar rfl
  have hobjects : ∀ fs, (Json.object fs).Within (.object hit.source) →
      fs = hit.source ∨ fs = [("_id", .integer 7)] := by
    intro fs h
    simpa [hit, hperson, hseven, hfloat] using h
  have hordered : (Json.object hit.source).Ordered := by
    intro fs h
    rcases hobjects fs h with rfl | rfl <;> decide
  have hplain : Plain (.object hit.source) := by
    constructor
    · intro fs h
      rcases hobjects fs h with rfl | rfl <;> decide
    · simp [hit, hperson, hseven, hfloat]
    · intro n h
      have hn : n = 7 := by simpa [hit, hperson, hseven, hfloat] using h
      rw [hn]
      decide
    · intro x h
      have hx : x = half := by simpa [hit, hperson, hseven, hfloat] using h
      rw [hx]
      decide
  obtain ⟨form, hforms, hentities, hhits⟩ := documents_round_trip
  have hwritten := hentities e hsound (by decide) hget
  obtain ⟨written, hofEntity⟩ := hwritten.1.mpr hwritable
  refine ⟨hsound, by decide, hget, ⟨form, written, hforms, hofEntity, hwritten.2 written hofEntity⟩,
    by decide, hordered, hplain, rfl, by decide, ?_⟩
  exact hhits hit "person" (by decide) hordered hplain (by decide) rfl (by decide)

end Search

end StoreQuery
