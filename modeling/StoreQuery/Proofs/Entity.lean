import StoreQuery.Entity
/-!
Entities that are made attribute by attribute. Their names are proper, and attributes with new names are
added at the end, in order.
-/
namespace StoreQuery

/-- Entities are made with names for their collection and for each attribute, and no name twice. -/
structure Entity.Valid (e : Entity) : Prop where
  named : e.name ≠ ""
  attributes_named : "" ∉ e.names
  distinct : e.names.Nodup

namespace Entity

theorem Valid.name_ne_empty {e : Entity} {a : Attribute} (h : e.Valid) (ha : a ∈ e.attributes) :
    a.name ≠ "" := fun hempty => h.attributes_named (hempty ▸ List.mem_map_of_mem ha)

theorem new_valid {name : String} {e : Entity} (h : new name = .ok e) : e.Valid := by
  simp only [new] at h
  split at h
  · cases h
  · rename_i hname
    cases h
    exact ⟨hname, List.not_mem_nil, List.nodup_nil⟩

theorem names_insert (a : Attribute) (as : List Attribute) :
    (insert a as).map Attribute.name =
      if a.name ∈ as.map Attribute.name then as.map Attribute.name
      else as.map Attribute.name ++ [a.name] := by
  induction as with
  | nil => rfl
  | cons b bs ih =>
    by_cases hb : b.name = a.name
    · simp [insert, hb]
    · have hne : a.name ≠ b.name := fun h => hb h.symm
      simp only [insert, hb, if_false, List.map_cons, ih, List.mem_cons, hne, false_or]
      split <;> rfl

theorem insert_of_not_mem {a : Attribute} {as : List Attribute}
    (h : a.name ∉ as.map Attribute.name) : insert a as = as ++ [a] := by
  induction as with
  | nil => rfl
  | cons b bs ih =>
    simp only [List.map_cons, List.mem_cons, not_or] at h
    have hne : b.name ≠ a.name := fun hb => h.1 hb.symm
    simp only [insert, hne, if_false, ih h.2, List.cons_append]

theorem add_valid {e : Entity} {a : Attribute} (he : e.Valid) (hname : a.name ≠ "") :
    (e.add a).Valid := by
  have hnames := names_insert a e.attributes
  constructor
  · exact he.named
  · simp only [names, add, hnames]
    split
    · exact he.attributes_named
    · intro hmem
      rcases List.mem_append.mp hmem with hmem | hmem
      · exact he.attributes_named hmem
      · exact hname (List.mem_singleton.mp hmem).symm
  · simp only [names, add, hnames]
    split
    · exact he.distinct
    · rename_i hnew
      apply List.nodup_append.mpr
      refine ⟨he.distinct, List.pairwise_singleton _ _, ?_⟩
      intro m hm n hn hmn
      rw [List.mem_singleton.mp hn] at hmn
      exact hnew (hmn ▸ hm)

theorem set_eq (e : Entity) (name : String) (value : Value) :
    e.set name value =
      if name = "" then .error (.invalidArgument "attribute name must not be empty")
      else .ok (e.add ⟨name, value⟩) := by
  rw [set, Attribute.of]
  split <;> rfl

theorem set_eq_ok {e f : Entity} {name : String} {value : Value} :
    e.set name value = .ok f ↔ name ≠ "" ∧ f = e.add ⟨name, value⟩ := by
  rw [set_eq]
  split
  · simp_all
  · simp_all [eq_comm]

theorem set_valid {e f : Entity} {name : String} {value : Value} (he : e.Valid)
    (h : e.set name value = .ok f) : f.Valid := by
  obtain ⟨hname, rfl⟩ := set_eq_ok.mp h
  exact add_valid he hname

theorem remove_valid {e : Entity} (he : e.Valid) (name : String) : (e.remove name).Valid := by
  have hkept : (e.remove name).names.Sublist e.names := List.eraseP_sublist.map Attribute.name
  exact ⟨he.named, fun hmem => he.attributes_named (hkept.subset hmem), he.distinct.sublist hkept⟩

theorem withKey_valid {e f : Entity} {key identifier : String} (he : e.Valid)
    (h : e.withKey key identifier = .ok f) : f.Valid := by
  simp only [withKey] at h
  split at h
  · cases h
    exact he
  · exact set_valid he h

theorem get?_eq_none_iff {e : Entity} {name : String} : e.get? name = none ↔ name ∉ e.names := by
  simp [get?, find?, names]

theorem mem_of_get? {e : Entity} {name : String} {value : Value} (h : e.get? name = some value) :
    ⟨name, value⟩ ∈ e.attributes := by
  obtain ⟨a, ha, rfl⟩ := Option.map_eq_some_iff.mp h
  have hname : a.name = name := by simpa using List.find?_some ha
  obtain ⟨_, _⟩ := a
  exact hname ▸ List.mem_of_find?_eq_some ha

theorem find?_insert (a : Attribute) (as : List Attribute) (name : String) :
    (insert a as).find? (fun b => b.name = name) =
      if a.name = name then some a else as.find? fun b => b.name = name := by
  induction as with
  | nil =>
    rw [insert, List.find?_cons]
    by_cases hname : a.name = name <;> simp [hname]
  | cons b bs ih =>
    rw [insert]
    by_cases hsame : b.name = a.name
    · rw [if_pos hsame, List.find?_cons, List.find?_cons, hsame]
      by_cases hname : a.name = name <;> simp [hname]
    · rw [if_neg hsame, List.find?_cons, List.find?_cons, ih]
      by_cases hname : b.name = name
      · have hne : a.name ≠ name := fun ha => hsame (hname.trans ha.symm)
        simp [hname, hne]
      · simp [hname]

theorem get?_add (e : Entity) (a : Attribute) (name : String) :
    (e.add a).get? name = if a.name = name then some a.value else e.get? name := by
  rw [get?, find?, add, find?_insert]
  split <;> rfl

theorem get?_set {e f : Entity} {name other : String} {value : Value}
    (h : e.set other value = .ok f) :
    f.get? name = if other = name then some value else e.get? name := by
  obtain ⟨-, rfl⟩ := set_eq_ok.mp h
  exact get?_add e ⟨other, value⟩ name

theorem new_of_named {name : String} (h : name ≠ "") : new name = .ok ⟨name, []⟩ := if_neg h

theorem find?_eq (e : Entity) (name : String) :
    e.find? name = (e.get? name).map (Attribute.mk name) := by
  rw [get?, Option.map_map]
  cases hfound : e.find? name with
  | none => rfl
  | some a =>
    obtain ⟨held, value⟩ := a
    have hname : held = name := by simpa using List.find?_some hfound
    rw [hname]
    rfl

theorem mem_names_add {e : Entity} {a : Attribute} {name : String} :
    name ∈ (e.add a).names ↔ name ∈ e.names ∨ a.name = name := by
  have hnames := names_insert a e.attributes
  simp only [names, add, hnames]
  split
  · constructor
    · exact .inl
    · rintro (h | rfl)
      · exact h
      · assumption
  · rw [List.mem_append, List.mem_singleton, eq_comm (a := name)]

theorem names_remove (e : Entity) (name : String) : (e.remove name).names = e.names.erase name := by
  simp only [names, remove]
  induction e.attributes with
  | nil => rfl
  | cons a as ih =>
    rw [List.eraseP_cons, List.map_cons, List.erase_cons]
    by_cases h : a.name = name
    · simp [h]
    · simp [h, ih]

theorem get?_remove {e : Entity} (he : e.Valid) (name other : String) :
    (e.remove other).get? name = if other = name then none else e.get? name := by
  split
  · rename_i h
    subst h
    rw [get?_eq_none_iff, names_remove]
    exact he.distinct.not_mem_erase
  · rename_i h
    rw [get?, get?, find?, find?, remove]
    congr 1
    induction e.attributes with
    | nil => rfl
    | cons a as ih =>
      rw [List.eraseP_cons, List.find?_cons]
      by_cases hname : a.name = other
      · have hne : a.name ≠ name := fun ha => h (hname.symm.trans ha)
        simp [hname, h]
      · simp [hname, List.find?_cons, ih]

variable {e : Entity} {as : List Attribute}

def setAll (e : Entity) : List Attribute → Except QueryError Entity
  | [] => .ok e
  | a :: as => do
    let e ← e.set a.name a.value
    setAll e as

theorem foldl_add_of_new (h : (e.names ++ as.map Attribute.name).Nodup) :
    as.foldl add e = ⟨e.name, e.attributes ++ as⟩ := by
  induction as generalizing e with
  | nil =>
    obtain ⟨name, attributes⟩ := e
    rw [List.append_nil]
    rfl
  | cons a as ih =>
    have hnew : a.name ∉ e.names := by
      intro hmem
      exact (List.nodup_append.mp h).2.2 a.name hmem a.name List.mem_cons_self rfl
    have hadd : e.add a = ⟨e.name, e.attributes ++ [a]⟩ := by rw [add, insert_of_not_mem hnew]
    rw [List.foldl_cons, hadd, ih (by simpa [names] using h), List.append_assoc, List.singleton_append]

theorem setAll_of_named (h : "" ∉ as.map Attribute.name) : e.setAll as = .ok (as.foldl add e) := by
  induction as generalizing e with
  | nil => rfl
  | cons a as ih =>
    obtain ⟨name, value⟩ := a
    simp only [List.map_cons, List.mem_cons, not_or] at h
    have hname : name ≠ "" := fun hempty => h.1 hempty.symm
    rw [setAll, set_eq_ok.mpr ⟨hname, rfl⟩]
    exact ih h.2

/-- Attributes with new names stand behind those that were there. -/
theorem setAll_of_new (hnamed : "" ∉ as.map Attribute.name)
    (hnew : (e.names ++ as.map Attribute.name).Nodup) :
    e.setAll as = .ok ⟨e.name, e.attributes ++ as⟩ := by
  rw [setAll_of_named hnamed, foldl_add_of_new hnew]

theorem of_eq {name : String} (hname : name ≠ "") (h : (as.map Attribute.name).Nodup) :
    of name as = .ok ⟨name, as⟩ := by
  rw [of, new_of_named hname]
  exact congrArg Except.ok (foldl_add_of_new h)

end Entity

end StoreQuery
