import Mathlib.Data.List.TakeWhile
import StoreQuery.Proofs.Lists
import StoreQuery.Settings.Path
/-!
Settings in layers. What a later layer says of a place holds; where it is silent, the earlier ones hold.
Tables go into each other field by field, and anything else stands or falls as a whole.
-/
namespace StoreQuery

namespace Setting

variable {name other : String} {f : Option Setting → Setting} {g : String × Setting}
  {fields upper below : List (String × Setting)} {s v : Setting} {under : Option Setting}
  {steps : List PathStep}

def isTable : Setting → Bool
  | .table _ => true
  | _ => false

/-- Tables name each of their fields once. -/
inductive Tidy : Setting → Prop where
  | intro {s : Setting} : (s.fields.map Prod.fst).Nodup → (∀ f ∈ s.fields, Tidy f.2) → Tidy s

section Tables

theorem lookup_alter (name other : String) (f : Option Setting → Setting)
    (fields : List (String × Setting)) :
    (alter name f fields).lookup other =
      if other = name then some (f (fields.lookup name)) else fields.lookup other := by
  induction fields with
  | nil => exact lookup_cons name other (f none) []
  | cons g rest ih =>
    obtain ⟨n, s⟩ := g
    rw [alter]
    split
    · rename_i hn
      subst hn
      simp only [lookup_cons, if_pos]
      split <;> rfl
    · rename_i hn
      rw [lookup_cons, lookup_cons, lookup_cons, if_neg (Ne.symm hn), ih]
      by_cases h : other = n
      · rw [if_pos h, if_pos h, if_neg (h ▸ hn)]
      · rw [if_neg h, if_neg h]

theorem alter_of_new (h : name ∉ fields.map Prod.fst) :
    alter name f fields = fields ++ [(name, f none)] := by
  induction fields with
  | nil => rfl
  | cons g rest ih =>
    rw [List.map_cons, List.mem_cons, not_or] at h
    rw [alter, if_neg (Ne.symm h.1), ih h.2, List.cons_append]

theorem names_alter (name : String) (f : Option Setting → Setting) (fields : List (String × Setting)) :
    (alter name f fields).map Prod.fst =
      if name ∈ fields.map Prod.fst then fields.map Prod.fst else fields.map Prod.fst ++ [name] := by
  induction fields with
  | nil => rfl
  | cons g rest ih =>
    by_cases hg : g.1 = name
    · simp [alter, hg]
    · have hname : name ≠ g.1 := Ne.symm hg
      simp only [alter, hg, if_false, List.map_cons, ih, List.mem_cons, hname, false_or]
      split <;> rfl

theorem mem_alter (h : g ∈ alter name f fields) :
    g ∈ fields ∨ ∃ under, (∀ s ∈ under, (name, s) ∈ fields) ∧ g = (name, f under) := by
  induction fields with
  | nil => exact .inr ⟨none, nofun, List.mem_singleton.mp h⟩
  | cons e rest ih =>
    obtain ⟨n, s⟩ := e
    rw [alter] at h
    split at h
    · rename_i hn
      subst hn
      rcases List.mem_cons.mp h with rfl | h
      · refine .inr ⟨some s, ?_, rfl⟩
        rintro _ ⟨⟩
        exact List.mem_cons_self
      · exact .inl (List.mem_cons_of_mem _ h)
    · rcases List.mem_cons.mp h with rfl | h
      · exact .inl List.mem_cons_self
      · obtain h | ⟨under, hunder, rfl⟩ := ih h
        · exact .inl (List.mem_cons_of_mem _ h)
        · exact .inr ⟨under, fun s hs => List.mem_cons_of_mem _ (hunder s hs), rfl⟩

theorem Tidy.nodup (h : s.Tidy) : (s.fields.map Prod.fst).Nodup := by
  obtain ⟨hnodup, -⟩ := h
  exact hnodup

theorem Tidy.value (h : s.Tidy) : ∀ f ∈ s.fields, f.2.Tidy := by
  obtain ⟨-, hvalues⟩ := h
  exact hvalues

theorem Tidy.ofFields (h : s.Tidy) : (table s.fields).Tidy :=
  .intro h.nodup h.value

theorem tidy_of_not_table (h : s.isTable = false) : s.Tidy := by
  have hfields : s.fields = [] := by
    cases s with
    | table => cases h
    | _ => rfl
  constructor
  · rw [hfields]
    exact .nil
  · rw [hfields]
    exact List.forall_mem_nil _

theorem Tidy.alter (h : (table fields).Tidy)
    (hf : ∀ under : Option Setting, (∀ s ∈ under, s.Tidy) → (f under).Tidy) :
    (table (alter name f fields)).Tidy := by
  cases h with
  | intro hnodup hvalues =>
    constructor
    · change ((Setting.alter name f fields).map Prod.fst).Nodup
      rw [names_alter]
      split
      · exact hnodup
      · rename_i hnew
        rw [List.nodup_append]
        refine ⟨hnodup, List.pairwise_singleton _ _, ?_⟩
        rintro n hn m hm rfl
        exact hnew (List.mem_singleton.mp hm ▸ hn)
    · intro g hg
      obtain hg | ⟨under, hunder, rfl⟩ := mem_alter hg
      · exact hvalues g hg
      · exact hf under fun s hs => hvalues _ (hunder s hs)

end Tables

section LaidOver

theorem laidOver_of_not_table (h : s.isTable = false) (under : Option Setting) :
    s.laidOver under = s := by
  cases s with
  | table => cases h
  | _ =>
    rw [laidOver]
    all_goals exact nofun

theorem lookup_laidOverFields (h : (upper.map Prod.fst).Nodup) (below : List (String × Setting))
    (name : String) :
    (laidOverFields upper below).lookup name =
      match upper.lookup name with
      | some s => some (s.laidOver (below.lookup name))
      | none => below.lookup name := by
  induction upper generalizing below with
  | nil => rw [laidOverFields]; rfl
  | cons g rest ih =>
    obtain ⟨n, s⟩ := g
    obtain ⟨hn, hrest⟩ := List.nodup_cons.mp h
    rw [laidOverFields, ih hrest, lookup_alter]
    by_cases hname : name = n
    · subst hname
      rw [lookup_of_new hn, lookup_cons, if_pos rfl, if_pos rfl]
    · rw [lookup_cons, if_neg hname, if_neg hname]

/-- A tidy setting laid over nothing stays as it is. -/
theorem laidOverFields_of_new (h : ((below ++ upper).map Prod.fst).Nodup)
    (hvalues : ∀ f ∈ upper, f.2.laidOver none = f.2) :
    laidOverFields upper below = below ++ upper := by
  induction upper generalizing below with
  | nil => rw [laidOverFields, List.append_nil]
  | cons g rest ih =>
    obtain ⟨n, s⟩ := g
    obtain ⟨hs, hrest⟩ := List.forall_mem_cons.mp hvalues
    have hnew : n ∉ below.map Prod.fst := by
      intro hmem
      rw [List.map_append] at h
      exact (List.nodup_append.mp h).2.2 n hmem n List.mem_cons_self rfl
    rw [laidOverFields, alter_of_new hnew, hs, ih (by simpa using h) hrest, List.append_assoc]
    rfl

theorem Tidy.laidOver_none (h : s.Tidy) : s.laidOver none = s := by
  induction h with
  | @intro s hnodup _ ih =>
    cases s with
    | table fields =>
      cases fields with
      | nil => rw [laidOver]; rfl
      | cons f fs =>
        rw [laidOver]
        exact congrArg table (laidOverFields_of_new hnodup ih)
    | _ => exact laidOver_of_not_table rfl none

theorem tidy_laidOverFields (h : (table below).Tidy)
    (hupper : ∀ f ∈ upper, ∀ under, (∀ s ∈ under, s.Tidy) → (f.2.laidOver under).Tidy) :
    (table (laidOverFields upper below)).Tidy := by
  induction upper generalizing below with
  | nil => rwa [laidOverFields]
  | cons g rest ih =>
    obtain ⟨hg, hrest⟩ := List.forall_mem_cons.mp hupper
    rw [laidOverFields]
    exact ih (h.alter hg) hrest

theorem Tidy.laidOver (h : s.Tidy) (hunder : ∀ s ∈ under, s.Tidy) : (s.laidOver under).Tidy := by
  induction h generalizing under with
  | @intro s _ _ ih =>
    have hbelow : (under.getD (.table [])).Tidy := by
      cases under with
      | none => exact .intro .nil (List.forall_mem_nil _)
      | some s => exact hunder s rfl
    cases s with
    | table fields =>
      cases fields with
      | nil => rwa [Setting.laidOver]
      | cons f fs =>
        rw [Setting.laidOver]
        exact tidy_laidOverFields hbelow.ofFields fun f hf _ hs => ih f hf hs
    | _ =>
      rw [laidOver_of_not_table rfl]
      exact tidy_of_not_table rfl

end LaidOver

section Reach

def reach (s : Setting) (steps : List PathStep) : Option Setting := steps.foldlM SettingPath.step? s

theorem reach_key (s : Setting) (name : String) (steps : List PathStep) :
    s.reach (.key name :: steps) = (s.field? name).bind fun t => t.reach steps := rfl

theorem reach_index (fields : List (String × Setting)) (i : Int) (steps : List PathStep) :
    (table fields).reach (.index i :: steps) = none := by
  have hitems : SettingPath.step? (table fields) (.index i) = none := by
    rw [SettingPath.step?]
    exact Option.bind_eq_none_iff.mpr fun n _ => rfl
  rw [reach, List.foldlM_cons, hitems]
  rfl

/-- The tables of a layer lead along the names of a path, but not to its end. -/
inductive Silent : List PathStep → Setting → Prop where
  | beside {name : String} {steps : List PathStep} {fields : List (String × Setting)} :
      fields.lookup name = none → Silent (.key name :: steps) (.table fields)
  | within {name : String} {steps : List PathStep} {fields : List (String × Setting)} {s : Setting} :
      fields.lookup name = some s → Silent steps s → Silent (.key name :: steps) (.table fields)

theorem field?_laidOver (h : (table fields).Tidy) (under : Option Setting) (name : String) :
    ((table fields).laidOver under).field? name =
      match fields.lookup name with
      | some s => some (s.laidOver (under.bind fun t => t.field? name))
      | none => under.bind fun t => t.field? name := by
  have hbelow : (under.getD (.table [])).fields.lookup name = under.bind fun t => t.field? name := by
    cases under with
    | none => rfl
    | some t => cases t <;> rfl
  cases fields with
  | nil =>
    rw [laidOver]
    cases under <;> rfl
  | cons f fs =>
    rw [laidOver, ← hbelow]
    exact lookup_laidOverFields h.nodup _ name

/-- A layer that reaches something other than a table decides the place. -/
theorem Tidy.reach_laidOver (h : s.Tidy) (hreach : s.reach steps = some v) (hv : v.isTable = false)
    (under : Option Setting) : (s.laidOver under).reach steps = some v := by
  induction steps generalizing s under with
  | nil =>
    cases hreach
    rw [laidOver_of_not_table hv]
    rfl
  | cons step steps ih =>
    cases s with
    | table fields =>
      cases step with
      | index i =>
        rw [reach_index] at hreach
        cases hreach
      | key name =>
        obtain ⟨t, ht, hreach⟩ := Option.bind_eq_some_iff.mp hreach
        change fields.lookup name = some t at ht
        rw [reach_key, field?_laidOver h, ht]
        exact ih (h.value _ (mem_of_lookup ht)) hreach _
    | _ => rwa [laidOver_of_not_table rfl]

/-- Where a layer is silent, what is under it is found. -/
theorem Tidy.reach_laidOver_of_silent (h : s.Tidy) (hsilent : s.Silent steps) (under : Option Setting) :
    (s.laidOver under).reach steps = under.bind fun t => t.reach steps := by
  induction hsilent generalizing under with
  | beside hnone =>
    rw [reach_key, field?_laidOver h, hnone]
    exact Option.bind_assoc _ _ _
  | within hsome _ ih =>
    rw [reach_key, field?_laidOver h, hsome]
    change (Setting.laidOver _ _).reach _ = _
    rw [ih (h.value _ (mem_of_lookup hsome))]
    exact Option.bind_assoc _ _ _

end Reach

end Setting

namespace SettingPath

variable {p : SettingPath} {steps others : List PathStep} {value : Setting} {under : Option Setting}
  {fields : List (String × Setting)}

def way (p : SettingPath) : List PathStep := .key p.root :: p.steps

theorem find?_eq (p : SettingPath) (fields : List (String × Setting)) :
    p.find? fields = (Setting.table fields).reach p.way := rfl

theorem table_set (p : SettingPath) (value : Setting) (fields : List (String × Setting)) :
    Setting.table (p.set value fields) = lay value p.way (some (.table fields)) := by
  rw [way, lay]
  rfl

inductive Parting : List PathStep → List PathStep → Prop where
  | here {m n : String} {as bs : List PathStep} : m ≠ n → Parting (.key m :: as) (.key n :: bs)
  | further {n : String} {as bs : List PathStep} :
      Parting as bs → Parting (.key n :: as) (.key n :: bs)

theorem name?_eq_some {cs rest : List Char} {name : String} (h : name? cs = some (name, rest)) :
    name.toList ≠ [] ∧ ∀ c ∈ name.toList, isNameChar c = true := by
  rw [name?] at h
  split at h
  · cases h
  · rename_i hne
    cases h
    rw [String.toList_ofList]
    exact ⟨hne, List.all_eq_true.mp List.all_takeWhile⟩

/-- The root of a path is a path of its own. -/
theorem ofText?_root {text : String} (h : ofText? text = some p) :
    ofText? p.root = some ⟨p.root, []⟩ := by
  obtain ⟨⟨root, rest⟩, hname, hsteps⟩ := Option.bind_eq_some_iff.mp h
  obtain ⟨steps, -, hp⟩ := Option.bind_eq_some_iff.mp hsteps
  cases hp
  obtain ⟨hne, hall⟩ := name?_eq_some hname
  have htake : root.toList.takeWhile isNameChar = root.toList :=
    List.takeWhile_eq_self_iff.mpr hall
  have hdrop : root.toList.dropWhile isNameChar = [] :=
    List.dropWhile_eq_nil_iff.mpr hall
  have hread : name? root.toList = some (root, []) := by
    rw [name?, htake, hdrop, String.ofList_toList]
    exact if_neg hne
  rw [ofText?, hread]
  rfl

theorem tidy_lay (hvalue : value.Tidy) (hunder : ∀ s ∈ under, s.Tidy) :
    (lay value steps under).Tidy := by
  induction steps generalizing under with
  | nil => exact hvalue.laidOver hunder
  | cons step steps ih =>
    cases step with
    | key name =>
      have hbelow : (under.getD .null).Tidy := by
        cases under with
        | none => exact Setting.tidy_of_not_table rfl
        | some s => exact hunder s rfl
      exact hbelow.ofFields.alter fun under hunder => ih hunder
    | index i =>
      apply Setting.tidy_of_not_table
      rw [lay]
      split <;> rfl

theorem position?_of_nonneg {i : Int} (h : 0 ≤ i) (length : Nat) : position? i length = some i.toNat :=
  if_pos h

theorem reach_array {i : Int} (h : 0 ≤ i) (items : List Setting) (steps : List PathStep) :
    (Setting.array items).reach (.index i :: steps) =
      items[i.toNat]?.bind fun s => s.reach steps := by
  rw [Setting.reach, List.foldlM_cons, step?, position?_of_nonneg h]
  rfl

theorem getElem?_putItem (n : Nat) (f : Option Setting → Setting) (items : List Setting) :
    (putItem n f items)[n]? = some (f (some (items[n]?.getD .null))) := by
  rw [putItem, List.getElem?_modify_eq]
  rcases Nat.lt_or_ge n items.length with h | h
  · rw [List.getElem?_append_left h, List.getElem?_eq_getElem h]
    rfl
  · have hlt : n - items.length < n + 1 - items.length := by omega
    rw [List.getElem?_append_right h, List.getElem?_replicate_of_lt hlt, List.getElem?_eq_none h]
    rfl

theorem field?_lay (value : Setting) (name other : String) (steps : List PathStep)
    (under : Option Setting) :
    (lay value (.key name :: steps) under).field? other =
      if other = name then some (lay value steps (under.bind fun t => t.field? name))
      else under.bind fun t => t.field? other := by
  have hbelow : ∀ n, (under.getD .null).fields.lookup n = under.bind fun t => t.field? n := by
    intro n
    cases under with
    | none => rfl
    | some t => cases t <;> rfl
  rw [← hbelow name, ← hbelow other]
  exact Setting.lookup_alter name other _ _

theorem reach_lay (hindex : ∀ i, .index i ∈ steps → 0 ≤ i) (hvalue : value.isTable = false)
    (under : Option Setting) : (lay value steps under).reach steps = some value := by
  induction steps generalizing under with
  | nil =>
    rw [lay, Setting.laidOver_of_not_table hvalue]
    rfl
  | cons step steps ih =>
    have hrest : ∀ i, .index i ∈ steps → 0 ≤ i := fun i hi => hindex i (List.mem_cons_of_mem _ hi)
    cases step with
    | key name =>
      rw [Setting.reach_key, field?_lay, if_pos rfl]
      exact ih hrest _
    | index i =>
      have hi : 0 ≤ i := hindex i List.mem_cons_self
      rw [lay, position?_of_nonneg hi]
      dsimp only
      rw [reach_array hi, getElem?_putItem, Option.bind_some]
      cases steps with
      | nil => rfl
      | cons step steps => exact ih hrest _

/-- What is laid at the end of a path is found there, whatever stood in the way. -/
theorem find?_set (hindex : ∀ i, .index i ∈ p.steps → 0 ≤ i) (hvalue : value.isTable = false)
    (fields : List (String × Setting)) : p.find? (p.set value fields) = some value := by
  rw [find?_eq, table_set]
  apply reach_lay _ hvalue
  intro i hi
  exact hindex i ((List.mem_cons.mp hi).resolve_left nofun)

theorem reach_lay_of_parting (h : Parting others steps) (under : Option Setting) :
    (lay value steps under).reach others = under.bind fun t => t.reach others := by
  induction h generalizing under with
  | here hne =>
    rw [Setting.reach_key, field?_lay, if_neg hne]
    exact Option.bind_assoc _ _ _
  | further _ ih =>
    rw [Setting.reach_key, field?_lay, if_pos rfl, Option.bind_some, ih]
    exact Option.bind_assoc _ _ _

/-- What a path leads to does not change by what is laid beside it. -/
theorem find?_set_of_parting {q : SettingPath} (h : Parting q.way p.way)
    (fields : List (String × Setting)) : q.find? (p.set value fields) = q.find? fields := by
  rw [find?_eq, table_set, reach_lay_of_parting h]
  rfl

end SettingPath

end StoreQuery
