import Mathlib.Data.List.Forall2
import Mathlib.Logic.Relation
/-!
Lists that are related item by item, and lists whose items have keys. Where each item has a partner, the
list has a list of partners; where no key stands twice, a key tells the item.
-/
namespace StoreQuery

variable {α β γ : Type} {as : List α} {bs : List β} {cs : List γ}

/-- The items between those of two lists make a list between the two. -/
theorem exists_between {R : α → β → Prop} {S : β → γ → Prop}
    (h : List.Forall₂ (fun a c => ∃ b, R a b ∧ S b c) as cs) :
    ∃ bs, List.Forall₂ R as bs ∧ List.Forall₂ S bs cs := by
  induction h with
  | nil => exact ⟨[], .nil, .nil⟩
  | cons hac _ ih =>
    obtain ⟨b, hab, hbc⟩ := hac
    obtain ⟨bs, has, hcs⟩ := ih
    exact ⟨b :: bs, .cons hab has, .cons hbc hcs⟩

theorem exists_partners {R : α → β → Prop} (h : ∀ a ∈ as, ∃ b, R a b) :
    ∃ bs, List.Forall₂ R as bs := by
  induction as with
  | nil => exact ⟨[], .nil⟩
  | cons a as ih =>
    rw [List.forall_mem_cons] at h
    obtain ⟨b, hab⟩ := h.1
    obtain ⟨bs, has⟩ := ih h.2
    exact ⟨b :: bs, .cons hab has⟩

theorem exists_mem_of_related {R : α → β → Prop} {a : α} (h : List.Forall₂ R as bs) (ha : a ∈ as) :
    ∃ b ∈ bs, R a b := by
  induction h with
  | nil => cases ha
  | @cons first b as bs hab _ ih =>
    rcases List.mem_cons.mp ha with rfl | ha
    · exact ⟨b, List.mem_cons_self, hab⟩
    · obtain ⟨c, hc, hac⟩ := ih ha
      exact ⟨c, List.mem_cons_of_mem b hc, hac⟩

theorem exists_partners_iff {R : α → β → Prop} :
    (∃ bs, List.Forall₂ R as bs) ↔ ∀ a ∈ as, ∃ b, R a b := by
  constructor
  · rintro ⟨bs, h⟩ a ha
    obtain ⟨b, _, hab⟩ := exists_mem_of_related h ha
    exact ⟨b, hab⟩
  · exact exists_partners

/-- Where each item is put somewhere among those before it, all of them are there in the end. -/
theorem perm_foldl_insert {insert : α → List α → List α}
    (h : ∀ a sorted, (insert a sorted).Perm (a :: sorted)) (as sorted : List α) :
    (as.foldl (fun sorted a => insert a sorted) sorted).Perm (as ++ sorted) := by
  induction as generalizing sorted with
  | nil => exact .refl _
  | cons a as ih => exact (ih _).trans (((h a sorted).append_left as).trans List.perm_middle)

/-- Related items stand in the two lists. -/
theorem related_within {R : α → β → Prop} (h : List.Forall₂ R as bs) :
    List.Forall₂ (fun a b => a ∈ as ∧ b ∈ bs ∧ R a b) as bs := by
  induction h with
  | nil => exact .nil
  | @cons a b as bs hab _ ih =>
    refine .cons ⟨List.mem_cons_self, List.mem_cons_self, hab⟩ (ih.imp ?_)
    rintro c d ⟨hc, hd, hcd⟩
    exact ⟨List.mem_cons_of_mem a hc, List.mem_cons_of_mem b hd, hcd⟩

theorem related_through {R : α → β → Prop} {S : β → γ → Prop} (h : List.Forall₂ R as bs)
    (k : List.Forall₂ S bs cs) : List.Forall₂ (fun a c => ∃ b, R a b ∧ S b c) as cs := by
  induction h generalizing cs with
  | nil =>
    cases k
    exact .nil
  | @cons a b as bs hab _ ih =>
    cases k with
    | cons hbc k => exact .cons ⟨b, hab, hbc⟩ (ih k)

/-- The same items related the other way round. -/
theorem related_back {R : α → β → Prop} {S : β → α → Prop} (h : List.Forall₂ R as bs)
    (hback : ∀ a ∈ as, ∀ b, R a b → S b a) : List.Forall₂ S bs as := by
  apply List.Forall₂.flip
  exact ((List.forall₂_and_left as bs).mpr ⟨hback, h⟩).imp fun a b hab => hab.1 b hab.2

/-- What the new item is related to in place of the old. -/
theorem related_replace {R : α → β → Prop} {before after : List α} {a b : α}
    (hab : ∀ c, R a c → R b c) (h : List.Forall₂ R (before ++ a :: after) bs) :
    List.Forall₂ R (before ++ b :: after) bs := by
  induction before generalizing bs with
  | nil =>
    cases h with
    | cons hac h => exact .cons (hab _ hac) h
  | cons _ before ih =>
    cases h with
    | cons hfirst h => exact .cons hfirst (ih h)

/-- Where a list may change in one item, it may change in all of them, one after another. -/
theorem steps_of_related {step : α → α → Prop} {next : List α → List α → Prop} {others : List α}
    (hnext : ∀ before after a b, step a b → next (before ++ a :: after) (before ++ b :: after))
    (h : List.Forall₂ (Relation.ReflTransGen step) as others) :
    Relation.ReflTransGen next as others := by
  suffices hsuffix : ∀ before, Relation.ReflTransGen next (before ++ as) (before ++ others) from
    hsuffix []
  induction h with
  | nil => exact fun _ => .refl
  | @cons a b as bs hab _ ih =>
    intro before
    have hfirst : Relation.ReflTransGen next (before ++ a :: as) (before ++ b :: as) :=
      Relation.ReflTransGen.lift (fun c => before ++ c :: as) (hnext before as) a b hab
    have hrest := ih (before ++ [b])
    simp only [List.append_assoc, List.singleton_append] at hrest
    exact hfirst.trans hrest

theorem map_eq_of_related {f : α → γ} {g : β → γ}
    (h : List.Forall₂ (fun a b => f a = g b) as bs) : as.map f = bs.map g := by
  induction h with
  | nil => rfl
  | cons hab _ ih => rw [List.map_cons, List.map_cons, hab, ih]

theorem related_map {R : β → γ → Prop} {f : α → β} {g : α → γ} (h : ∀ a ∈ as, R (f a) (g a)) :
    List.Forall₂ R (as.map f) (as.map g) := by
  rw [List.forall₂_map_left_iff, List.forall₂_map_right_iff, List.forall₂_same]
  exact h

section Keys

variable {key : α → String} {a : α}

theorem filter_eq_self_of_new {name : String} (h : name ∉ as.map key) :
    (as.filter fun b => key b ≠ name) = as := by
  apply List.filter_eq_self.mpr
  intro b hb
  exact decide_eq_true fun hname => h (hname ▸ List.mem_map_of_mem hb)

theorem find?_of_mem (h : (as.map key).Nodup) (ha : a ∈ as) :
    as.find? (fun b => key b = key a) = some a := by
  induction as with
  | nil => cases ha
  | cons b as ih =>
    obtain ⟨hnew, hnodup⟩ := List.nodup_cons.mp h
    rcases List.mem_cons.mp ha with rfl | ha
    · exact List.find?_cons_of_pos (decide_eq_true rfl)
    · have hne : key b ≠ key a := fun heq => hnew (heq ▸ List.mem_map_of_mem ha)
      rw [List.find?_cons_of_neg (by simpa using hne), ih hnodup ha]

theorem cons_filter_perm (h : (as.map key).Nodup) (ha : a ∈ as) :
    (a :: as.filter fun b => key b ≠ key a).Perm as := by
  induction as with
  | nil => cases ha
  | cons b as ih =>
    obtain ⟨hnew, hnodup⟩ := List.nodup_cons.mp h
    rcases List.mem_cons.mp ha with rfl | ha
    · rw [List.filter_cons_of_neg (by simp), filter_eq_self_of_new hnew]
    · have hne : key b ≠ key a := fun heq => hnew (heq ▸ List.mem_map_of_mem ha)
      rw [List.filter_cons_of_pos (by simpa using hne)]
      exact (List.Perm.swap b a _).trans ((ih hnodup ha).cons b)

end Keys

section Lookup

variable {name : String} {a : α} {fs : List (String × α)}

theorem lookup_cons (name other : String) (a : α) (fs : List (String × α)) :
    ((name, a) :: fs).lookup other = if other = name then some a else fs.lookup other := by
  by_cases h : other = name
  · subst h
    simp
  · have hbeq : (other == name) = false := beq_false_of_ne h
    simp [List.lookup_cons, hbeq, h]

theorem mem_of_lookup (h : fs.lookup name = some a) : (name, a) ∈ fs := by
  induction fs with
  | nil => cases h
  | cons f fs ih =>
    obtain ⟨n, b⟩ := f
    rw [lookup_cons] at h
    split at h
    · rename_i hname
      cases h
      rw [hname]
      exact List.mem_cons_self
    · exact List.mem_cons_of_mem _ (ih h)

theorem lookup_of_new (h : name ∉ fs.map Prod.fst) : fs.lookup name = none := by
  cases hfound : fs.lookup name with
  | none => rfl
  | some a => exact absurd (List.mem_map_of_mem (mem_of_lookup hfound)) h

end Lookup

end StoreQuery
