import StoreQuery.Paging.StableSort
import StoreQuery.Proofs.Lists
/-!
Stable sorting. The result has the items of the list in the order of the comparison, and those that it
does not tell apart in the order that they came in.
-/
namespace StoreQuery

variable {α : Type} {before after : α → α → Bool} {cmp : α → α → Ordering} {R : α → α → Prop}
  {x : α} {xs sorted : List α}

theorem perm_insertFromEnd (before : α → α → Bool) (x : α) (xs : List α) :
    (insertFromEnd before x xs).Perm (x :: xs) := by
  induction xs with
  | nil => exact List.Perm.refl _
  | cons y ys ih =>
    by_cases h : before x y = true
    · simp only [insertFromEnd, h, if_true]
      exact (ih.cons y).trans (List.Perm.swap x y ys)
    · simp only [insertFromEnd, h]
      exact List.Perm.refl _

theorem perm_stableSort (before : α → α → Bool) (xs : List α) : (stableSort before xs).Perm xs := by
  have hall := perm_foldl_insert (perm_insertFromEnd before) xs []
  rw [List.append_nil] at hall
  exact (List.reverse_perm _).trans hall

def ComesBefore (cmp : α → α → Ordering) (R : α → α → Prop) (a b : α) : Prop :=
  cmp a b = .lt ∨ cmp a b = .eq ∧ R a b

theorem ComesBefore.isLE {a b : α} (h : ComesBefore cmp R a b) : (cmp a b).isLE = true := by
  rcases h with h | ⟨h, _⟩
  · rw [h]
    rfl
  · rw [h]
    rfl

theorem comesBefore_of_isLE {a b : α} (h : (cmp a b).isLE = true) (hR : R a b) :
    ComesBefore cmp R a b := by
  cases hc : cmp a b with
  | lt => exact .inl hc
  | eq => exact .inr ⟨hc, hR⟩
  | gt =>
    rw [hc] at h
    cases h

/-- An item that came last moves past those it is strictly before, and stays behind its equals. -/
theorem pairwise_insertFromEnd [Std.TransCmp cmp]
    (hsorted : sorted.Pairwise fun b a => ComesBefore cmp R a b) (hlast : ∀ y ∈ sorted, R y x) :
    (insertFromEnd (fun a b => cmp a b == .lt) x sorted).Pairwise
      fun b a => ComesBefore cmp R a b := by
  induction sorted with
  | nil => exact List.pairwise_singleton _ _
  | cons y ys ih =>
    obtain ⟨hy, hys⟩ := List.pairwise_cons.mp hsorted
    by_cases h : cmp x y = .lt
    · have hbefore : (cmp x y == .lt) = true := by simp [h]
      simp only [insertFromEnd, hbefore, if_true]
      apply List.pairwise_cons.mpr
      refine ⟨?_, ih hys fun z hz => hlast z (List.mem_cons_of_mem y hz)⟩
      intro z hz
      rcases List.mem_cons.mp ((perm_insertFromEnd _ x ys).mem_iff.mp hz) with rfl | hz
      · exact .inl h
      · exact hy z hz
    · have hbefore : (cmp x y == .lt) = false := by simp [h]
      simp only [insertFromEnd, hbefore, Bool.false_eq_true, if_false]
      have hyx : (cmp y x).isLE = true := by
        have hswap : cmp y x = (cmp x y).swap := Std.OrientedCmp.eq_swap
        rw [hswap]
        cases hc : cmp x y with
        | lt => exact (h hc).elim
        | eq => rfl
        | gt => rfl
      refine List.pairwise_cons.mpr ⟨?_, hsorted⟩
      intro z hz
      apply comesBefore_of_isLE _ (hlast z hz)
      rcases List.mem_cons.mp hz with rfl | hz
      · exact hyx
      · exact Std.TransCmp.isLE_trans (hy z hz).isLE hyx

theorem pairwise_foldl_insertFromEnd [Std.TransCmp cmp] (hxs : xs.Pairwise R)
    (hsorted : sorted.Pairwise fun b a => ComesBefore cmp R a b)
    (hlast : ∀ y ∈ sorted, ∀ x ∈ xs, R y x) :
    (xs.foldl (fun acc x => insertFromEnd (fun a b => cmp a b == .lt) x acc) sorted).Pairwise
      fun b a => ComesBefore cmp R a b := by
  induction xs generalizing sorted with
  | nil => exact hsorted
  | cons x xs ih =>
    obtain ⟨hx, hxs⟩ := List.pairwise_cons.mp hxs
    have hinsert := pairwise_insertFromEnd hsorted fun y hy => hlast y hy x List.mem_cons_self
    apply ih hxs hinsert
    intro y hy z hz
    rcases List.mem_cons.mp ((perm_insertFromEnd _ x sorted).mem_iff.mp hy) with rfl | hy
    · exact hx z hz
    · exact hlast y hy z (List.mem_cons_of_mem x hz)

/-- Sorting keeps the order of items that compare equal. -/
theorem pairwise_stableSort [Std.TransCmp cmp] (hxs : xs.Pairwise R) :
    (stableSort (fun a b => cmp a b == .lt) xs).Pairwise (ComesBefore cmp R) := by
  apply List.pairwise_reverse.mpr
  apply pairwise_foldl_insertFromEnd hxs List.Pairwise.nil
  intro y hy
  cases hy

theorem insertFromEnd_congr (h : ∀ y ∈ sorted, before x y = after x y) :
    insertFromEnd before x sorted = insertFromEnd after x sorted := by
  induction sorted with
  | nil => rfl
  | cons y ys ih =>
    simp only [insertFromEnd, h y List.mem_cons_self,
      ih fun z hz => h z (List.mem_cons_of_mem y hz)]

/-- Sorting compares only items of the list. -/
theorem stableSort_congr (h : ∀ a ∈ xs, ∀ b ∈ xs, before a b = after a b) :
    stableSort before xs = stableSort after xs := by
  have hfold : ∀ (ys acc : List α), (∀ a ∈ ys ++ acc, a ∈ xs) →
      ys.foldl (fun acc x => insertFromEnd before x acc) acc =
        ys.foldl (fun acc x => insertFromEnd after x acc) acc := by
    intro ys
    induction ys with
    | nil => exact fun _ _ => rfl
    | cons y ys ih =>
      intro acc hmem
      have hy : y ∈ xs := hmem y List.mem_cons_self
      have hsame : insertFromEnd before y acc = insertFromEnd after y acc := by
        apply insertFromEnd_congr
        intro z hz
        exact h y hy z (hmem z (List.mem_append_right _ hz))
      rw [List.foldl_cons, List.foldl_cons, hsame]
      apply ih
      intro a ha
      apply hmem
      rcases List.mem_append.mp ha with ha | ha
      · exact List.mem_cons_of_mem y (List.mem_append_left acc ha)
      · rcases List.mem_cons.mp ((perm_insertFromEnd after y acc).mem_iff.mp ha) with rfl | ha
        · exact List.mem_cons_self
        · exact List.mem_append_right _ ha
  simp only [stableSort]
  rw [hfold xs [] (by simp)]

theorem insertFromEnd_map {β : Type} (f : β → α) (x : β) (sorted : List β) :
    insertFromEnd before (f x) (sorted.map f) =
      (insertFromEnd (fun a b => before (f a) (f b)) x sorted).map f := by
  induction sorted with
  | nil => rfl
  | cons y ys ih =>
    simp only [List.map_cons, insertFromEnd]
    split
    · rw [ih, List.map_cons]
    · rfl

/-- What stands for the items can be sorted in their place. -/
theorem stableSort_map {β : Type} (f : β → α) (xs : List β) :
    stableSort before (xs.map f) = (stableSort (fun a b => before (f a) (f b)) xs).map f := by
  have hfold : ∀ sorted : List β,
      (xs.map f).foldl (fun acc x => insertFromEnd before x acc) (sorted.map f) =
        (xs.foldl (fun acc x => insertFromEnd (fun a b => before (f a) (f b)) x acc) sorted).map f := by
    induction xs with
    | nil => exact fun _ => rfl
    | cons x xs ih =>
      intro sorted
      rw [List.map_cons, List.foldl_cons, List.foldl_cons, insertFromEnd_map, ih]
  simp only [stableSort, List.map_reverse]
  rw [← hfold [], List.map_nil]

/-- The items of a list in the order of a comparison; those that it does not tell apart are in every
relation that they came in. -/
structure StablySorted (cmp : α → α → Ordering) (xs sorted : List α) : Prop where
  perm : sorted.Perm xs
  ordered : ∀ R : α → α → Prop, xs.Pairwise R → sorted.Pairwise (ComesBefore cmp R)

/-- A comparison that agrees on the items with an order sorts them by that order. -/
theorem stablySorted_stableSort {order : α → α → Ordering} [Std.TransCmp order]
    (h : ∀ a ∈ xs, ∀ b ∈ xs, cmp a b = order a b) :
    StablySorted order xs (stableSort (fun a b => cmp a b == .lt) xs) := by
  have hsame : stableSort (fun a b => cmp a b == .lt) xs =
      stableSort (fun a b => order a b == .lt) xs := by
    apply stableSort_congr
    intro a ha b hb
    rw [h a ha b hb]
  rw [hsame]
  exact ⟨perm_stableSort _ xs, fun R hR => pairwise_stableSort hR⟩

theorem StablySorted.pairwise_isLE (h : StablySorted cmp xs sorted) :
    sorted.Pairwise fun a b => (cmp a b).isLE = true := by
  have hall : xs.Pairwise fun _ _ => True := List.pairwise_of_forall fun _ _ => trivial
  exact (h.ordered _ hall).imp ComesBefore.isLE

/-- A comparison sorts the items of a list if it is an order among them. -/
theorem stablySorted_of_mem (h : Std.TransCmp fun a b : { a // a ∈ xs } => cmp a.1 b.1) :
    StablySorted cmp xs (stableSort (fun a b => cmp a b == .lt) xs) := by
  have hsorted : StablySorted (fun a b : { a // a ∈ xs } => cmp a.1 b.1) xs.attach
      (stableSort (fun a b => cmp a.1 b.1 == .lt) xs.attach) :=
    stablySorted_stableSort fun _ _ _ _ => rfl
  have hmap : stableSort (fun a b => cmp a b == .lt) (xs.attach.map Subtype.val) =
      (stableSort (fun a b => cmp a.1 b.1 == .lt) xs.attach).map Subtype.val :=
    stableSort_map Subtype.val xs.attach
  rw [List.attach_map_subtype_val] at hmap
  rw [hmap]
  constructor
  · have hperm := hsorted.perm.map Subtype.val
    rwa [List.attach_map_subtype_val] at hperm
  · intro R hR
    rw [← List.attach_map_subtype_val xs, List.pairwise_map] at hR
    rw [List.pairwise_map]
    exact hsorted.ordered _ hR

end StoreQuery
