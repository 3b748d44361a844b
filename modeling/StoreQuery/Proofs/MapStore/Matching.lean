import StoreQuery.Proofs.MapStore.Reachable
import StoreQuery.Proofs.Paging.StableSort
import StoreQuery.Proofs.Value.SortPlace
/-!
Answers of a map: the selected records sorted by one key, equals by their entry keys. Every page is a
slice of them, and its token stands for the position after it.
-/
namespace StoreQuery.MapStore

def Record.KeyBefore (a b : Record) : Prop := compare a.key b.key = .lt

/-- Where the value of a record for a key stands; without the value, before all others. -/
def Record.place (subject : String) (r : Record) : Option SortPlace :=
  (r.value? subject).map SortPlace.of

def placeOrder : Option SortKey → Record → Record → Ordering
  | none, _, _ => .eq
  | some ⟨subject, .asc⟩, a, b => compare (a.place subject) (b.place subject)
  | some ⟨subject, .desc⟩, a, b => compare (b.place subject) (a.place subject)

instance (sort : Option SortKey) : Std.TransCmp (placeOrder sort) := by
  cases sort with
  | none => exact inferInstanceAs (Std.TransCmp (compareOn fun _ : Record => 0))
  | some key =>
    obtain ⟨subject, direction⟩ := key
    cases direction with
    | asc => exact inferInstanceAs (Std.TransCmp (compareOn (Record.place subject)))
    | desc =>
      have hplace : Std.TransCmp (compareOn (Record.place subject)) := inferInstance
      exact hplace.opposite

def Record.Sortable (sort : Option SortKey) (r : Record) : Prop :=
  ∀ key ∈ sort, ∀ v ∈ r.value? key.subject, v.IsScalar

theorem recordOrder_eq {sort : Option SortKey} {a b : Record} (ha : a.Sortable sort)
    (hb : b.Sortable sort) : recordOrder sort a b = placeOrder sort a b := by
  cases sort with
  | none => rfl
  | some key =>
    have hplaces := SortPlace.sortOrder_eq_compare (ha key rfl) (hb key rfl)
    obtain ⟨subject, direction⟩ := key
    simp only [recordOrder, hplaces]
    cases direction with
    | asc => rfl
    | desc => exact Std.OrientedCmp.eq_swap.symm

/-- What a query answers: the selected records by one sort key, equals by their entry keys. -/
structure Ranked (sort : Option SortKey) (selected answers : List Record) : Prop where
  perm : answers.Perm selected
  ordered : answers.Pairwise (ComesBefore (placeOrder sort) Record.KeyBefore)

theorem stablySorted_answers {sort : Option SortKey} {selected : List Record}
    (hsort : ∀ r ∈ selected, r.Sortable sort) :
    StablySorted (placeOrder sort) selected
      (stableSort (fun a b => recordOrder sort a b == .lt) selected) := by
  have hplaces : ∀ a ∈ selected, ∀ b ∈ selected, recordOrder sort a b = placeOrder sort a b := by
    intro a ha b hb
    exact recordOrder_eq (hsort a ha) (hsort b hb)
  exact stablySorted_stableSort hplaces

theorem ranked_stableSort {sort : Option SortKey} {selected : List Record}
    (hkeys : selected.Pairwise Record.KeyBefore) (hsort : ∀ r ∈ selected, r.Sortable sort) :
    Ranked sort selected (stableSort (fun a b => recordOrder sort a b == .lt) selected) :=
  have hsorted := stablySorted_answers hsort
  ⟨hsorted.perm, hsorted.ordered _ hkeys⟩

def Store.selected (s : Store) (map : String) (p : Predicate) : List Record :=
  ((s.live map).map Entry.record).filter (Predicate.test · p)

namespace Store

variable {s : Store}

theorem Ordered.selected_increasing (h : s.Ordered) (map : String) (p : Predicate) :
    (s.selected map p).Pairwise Record.KeyBefore := by
  apply List.Pairwise.filter
  apply List.pairwise_map.mpr
  exact (h map).sublist List.filter_sublist

theorem Sound.readable_of_selected (h : s.Sound) {map : String} {p : Predicate} {r : Record}
    (hr : r ∈ s.selected map p) : r.Readable ∧ map ≠ "" := by
  obtain ⟨e, he, rfl⟩ := List.mem_map.mp (List.mem_filter.mp hr).1
  have hshelf := (List.mem_filter.mp he).1
  refine ⟨h.readable map e hshelf, ?_⟩
  intro hmap
  rw [hmap, h.named] at hshelf
  cases hshelf

theorem length_selected_le (s : Store) (map : String) (p : Predicate) :
    (s.selected map p).length ≤ (s.shelf map).length := by
  have hselected := List.length_filter_le (Predicate.test · p)
    ((s.live map).map Entry.record)
  rw [List.length_map] at hselected
  exact Nat.le_trans hselected (List.length_filter_le _ _)

def stopOf (pageSize anchor total : Nat) : Nat :=
  if pageSize = 0 then total else min (anchor + pageSize) total

variable {q : MapQuery} {records : List Record}

theorem pageOf_eq (hanchor : q.anchor ≤ records.length) (hsize : records.length ≤ maxCount) :
    pageOf q records =
      let stop := stopOf q.pageSize q.anchor records.length
      if stop < records.length then
        .partway ((records.take stop).drop q.anchor) (some (positionToken stop))
      else .last ((records.take stop).drop q.anchor) := by
  simp only [pageOf, stopOf, cappedAdd, Nat.min_eq_left hanchor]
  by_cases hp : q.pageSize = 0
  · simp only [hp, if_true]
  · have hstop : min (min (q.anchor + q.pageSize) maxCount) records.length =
        min (q.anchor + q.pageSize) records.length := by omega
    simp only [hp, if_false, hstop]

end Store

theorem byte_step (n k : Nat) :
    256 * (n / 2 ^ (k + 8)) + n / 2 ^ k % 2 ^ 8 = n / 2 ^ k := by
  rw [Nat.pow_add, ← Nat.div_div_eq_div_mul]
  exact Nat.div_add_mod (n / 2 ^ k) 256

/-- A token stands for its position. -/
theorem position?_positionToken {n : Nat} (h : n ≤ maxCount) :
    position? (positionToken n) = some n := by
  have htop : n / 2 ^ 56 % 2 ^ 8 = n / 2 ^ 56 := by
    apply Nat.mod_eq_of_lt
    simp only [maxCount] at h
    omega
  simp only [position?, positionToken, List.map_cons, List.map_nil, List.length_cons,
    List.length_nil, List.foldl_cons, List.foldl_nil, UInt8.toNat_ofNat', if_true]
  rw [Nat.mul_zero, Nat.zero_add, htop, byte_step n 48, byte_step n 40, byte_step n 32,
    byte_step n 24, byte_step n 16, byte_step n 8, byte_step n 0, Nat.pow_zero, Nat.div_one]

end StoreQuery.MapStore
