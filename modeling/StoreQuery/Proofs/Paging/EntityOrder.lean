import StoreQuery.Proofs.Paging.StableSort
import StoreQuery.Proofs.Value.Order
/-!
The order of sorting, on all values. It can be turned round and ties every value with itself, but values
of one rank that do not compare are ties, and such ties do not chain: a NaN is tied with every number.
-/
namespace StoreQuery

variable {a b c : Value}

theorem sortOrder_swap (x y : Option Value) : sortOrder y x = (sortOrder x y).swap := by
  cases x with
  | none => cases y <;> rfl
  | some a =>
    cases y with
    | none => rfl
    | some b =>
      rw [sortOrder, sortOrder, Value.compare?_swap a b]
      cases a.compare? b with
      | none => exact Nat.compare_swap _ _ |>.symm
      | some o => rfl

theorem sortOrder_self (x : Option Value) : sortOrder x x = .eq := by
  have hswap := sortOrder_swap x x
  cases h : sortOrder x x with
  | eq => rfl
  | _ =>
    rw [h] at hswap
    cases hswap

theorem sortOrder_of_compare? {o : Ordering} (h : a.compare? b = some o) :
    sortOrder (some a) (some b) = o := by
  rw [sortOrder, h, Option.getD_some]

theorem sortOrder_of_incomparable (h : a.compare? b = none) :
    sortOrder (some a) (some b) = compare a.kind.rank b.kind.rank := by
  rw [sortOrder, h, Option.getD_none]

/-- Sorting never goes against the ranks. -/
theorem rank_le_of_sortOrder (h : sortOrder (some a) (some b) ≠ .gt) :
    a.kind.rank ≤ b.kind.rank := by
  cases hab : a.compare? b with
  | some o => exact Nat.le_of_eq (Value.rank_of_compare? hab)
  | none =>
    rw [sortOrder_of_incomparable hab] at h
    exact Nat.compare_ne_gt.mp h

/-- A value that compares with neither of two others of its rank, though the first of them is the greater
one. -/
structure Unplaced (a b c : Value) : Prop where
  rank_eq : a.kind.rank = b.kind.rank
  left : a.compare? b = none
  right : b.compare? c = none
  descends : a.compare? c = some .gt

theorem Unplaced.sortOrder_eq (h : Unplaced a b c) : sortOrder (some a) (some b) = .eq ∧
    sortOrder (some b) (some c) = .eq ∧ sortOrder (some a) (some c) = .gt := by
  have hac : a.kind.rank = c.kind.rank := Value.rank_of_compare? h.descends
  rw [sortOrder_of_incomparable h.left, sortOrder_of_incomparable h.right, ← hac, h.rank_eq]
  exact ⟨Nat.compare_eq_eq.mpr rfl, Nat.compare_eq_eq.mpr rfl, sortOrder_of_compare? h.descends⟩

/-- Two steps that do not go down go down together only past a value that has no place between. -/
theorem unplaced_of_descent (hab : sortOrder (some a) (some b) ≠ .gt)
    (hbc : sortOrder (some b) (some c) ≠ .gt) (hac : sortOrder (some a) (some c) = .gt) :
    Unplaced a b c := by
  have hca : sortOrder (some c) (some a) = .lt := by
    rw [sortOrder_swap, hac, Ordering.swap_gt]
  have hranks : a.kind.rank = b.kind.rank ∧ a.kind.rank = c.kind.rank := by
    have h1 := rank_le_of_sortOrder hab
    have h2 := rank_le_of_sortOrder hbc
    have h3 : c.kind.rank ≤ a.kind.rank := rank_le_of_sortOrder (by rw [hca]; exact nofun)
    omega
  have hdescends : a.compare? c = some .gt := by
    cases h : a.compare? c with
    | some o => rw [← hac, sortOrder_of_compare? h]
    | none =>
      rw [sortOrder_of_incomparable h, hranks.2, Nat.compare_eq_eq.mpr rfl] at hac
      cases hac
  have hrises : c.compare? a = some .lt := Value.compare?_eq_some_swap hdescends
  constructor
  case rank_eq => exact hranks.1
  case descends => exact hdescends
  case left =>
    cases h : a.compare? b with
    | none => rfl
    | some o =>
      rw [sortOrder_of_compare? h] at hab
      have hcb : c.compare? b = some .lt := Value.compare?_trans hrises h nofun hab
      exact (hbc (sortOrder_of_compare? (Value.compare?_eq_some_swap hcb))).elim
  case right =>
    cases h : b.compare? c with
    | none => rfl
    | some p =>
      rw [sortOrder_of_compare? h] at hbc
      have hba : b.compare? a = some (p.then .lt) := Value.compare?_trans h hrises hbc nofun
      rw [Value.then_lt hbc] at hba
      exact (hab (sortOrder_of_compare? (Value.compare?_eq_some_swap hba))).elim

/-- Only a NaN or a list can be without a place. -/
theorem Unplaced.not_isScalar (h : Unplaced a b c) : ¬ b.IsScalar := by
  intro hb
  rcases Value.compare?_eq_some h.descends with ⟨ha, -⟩ | ⟨as, cs, rfl, -⟩
  · have hab := h.left
    rw [SortPlace.compare?_of_rank_eq ha hb h.rank_eq] at hab
    cases hab
  · have hrank := h.rank_eq
    cases b with
    | sequence bs => exact hb.elim
    | _ => cases hrank

/-- A chain of two steps that do not go down goes down just where the value between has no place. -/
theorem descends_iff {x y z : Option Value} :
    sortOrder x y ≠ .gt ∧ sortOrder y z ≠ .gt ∧ sortOrder x z = .gt ↔
      ∃ a b c, x = some a ∧ y = some b ∧ z = some c ∧ ¬ b.IsScalar ∧ Unplaced a b c := by
  constructor
  · rintro ⟨hxy, hyz, hxz⟩
    -- What is missing comes first, so a descent ends in what is present.
    cases x with
    | none => cases z <;> cases hxz
    | some a =>
      cases y with
      | none => exact (hxy rfl).elim
      | some b =>
        cases z with
        | none => exact (hyz rfl).elim
        | some c =>
          have h := unplaced_of_descent hxy hyz hxz
          exact ⟨a, b, c, rfl, rfl, rfl, h.not_isScalar, h⟩
  · rintro ⟨a, b, c, rfl, rfl, rfl, -, h⟩
    obtain ⟨hab, hbc, hac⟩ := h.sortOrder_eq
    rw [hab, hbc]
    exact ⟨nofun, nofun, hac⟩

/-- The order of sorting turns round with its sides and ties every value with itself. It is transitive,
ties included, but for values without a place, which are no scalars. -/
theorem sort_order_laws (x y z : Option Value) :
    sortOrder y x = (sortOrder x y).swap ∧ sortOrder x x = .eq ∧
      (sortOrder x y ≠ .gt ∧ sortOrder y z ≠ .gt ∧ sortOrder x z = .gt ↔
        ∃ a b c, x = some a ∧ y = some b ∧ z = some c ∧ ¬ b.IsScalar ∧ Unplaced a b c) :=
  ⟨sortOrder_swap x y, sortOrder_self x, descends_iff⟩

def measured (v : Value) : Entity := ⟨"items", [⟨"x", v⟩]⟩

/-- A NaN is tied with two and with one, and keeps them in descending order. -/
theorem descent_hidden_by_nan :
    sortOrder (some (.integer 2)) (some (.float .nan)) = .eq ∧
      sortOrder (some (.float .nan)) (some (.integer 1)) = .eq ∧
      sortOrder (some (.integer 2)) (some (.integer 1)) = .gt ∧
      sortEntities [⟨"x", .asc⟩] [measured (.integer 2), measured (.float .nan),
        measured (.integer 1)] =
          [measured (.integer 2), measured (.float .nan), measured (.integer 1)] := by
  refine ⟨by decide, by decide, by decide, ?_⟩
  rfl

section Sorting

variable {es : List Entity} {keys : List SortKey} {name : String}

/-- Among the values of entities under a name none is without a place between two others. -/
def Placed (name : String) (es : List Entity) : Prop :=
  ∀ e ∈ es, ∀ f ∈ es, ∀ g ∈ es, ¬ ∃ a b c, e.get? name = some a ∧ f.get? name = some b ∧
    g.get? name = some c ∧ ¬ b.IsScalar ∧ Unplaced a b c

theorem transCmp_sortOrder (h : Placed name es) :
    Std.TransCmp fun e f : { e // e ∈ es } => sortOrder (e.1.get? name) (f.1.get? name) where
  eq_swap := sortOrder_swap _ _
  isLE_trans := by
    intro e f g hef hfg
    rw [Ordering.isLE_iff_ne_gt] at hef hfg ⊢
    intro heg
    exact h e.1 e.2 f.1 f.2 g.1 g.2 (descends_iff.mp ⟨hef, hfg, heg⟩)

theorem transCmp_entityOrder (h : ∀ key ∈ keys, Placed key.subject es) :
    Std.TransCmp fun e f : { e // e ∈ es } => entityOrder keys e.1 f.1 := by
  induction keys with
  | nil => exact { eq_swap := rfl, isLE_trans := fun _ _ => rfl }
  | cons key keys ih =>
    obtain ⟨hkey, hkeys⟩ := List.forall_mem_cons.mp h
    have hrest := ih hkeys
    have hfirst : Std.TransCmp fun e f : { e // e ∈ es } =>
        key.direction.apply (sortOrder (e.1.get? key.subject) (f.1.get? key.subject)) := by
      have hplain := transCmp_sortOrder hkey
      cases key.direction with
      | asc => exact hplain
      | desc =>
        simp only [Direction.apply, ← sortOrder_swap]
        exact Std.TransCmp.opposite
    exact inferInstanceAs (Std.TransCmp (compareLex _ _))

/-- Entities come out in the order of their keys, and as they were where no key tells them apart, unless a
value has no place among the others. -/
theorem stablySorted_sortEntities (h : ∀ key ∈ keys, Placed key.subject es) :
    StablySorted (entityOrder keys) es (sortEntities keys es) :=
  stablySorted_of_mem (transCmp_entityOrder h)

end Sorting

end StoreQuery
