import StoreQuery.Proofs.MapStore.Matching
import StoreQuery.Proofs.Paging.Rows
import StoreQuery.Proofs.Step
/-!
Requests to a map while time passes and nothing is written. Each is answered from the same live
entries, and they are counted.
-/
namespace StoreQuery.MapStore

structure Timed where
  store : Store
  requests : Nat := 0

def answersOf (sort : Option SortKey) (p : Predicate) (live : Shelf) : List Record :=
  stableSort (fun a b => recordOrder sort a b == .lt)
    ((live.map Entry.record).filter (Predicate.test · p))

theorem Store.matching_eq (s : Store) (q : MapQuery) :
    s.matching q = answersOf q.orderBy q.predicate (s.live q.map) := rfl

theorem Store.live_purge (s : Store) (map : String) :
    ((purge map).run s).state.live map = s.live map ∧
      ((purge map).run s).state.shelf map = s.live map := by
  have hshelf : ((purge map).run s).state.shelf map = s.live map := if_pos rfl
  have hclock : ((purge map).run s).state.clock = s.clock := rfl
  refine ⟨?_, hshelf⟩
  simp only [live, hshelf, hclock, List.filter_filter, Bool.and_self]

namespace Timed

/-- Each request finds the clock where time has brought it. -/
def carry (clock : Nat → Nat) {α : Type} (x : Step Store α) : Step Timed α := fun t =>
  let o := x.run (t.store.tick (clock t.requests))
  ⟨o.answer, ⟨o.state, t.requests + 1⟩, o.log⟩

def service (clock : Nat → Nat) : MapService Timed := Store.service.carried (carry clock)

def Steady (clock : Nat → Nat) (map : String) (live : Shelf) (s : Store) : Prop :=
  ∀ k, (s.shelf map).filter (Entry.isLive (clock k)) = live

theorem steady_of_live {clock : Nat → Nat} {s : Store} {map : String}
    (hpast : ∀ k, s.clock ≤ clock k) (hlive : ∀ k, ∀ e ∈ s.live map, e.isLive (clock k) = true) :
    Steady clock map (s.live map) s := by
  intro k
  apply List.filter_congr
  intro e he
  by_cases hnow : e.isLive s.clock = true
  · rw [hnow]
    exact hlive k e (List.mem_filter.mpr ⟨he, hnow⟩)
  · have hgone : e.isLive (clock k) = false := by
      obtain ⟨record, deadline⟩ := e
      cases deadline with
      | none => exact (hnow rfl).elim
      | some deadline =>
        have hk := hpast k
        simp only [Entry.isLive, Option.all_some, decide_eq_true_eq, decide_eq_false_iff_not] at hnow ⊢
        omega
    rw [hgone]
    exact (Bool.not_eq_true _ ▸ hnow : e.isLive s.clock = false).symm

/-- A request answers from the live entries, and leaves them live. -/
theorem run_query {clock : Nat → Nat} {q : MapQuery} {live : Shelf} {t : Timed}
    (h : Steady clock q.map live t.store) :
    let o := ((service clock).query q).run t
    o.answer = .ok (Store.pageOf q (answersOf q.orderBy q.predicate live)) ∧
      o.state.requests = t.requests + 1 ∧ Steady clock q.map live o.state.store := by
  have hlive : (t.store.tick (clock t.requests)).live q.map = live := h t.requests
  obtain ⟨hpurged, hshelf⟩ := Store.live_purge (t.store.tick (clock t.requests)) q.map
  rw [hlive] at hpurged hshelf
  refine ⟨?_, rfl, ?_⟩
  · rw [← hpurged, ← Store.matching_eq]
    rfl
  · intro k
    change List.filter _ (Store.shelf (Step.run (Store.purge q.map) _).state q.map) = live
    rw [hshelf, ← h k, List.filter_filter]
    simp only [Bool.and_self]

end Timed

theorem convertRows_eq {κ : Type} {convert : κ → RowResult} {f : κ → Entity} {ks : List κ}
    (h : ∀ k ∈ ks, convert k = .ok (f k)) :
    Adapter.convertRows convert ks = (ks.map f).map Except.ok := by
  have hrows : ks.map convert = (ks.map f).map Except.ok := by
    rw [List.map_map]
    exact List.map_congr_left h
  rw [convertRows_eq_throughFailure, hrows, throughFailure_of_none (failure?_map_ok _)]

theorem Bucket.fetch_of_query [RegexEngine] {σ : Type} (b : Bucket) {m : MapService σ}
    {q : Query} {c : Cursor} {w : Window} {request : MapQuery} {page : Page Record} {t : σ}
    (hrequest : mapQuery q c w = .ok request)
    (hanswer : ((m.query request).run t).answer = .ok page) :
    let o := ((b.source m).fetch q c w).run t
    o.answer = .ok ⟨Adapter.convertRows (Record.toEntity q.collection) page.rows,
        page.continuation, page.complete⟩ ∧
      o.state = ((m.query request).run t).state := by
  simp only [Bucket.source, Adapter.source, Adapter.fetch, hrequest, Step.answer_bind,
    Step.state_bind, hanswer]
  exact ⟨rfl, rfl⟩

/-- How many requests a reading takes: one at least, and each but the last brings a whole page. -/
def requestsFor (skip limit pageSize total : Nat) : Nat :=
  let reached := if limit = 0 then total else min total (skip + limit)
  if pageSize = 0 then 1 else max 1 ((reached + pageSize - 1) / pageSize)

/-- The request that reaches the limit or the end is the last. -/
theorem requestsFor_eq (skip limit : Nat) {pageSize total made : Nat}
    (hopen : made = 0 ∨ made * pageSize < total) (hsingle : pageSize = 0 → made = 0)
    (hroom : limit = 0 ∨ made * pageSize - skip < limit)
    (hreach : let stop := Store.stopOf pageSize (made * pageSize) total
      (0 < limit ∧ limit ≤ stop - skip) ∨ (stop = total ∧ (limit = 0 ∨ total - skip < limit))) :
    made + 1 = requestsFor skip limit pageSize total := by
  by_cases hsize : pageSize = 0
  · simp only [requestsFor, hsize, if_true, hsingle hsize]
  · simp only [Store.stopOf, hsize, if_false] at hreach
    simp only [requestsFor, hsize, if_false]
    generalize hreached : (if limit = 0 then total else min total (skip + limit)) = reached
    have hnext : (made + 1) * pageSize = made * pageSize + pageSize := Nat.succ_mul made pageSize
    have hle : reached ≤ (made + 1) * pageSize := by
      rw [hnext, ← hreached]
      split <;> omega
    by_cases hnone : reached = 0
    · have hmade : made = 0 := by
        rcases hopen with hmade | hlt
        · exact hmade
        · split at hreached <;> omega
      rw [hmade, hnone, Nat.zero_add, Nat.div_eq_of_lt (by omega)]
      rfl
    · have hlt : made * pageSize < reached := by
        rcases hopen with hmade | hlt
        · rw [hmade, Nat.zero_mul]
          omega
        · split at hreached <;> omega
      have hdiv : (reached + pageSize - 1) / pageSize = made + 1 := by
        apply Nat.div_eq_of_lt_le
        · omega
        · rw [Nat.succ_mul (made + 1)]
          omega
      omega

end StoreQuery.MapStore
