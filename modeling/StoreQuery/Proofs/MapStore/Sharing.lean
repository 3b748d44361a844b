import Mathlib.Data.List.TakeWhile
import Mathlib.Data.Nat.Find
import StoreQuery.Proofs.MapStore.Expiry
import StoreQuery.Proofs.MapStore.PageOrder
import StoreQuery.Proofs.Session
/-!
Reading a map page by page while others use the maps. Each fetch brings the rows from its position on,
among the answers that there are by then. The reading ends with the first fetch after which no answer is
left, or with a record that does not read as an entity.
-/
namespace StoreQuery.MapStore

def Store.used (s : Store) (ops : List (Nat × Operation)) : Store :=
  ops.foldl (fun s p => ((p.2.actAt p.1).run s).state) s

theorem Store.Ordered.used {s : Store} (h : s.Ordered) (ops : List (Nat × Operation)) :
    (s.used ops).Ordered := by
  induction ops generalizing s with
  | nil => exact h
  | cons p ops ih => exact ih (Store.ordered_actAt h p.1 p.2)

/-- While no operation panics, the lock is free for the next one. -/
theorem MemoryMap.afterAll_of_fits {m : MemoryMap} {ops : List (Nat × Operation)}
    (h : m.poisoned = false) (hfits : ∀ p ∈ ops, p.2.Fits p.1) :
    m.afterAll ops = ⟨m.store.used ops, false⟩ := by
  induction ops generalizing m with
  | nil =>
    rw [← h]
    rfl
  | cons p ops ih =>
    rw [List.forall_mem_cons] at hfits
    rw [afterAll, List.foldl_cons, (run_performAt_of_fits h hfits.1).2]
    exact ih (m := ⟨((p.2.actAt p.1).run m.store).state, false⟩) rfl hfits.2

/-- A reading of a collection. Before each fetch others use the maps, each at its time. -/
structure Sharing where
  store : Store
  meanwhile : Nat → List (Nat × Operation)
  /-- The times of the fetches. -/
  clock : Nat → Nat
  query : Query
  predicate : Predicate
  pageSize : Nat

structure Shared where
  maps : MemoryMap
  requests : Nat := 0

namespace Sharing

section

variable (x : Sharing)

def left : Nat → Store
  | 0 => x.store
  | k + 1 => ((Store.purge x.query.collection).run
      (((left k).used (x.meanwhile k)).tick (x.clock k))).state

def found (k : Nat) : Store := ((x.left k).used (x.meanwhile k)).tick (x.clock k)

def answers (k : Nat) : List Record :=
  answersOf x.query.sorts.head? x.predicate ((x.found k).live x.query.collection)

def page (k : Nat) : List Record := capped x.pageSize ((x.answers k).drop (k * x.pageSize))

def pages (n : Nat) : List Record := (List.range n).flatMap x.page

def rows (rs : List Record) : List RowResult := rs.map (Record.toEntity x.query.collection)

/-- The records before the first that does not read as an entity. -/
def readable (rs : List Record) : List Record :=
  rs.takeWhile fun r => (Record.toEntity x.query.collection r).isOk

def items (rs : List Record) : List RowResult :=
  x.rows (x.readable rs) ++ (failure? (x.rows rs)).toList.map Except.error

def More (k : Nat) : Prop :=
  x.pageSize ≠ 0 ∧ (k + 1) * x.pageSize < (x.answers k).length

instance (k : Nat) : Decidable (x.More k) := inferInstanceAs (Decidable (_ ∧ _))

def Continues (k : Nat) : Prop := x.More k ∧ failure? (x.rows (x.page k)) = none

instance (k : Nat) : Decidable (x.Continues k) := inferInstanceAs (Decidable (_ ∧ _))

structure Last (last : Nat) : Prop where
  before : ∀ k < last, x.Continues k
  ends : ¬ x.Continues last

/-- Others use the maps before each request. -/
def carry {α : Type} (step : Step MemoryMap α) : Step Shared α := fun t =>
  let m := t.maps.afterAll (x.meanwhile t.requests)
  let o := step.run { m with store := m.store.tick (x.clock t.requests) }
  ⟨o.answer, ⟨o.state, t.requests + 1⟩, o.log⟩

def service : MapService Shared := MemoryMap.service.carried x.carry

/-- The whole collection is read by one sort key at most, of values that can be sorted, while others do what
they like with the maps, but none of them panics. A map counts its entries in 64 bits. -/
structure Valid [RegexEngine] : Prop where
  ordered : x.store.Ordered
  fits : ∀ k, ∀ p ∈ x.meanwhile k, p.2.Fits p.1
  compiled : Predicate.of x.query.condition = .ok x.predicate
  skipless : x.query.skip = 0
  limitless : x.query.limit = 0
  sorts : x.query.sorts.length ≤ 1
  sortable : ∀ k, ∀ r ∈ (x.found k).selected x.query.collection x.predicate,
    r.Sortable x.query.sorts.head?
  sized : ∀ k, ((x.found k).shelf x.query.collection).length < 2 ^ 64

end

/-- A page is a slice of the answers, also where its position is beyond them. -/
theorem pageOf_slice {q : MapQuery} {rs : List Record} (hsize : rs.length ≤ maxCount) :
    Store.pageOf q rs =
      if q.pageSize ≠ 0 ∧ q.anchor + q.pageSize < rs.length then
        .partway (capped q.pageSize (rs.drop q.anchor)) (some (positionToken (q.anchor + q.pageSize)))
      else .last (capped q.pageSize (rs.drop q.anchor)) := by
  have hstart : rs.drop (min q.anchor rs.length) = rs.drop q.anchor := by
    by_cases hanchor : q.anchor ≤ rs.length
    · rw [Nat.min_eq_left hanchor]
    · rw [Nat.min_eq_right (by omega), List.drop_length, List.drop_eq_nil_of_le (by omega)]
  by_cases hmore : q.pageSize ≠ 0 ∧ q.anchor + q.pageSize < rs.length
  · have hstop : (if q.pageSize = 0 then rs.length
        else min (cappedAdd (min q.anchor rs.length) q.pageSize) rs.length) =
        q.anchor + q.pageSize := by
      simp only [cappedAdd]
      rw [if_neg hmore.1]
      omega
    have hrows : (rs.take (q.anchor + q.pageSize)).drop q.anchor =
        capped q.pageSize (rs.drop q.anchor) := by
      rw [capped_of_pos (Nat.pos_of_ne_zero hmore.1), List.drop_take, Nat.add_sub_cancel_left]
    simp only [Store.pageOf, hstop]
    rw [if_pos hmore.2, if_pos hmore, Nat.min_eq_left (by omega), hrows]
  · have hstop : (if q.pageSize = 0 then rs.length
        else min (cappedAdd (min q.anchor rs.length) q.pageSize) rs.length) = rs.length := by
      simp only [cappedAdd]
      split <;> omega
    have hrows : capped q.pageSize (rs.drop q.anchor) = rs.drop q.anchor := by
      by_cases hzero : q.pageSize = 0
      · rw [hzero, capped_zero]
      · rw [capped_of_pos (Nat.pos_of_ne_zero hzero)]
        apply List.take_of_length_le
        rw [List.length_drop]
        omega
    simp only [Store.pageOf, hstop]
    rw [if_neg (Nat.lt_irrefl _), if_neg hmore, List.take_length, hstart, hrows]

section

variable [RegexEngine] {x : Sharing} {k last : Nat} {p : Pager} {t : Shared} {arrived : List Entity}

theorem Valid.ordered_left (h : x.Valid) (k : Nat) : (x.left k).Ordered := by
  induction k with
  | zero => exact h.ordered
  | succ k ih =>
    have hused : (((x.left k).used (x.meanwhile k)).tick (x.clock k)).Ordered := ih.used _
    exact hused.purge _

theorem Valid.ordered_found (h : x.Valid) (k : Nat) : (x.found k).Ordered :=
  (h.ordered_left k).used _

theorem Valid.length_answers_le (h : x.Valid) (k : Nat) : (x.answers k).length ≤ maxCount :=
  length_answersOf_le (h.sized k) _ _

end

section

variable {x : Sharing} {k last : Nat} {p : Pager} {t : Shared} {arrived : List Entity}

theorem mem_answers {r : Record} :
    r ∈ x.answers k ↔ r ∈ (x.found k).selected x.query.collection x.predicate :=
  (perm_answersOf _ _ _ _).mem_iff

theorem items_eq (x : Sharing) (rs : List Record) : x.items rs = throughFailure (x.rows rs) := by
  rw [throughFailure_eq, items]
  congr 1
  rw [rows, rows, List.takeWhile_map]
  rfl

theorem readable_of_clean {rs : List Record} (h : failure? (x.rows rs) = none) :
    x.readable rs = rs := by
  apply List.takeWhile_eq_self_iff.mpr
  intro r hr
  have hrow := List.findSome?_eq_none_iff.mp h _ (List.mem_map_of_mem hr)
  cases hread : Record.toEntity x.query.collection r with
  | ok e => rfl
  | error e =>
    rw [hread] at hrow
    cases hrow

theorem pages_succ (x : Sharing) (n : Nat) : x.pages (n + 1) = x.pages n ++ x.page n := by
  rw [pages, pages, List.range_succ, List.flatMap_append, List.flatMap_singleton]

theorem rows_pages_succ (x : Sharing) (n : Nat) :
    x.rows (x.pages (n + 1)) = x.rows (x.pages n) ++ x.rows (x.page n) := by
  rw [rows, pages_succ, List.map_append]
  rfl

theorem pages_prefix (x : Sharing) {m n : Nat} (h : m ≤ n) : x.pages m <+: x.pages n := by
  induction h with
  | refl => exact List.prefix_refl _
  | step _ ih =>
    rw [pages_succ]
    exact ih.trans (List.prefix_append _ _)

/-- Before the last fetch every record reads as an entity. -/
theorem Last.clean (h : x.Last last) {n : Nat} (hn : n ≤ last) :
    failure? (x.rows (x.pages n)) = none := by
  induction n with
  | zero => rfl
  | succ n ih =>
    rw [rows_pages_succ, failure?_append, ih (by omega), (h.before n (by omega)).2]
    rfl

theorem Last.eq_of_stops (h : x.Last last) (hk : k ≤ last) (hstops : ¬ x.Continues k) : k = last := by
  by_contra hne
  exact hstops (h.before k (by omega))

theorem length_page (x : Sharing) (k : Nat) (h : x.More k) : (x.page k).length = x.pageSize := by
  have hlt := h.2
  rw [Nat.succ_mul] at hlt
  rw [page, capped_of_pos (Nat.pos_of_ne_zero h.1), List.length_take, List.length_drop]
  omega

/-- A reading after some fetches, the last one not among them. -/
structure Reads (x : Sharing) (last : Nat) (p : Pager) (t : Shared)
    (arrived : List Entity) : Prop where
  profile : p.profile = MapStore.profile
  query : p.query = x.query
  size : p.pageSize = x.pageSize
  maps : t.maps = ⟨x.left t.requests, false⟩
  early : t.requests ≤ last
  cursor : p.cursor.token =
    if t.requests = 0 then none else some (positionToken (t.requests * x.pageSize))
  arrived : arrived = converted (x.rows (x.pages t.requests))

structure Brought (x : Sharing) (k : Nat) (page : Page RowResult) : Prop where
  rows : page.rows = throughFailure (x.rows (x.page k))
  continuation : page.continuation =
    if x.More k then some (positionToken ((k + 1) * x.pageSize)) else none
  complete : page.complete = decide (¬ x.More k)

theorem Brought.failure_eq {page : Page RowResult} (h : Brought x k page) :
    failure? page.rows = failure? (x.rows (x.page k)) := by
  rw [h.rows, failure?_throughFailure]

theorem Brought.endsWith_eq {page : Page RowResult} (h : Brought x k page)
    (hclean : failure? page.rows = none) (hprofile : p.profile = MapStore.profile) :
    p.endsWith page = decide (¬ x.More k) := by
  simp only [Pager.endsWith, hprofile, MapStore.profile, h.continuation, h.complete]
  by_cases hmore : x.More k
  · have hrows : page.rows.length = x.pageSize := by
      rw [h.failure_eq] at hclean
      rw [h.rows, throughFailure_of_none hclean, Sharing.rows, List.length_map, x.length_page k hmore]
    simp [hmore, hrows, hmore.1]
  · simp [hmore]

theorem Brought.continues_iff {page : Page RowResult} (h : Brought x k page)
    (hprofile : p.profile = MapStore.profile) :
    x.Continues k ↔ failure? page.rows = none ∧ p.endsWith page = false := by
  rw [Continues, ← h.failure_eq, and_comm]
  apply and_congr_right
  intro hclean
  rw [h.endsWith_eq hclean hprofile, decide_eq_false_iff_not, Decidable.not_not]

end

section

variable [RegexEngine] {x : Sharing} {k last : Nat} {p : Pager} {t : Shared} {arrived : List Entity}

/-- Sooner or later a position is beyond all that a map can hold. -/
theorem Valid.exists_last (h : x.Valid) : ∃ last, x.Last last := by
  have hends : ∃ k, ¬ x.Continues k := by
    refine ⟨maxCount, ?_⟩
    rintro ⟨⟨hsize, hlt⟩, -⟩
    have hle := h.length_answers_le maxCount
    have hmul := Nat.le_mul_of_pos_right (maxCount + 1) (Nat.pos_of_ne_zero hsize)
    omega
  refine ⟨Nat.find hends, ?_, Nat.find_spec hends⟩
  intro k hk
  exact Decidable.not_not.mp (Nat.find_min hends hk)

theorem Reads.mapQuery_eq (hx : x.Valid) (hlast : x.Last last) (h : Reads x last p t arrived) :
    mapQuery p.query p.cursor p.window =
      .ok ⟨x.query.collection, x.predicate, x.query.sorts.head?, x.pageSize,
        t.requests * x.pageSize⟩ := by
  have hposition : t.requests * x.pageSize ≤ maxCount := by
    by_cases hfirst : t.requests = 0
    · rw [hfirst, Nat.zero_mul]
      exact Nat.zero_le _
    · -- The fetch before was not the last one, so its answers reached beyond the position.
      obtain ⟨k, hk⟩ := Nat.exists_eq_succ_of_ne_zero hfirst
      have hcontinues := hlast.before k (by have := h.early; omega)
      rw [hk]
      exact Nat.le_trans (Nat.le_of_lt hcontinues.1.2) (hx.length_answers_le k)
  have hpredicate : Predicate.of p.query.condition = .ok x.predicate := h.query ▸ hx.compiled
  have hquery := mapQuery_of_requests h.profile h.size h.cursor hposition hpredicate
  rw [h.query] at hquery ⊢
  exact hquery

/-- Nobody has panicked, so that a request gets the lock. -/
theorem run_query (hx : x.Valid) (ht : t.maps = ⟨x.left t.requests, false⟩) :
    let q : MapQuery := ⟨x.query.collection, x.predicate, x.query.sorts.head?, x.pageSize,
      t.requests * x.pageSize⟩
    let o := (x.service.query q).run t
    o.answer = .ok (if x.More t.requests then
        .partway (x.page t.requests) (some (positionToken ((t.requests + 1) * x.pageSize)))
      else .last (x.page t.requests)) ∧
      o.state = ⟨⟨x.left (t.requests + 1), false⟩, t.requests + 1⟩ := by
  intro q o
  obtain ⟨maps, requests⟩ := t
  obtain rfl : maps = ⟨x.left requests, false⟩ := ht
  have hused := MemoryMap.afterAll_of_fits (m := ⟨x.left requests, false⟩) rfl (hx.fits requests)
  have hrun : o = ⟨((Store.service.query q).run (x.found requests)).answer,
      ⟨⟨x.left (requests + 1), false⟩, requests + 1⟩, o.log⟩ := by
    simp only [o, service, MapService.carried, carry, Step.run, hused]
    rfl
  rw [hrun]
  refine ⟨?_, rfl⟩
  have hlive := (Store.live_purge (x.found requests) x.query.collection).1
  have hanswer : ((Store.service.query q).run (x.found requests)).answer =
      .ok (Store.pageOf q (x.answers requests)) := by
    rw [answers, ← hlive]
    rfl
  have hmore : (q.pageSize ≠ 0 ∧ q.anchor + q.pageSize < (x.answers requests).length) ↔
      x.More requests := by
    rw [More, Nat.succ_mul]
  rw [hanswer, pageOf_slice (hx.length_answers_le requests), if_congr hmore rfl rfl, Nat.succ_mul]
  rfl

theorem Reads.fetched (b : Bucket) (hx : x.Valid) (hlast : x.Last last)
    (h : Reads x last p t arrived) :
    let o := p.fetched (b.source x.service) t
    ∃ page, o.answer = .ok page ∧
      o.state = ⟨⟨x.left (t.requests + 1), false⟩, t.requests + 1⟩ ∧ Brought x t.requests page := by
  intro o
  obtain ⟨hanswer, hstate⟩ := run_query hx h.maps
  obtain ⟨hrows, hafter⟩ := b.fetch_of_query (h.mapQuery_eq hx hlast) hanswer
  refine ⟨_, hrows, hafter.trans hstate, ?_⟩
  have hconvert : Adapter.convertRows (Record.toEntity p.query.collection) (x.page t.requests) =
      throughFailure (x.rows (x.page t.requests)) := by
    rw [h.query, convertRows_eq_throughFailure]
    rfl
  by_cases hmore : x.More t.requests
  · simp only [if_pos hmore, Page.partway]
    exact ⟨hconvert, (if_pos hmore).symm, (decide_eq_false (not_not_intro hmore)).symm⟩
  · simp only [if_neg hmore, Page.last]
    exact ⟨hconvert, (if_neg hmore).symm, (decide_eq_true hmore).symm⟩

theorem Brought.collected {page : Page RowResult} (hpage : Brought x t.requests page)
    (hx : x.Valid) (hlast : x.Last last) (h : Reads x last p t arrived) :
    arrived ++ p.arriving page = converted (x.rows (x.pages (t.requests + 1))) ∧
      failure? page.rows = failure? (x.rows (x.pages (t.requests + 1))) := by
  have hbefore := hlast.clean h.early
  constructor
  · rw [Pager.arriving_of_sorted (.inl (h.query ▸ hx.sorts)), hpage.rows, converted_throughFailure,
      h.arrived, rows_pages_succ, converted_append hbefore]
  · rw [rows_pages_succ, failure?_append, hbefore, hpage.failure_eq]
    rfl

theorem Reads.accept {page : Page RowResult} {u : Shared} (hx : x.Valid) (hlast : x.Last last)
    (h : Reads x last p t arrived) (hu : u = ⟨⟨x.left (t.requests + 1), false⟩, t.requests + 1⟩)
    (hpage : Brought x t.requests page) (hfills : p.fills page = false)
    (hclean : failure? page.rows = none) (hmore : p.endsWith page = false) :
    Reads x last (p.accept page).pager u (arrived ++ p.arriving page) := by
  have hcontinues := (hpage.continues_iff h.profile).mpr ⟨hclean, hmore⟩
  have hbefore : t.requests ≠ last := by
    intro heq
    exact hlast.ends (heq ▸ hcontinues)
  have hearly := h.early
  obtain ⟨hprofile, hquery, hsize⟩ := Pager.accept_keeps p page
  rw [(hpage.collected hx hlast h).1, hu]
  constructor
  · exact hprofile.trans h.profile
  · exact hquery.trans h.query
  · exact hsize.trans h.size
  · rfl
  · change t.requests + 1 ≤ last
    omega
  · have hstrategy : p.profile.strategy = .statefulCursor := by
      rw [h.profile]
      rfl
    rw [(Pager.accept_of_more hfills hclean hmore).2.2 hstrategy, if_neg (Nat.succ_ne_zero _)]
    exact hpage.continuation.trans (if_pos hcontinues.1)
  · rfl

/-- A page before the last brings the reading on, and the last one ends it. -/
theorem Reads.brings {page : Page RowResult} {u : Shared} (hx : x.Valid) (hlast : x.Last last)
    (h : Reads x last p t arrived) (ha : Pager.Asks p arrived)
    (hu : u = ⟨⟨x.left (t.requests + 1), false⟩, t.requests + 1⟩)
    (hpage : Brought x t.requests page) :
    Pager.Brings (converted (x.rows (x.pages (last + 1)))) (failure? (x.rows (x.pages (last + 1))))
      (Reads x last) (fun t => t.requests = last + 1) p arrived page u := by
  obtain ⟨hall, hfailure⟩ := hpage.collected hx hlast h
  have hearly := h.early
  constructor
  · rw [hall]
    exact converted_prefix ((x.pages_prefix (by omega)).map _)
  · intro hfull
    have hroom := Pager.room_iff ha.tracks ha.room page
    rw [hroom.mp (.inl (h.query ▸ hx.limitless))] at hfull
    cases hfull
  · intro _ e he
    have hstops : ¬ x.Continues t.requests := by
      rw [hpage.continues_iff h.profile, he]
      exact fun hgoes => Option.some_ne_none e hgoes.1
    rw [hall, hu, ← hlast.eq_of_stops hearly hstops, ← hfailure]
    exact ⟨rfl, he, rfl⟩
  · intro _ hclean hend
    have hstops : ¬ x.Continues t.requests := by
      rw [hpage.continues_iff h.profile, hend]
      exact fun hgoes => Bool.noConfusion hgoes.2
    rw [hall, hu, ← hlast.eq_of_stops hearly hstops, ← hfailure]
    exact ⟨rfl, hclean, rfl⟩
  · intro hfills hclean hmore
    exact h.accept hx hlast hu hpage hfills hclean hmore

theorem feeds_pages (b : Bucket) (hx : x.Valid) (hlast : x.Last last) :
    Pager.Feeds (b.source x.service) (converted (x.rows (x.pages (last + 1))))
      (failure? (x.rows (x.pages (last + 1)))) (Reads x last) (fun t => t.requests = last + 1) := by
  intro p t arrived ha hread
  obtain ⟨page, hpage, hstate, hbrought⟩ := hread.fetched b hx hlast
  exact ⟨page, hpage, hread.brings hx hlast ha hstate hbrought⟩

/-- A stream yields what the fetches bring, each record once and up to the first that does not read as an
entity, and makes no fetch after the last. -/
theorem Valid.stream (hx : x.Valid) (hlast : x.Last last) {session : Session Shared} {b : Bucket}
    (hsource : session.sourceFor x.query.collection = .ok (b.source x.service))
    (hsize : session.pageSize = x.pageSize) :
    ∃ t, session.stream x.query = .ok (b.source x.service, t) ∧ ∀ n,
      let items := x.items (x.pages (last + 1))
      let o := (t.take (b.source x.service) n).run ⟨{ store := x.store }, 0⟩
      o.answer.1 = items.take n ∧ (items.length < n → o.state.requests = last + 1) := by
  obtain ⟨p, hp, hstream⟩ := stream_start hsource
  refine ⟨{ pager := p }, hstream, ?_⟩
  intro n
  have hstart : Reads x last p ⟨{ store := x.store }, 0⟩ [] := by
    rw [Pager.eq_of_new hp]
    exact ⟨rfl, rfl, hsize, rfl, Nat.zero_le _, rfl, rfl⟩
  have htake := EntityStream.take_of_feed hp (feeds_pages b hx hlast) hstart n
  have hskip : p.engineSkip = 0 := by
    rw [Pager.eq_of_new hp]
    simp only [Pager.engineSkip, hx.skipless]
    rfl
  have hlimit : p.query.limit = 0 := by
    rw [Pager.eq_of_new hp]
    exact hx.limitless
  rw [Pager.items_eq_readThrough, hskip, hlimit, readThrough_eq_capped, capped_zero,
    ← x.items_eq] at htake
  exact htake

end

end Sharing

end StoreQuery.MapStore
