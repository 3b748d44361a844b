import StoreQuery.Cql.Table
import StoreQuery.Proofs.Paging.Exhaustion
import StoreQuery.Proofs.Paging.Windowing
/-!
The two ways of reading a table: page by page, each from the paging state of the page before it, or all
at once. Over a cluster that is faithful to a list of rows both yield the same, and what is read at once
takes a single selection, whatever the cluster says about what follows.
-/
namespace StoreQuery.Cql

variable {σ : Type} {c : Cluster σ} {k : Keyspace} {q : Query} {rs : List Relation} {rows : List Row}
  {Holds : σ → Prop} {Place : σ → StoreQuery.Token → Nat → Prop} {p : Pager} {s t : σ}
  {arrived : List Entity} {n : Nat}

def Select.reach (sel : Select) (rows : List Row) : List Row := sel.limit.elim rows rows.take

/-- A selection of the rows that a query asks for, of any number of them and from any of them on. -/
structure Select.Concerns (sel : Select) (q : Query) (rs : List Relation) : Prop where
  table : sel.table = q.collection
  relations : sel.relations = rs
  orderings : sel.orderings = q.sorts

/-- A cluster that answers selections for a query from a list of rows, as long as its state stays good.
Paging states stand for positions; without one a selection starts at the first row. -/
structure Cluster.Faithful (c : Cluster σ) (q : Query) (rs : List Relation) (rows : List Row)
    (Holds : σ → Prop) (Place : σ → StoreQuery.Token → Nat → Prop) : Prop where
  whole : ∀ s (sel : Select), Holds s → sel.Concerns q rs → sel.pageSize = none →
    sel.pagingState = none →
    ∃ page, ((c.query sel).run s).answer = .ok page ∧ Holds ((c.query sel).run s).state ∧
      page.rows = sel.reach rows
  paged : ∀ s (sel : Select) size start, Holds s → sel.Concerns q rs → sel.pageSize = some size →
    0 < size → (match sel.pagingState with
      | none => start = 0
      | some token => Place s token start) →
    ∃ page count, ((c.query sel).run s).answer = .ok page ∧ Holds ((c.query sel).run s).state ∧
      count ≤ size ∧ (start < (sel.reach rows).length → 0 < count) ∧
      page.rows = ((sel.reach rows).drop start).take count ∧
      (page.continuation.isSome = true ↔ start + count < (sel.reach rows).length) ∧
      (page.complete = true → (sel.reach rows).length ≤ start + count) ∧
      ∀ token, page.continuation = some token →
        Place ((c.query sel).run s).state token (start + count)

namespace Keyspace

def InPages (k : Keyspace) (p : Pager) : Prop := k.strategy = .statefulCursor ∧ p.pageSize ≠ 0

def selection (k : Keyspace) (p : Pager) (rs : List Relation) : Select :=
  { keyspace := k.name, table := p.query.collection, relations := rs, orderings := p.query.sorts
    limit := positive? p.windowLimit
    pageSize := match k.strategy with
      | .statefulCursor => positive? p.windowPageSize
      | .stateless => none
    pagingState := match k.strategy with
      | .statefulCursor => p.cursor.token
      | .stateless => none
    allowFiltering := k.allowFiltering, consistency := k.consistency }

theorem select_eq (h : relationsOf? p.query.condition = .ok rs) :
    k.select p.query p.cursor p.window = .ok (k.selection p rs) := by
  rw [select, h]
  cases hstrategy : k.strategy with
  | statefulCursor => simp only [selection, hstrategy]; rfl
  | stateless => simp only [selection, hstrategy]; rfl

theorem concerns_selection (k : Keyspace) (p : Pager) (rs : List Relation) :
    (k.selection p rs).Concerns p.query rs := ⟨rfl, rfl, rfl⟩

theorem windowPageSize_eq (h : p.profile = k.profile) : p.windowPageSize = p.pageSize := by
  rw [Pager.windowPageSize, if_neg]
  rw [h]
  rintro ⟨hnative, -⟩
  cases hnative

theorem pageSize_selection (rs : List Relation) (h : p.profile = k.profile) :
    (k.InPages p → (k.selection p rs).pageSize = some p.pageSize) ∧
      (¬ k.InPages p → (k.selection p rs).pageSize = none) := by
  have hsize := windowPageSize_eq h
  constructor
  · rintro ⟨hstrategy, hpaged⟩
    simp only [selection, hstrategy, hsize, positive?]
    exact if_pos (Nat.pos_of_ne_zero hpaged)
  · intro hwhole
    cases hstrategy : k.strategy with
    | stateless => simp only [selection, hstrategy]
    | statefulCursor =>
      have hzero : p.pageSize = 0 := by
        by_contra hpaged
        exact hwhole ⟨hstrategy, hpaged⟩
      simp only [selection, hstrategy, hsize, hzero, positive?]
      rfl

theorem reach_selection (k : Keyspace) (p : Pager) (rs : List Relation) (rows : List Row) :
    (k.selection p rs).reach rows = capped p.windowLimit rows := by
  simp only [Select.reach, selection, positive?]
  by_cases hlimit : 0 < p.windowLimit
  · rw [if_pos hlimit, capped_of_pos hlimit]
    rfl
  · rw [if_neg hlimit, Nat.eq_zero_of_not_pos hlimit, capped_zero]
    rfl

/-- The rows that a pager reads, converted. -/
theorem scope_eq (rs : List Relation) (rows : List Row) (h : p.profile = k.profile)
    (f : Row → RowResult) :
    p.scope (rows.map f) = ((k.selection p rs).reach rows).map f := by
  rw [reach_selection, map_capped]
  simp only [Pager.scope, Pager.storeSkip, h]
  rfl

/-- What a pager gets of a page; of what comes all at once the end counts for nothing. -/
def received (k : Keyspace) (p : Pager) (rs : List Relation) (page : Page Row) : Page RowResult :=
  { rows := throughFailure (page.rows.map (Row.toEntity p.query.collection))
    continuation := if (k.selection p rs).pageSize.isNone then none else page.continuation
    complete := (k.selection p rs).pageSize.isNone || page.complete }

theorem fetched_eq (hcompiles : relationsOf? p.query.condition = .ok rs) (c : Cluster σ) (s : σ) :
    let o := (c.query (k.selection p rs)).run s
    (p.fetched (k.source c) s).state = o.state ∧
      (p.fetched (k.source c) s).answer =
        (o.answer.mapError QueryError.transport).map (k.received p rs) := by
  simp only [Pager.fetched, source, Adapter.source, Adapter.fetch, select_eq hcompiles, runSelect,
    Step.answer_bind, Step.state_bind]
  generalize (c.query (k.selection p rs)).run s = o
  obtain ⟨answer, state, log⟩ := o
  cases answer with
  | error e => exact ⟨rfl, rfl⟩
  | ok page =>
    refine ⟨rfl, ?_⟩
    simp only [Except.mapError, Except.map, received]
    rw [← convertRows_eq_throughFailure]
    cases (k.selection p rs).pageSize with
    | none => rfl
    | some size => rfl

abbrev converts (q : Query) (rows : List Row) : List RowResult := rows.map (Row.toEntity q.collection)

/-- So many of the rows were fetched, none of them a failure, and the next selection starts after
them. -/
structure Resumes (k : Keyspace) (q : Query) (rows : List Row) (Holds : σ → Prop)
    (Place : σ → StoreQuery.Token → Nat → Prop) (p : Pager) (s : σ) (arrived : List Entity)
    (n : Nat) : Prop where
  profile : p.profile = k.profile
  query : p.query = q
  holds : Holds s
  within : n ≤ (p.scope (converts q rows)).length
  clean : failure? ((p.scope (converts q rows)).take n) = none
  arrived : arrived = converted ((p.scope (converts q rows)).take n)
  cursor : match p.cursor.token with
    | none => n = 0
    | some token => k.InPages p ∧ Place s token n

structure Brought (k : Keyspace) (rows : List RowResult)
    (Place : σ → StoreQuery.Token → Nat → Prop) (p : Pager) (n count : Nat) (page : Page RowResult)
    (t : σ) : Prop where
  rows_eq : page.rows = throughFailure (((p.scope rows).drop n).take count)
  ended : failure? page.rows = none → p.endsWith page = true → (p.scope rows).length ≤ n + count
  more : failure? page.rows = none → p.endsWith page = false →
    n + count ≤ (p.scope rows).length ∧ k.InPages p ∧
      ∃ token, page.continuation = some token ∧ Place t token (n + count)

theorem endsWith_of_last {page : Page RowResult} (hcontinuation : page.continuation = none)
    (hcomplete : page.complete = true) : p.endsWith page = true := by
  rw [Pager.endsWith]
  cases p.profile.strategy with
  | stateless => simp [hcomplete]
  | statefulCursor => simp [hcontinuation]

theorem brought_whole {rows : List RowResult} :
    k.Brought rows Place p 0 (p.scope rows).length (.last (throughFailure (p.scope rows))) t := by
  constructor
  · rw [List.drop_zero, List.take_length]
    rfl
  · intro _ _
    omega
  · intro _ hends
    rw [endsWith_of_last rfl rfl] at hends
    cases hends

theorem brought_part {rows : List RowResult} {count : Nat} {page : Page RowResult}
    (hprofile : p.profile = k.profile) (hpages : k.InPages p)
    (hrows : page.rows = throughFailure (((p.scope rows).drop n).take count))
    (hpos : n < (p.scope rows).length → 0 < count)
    (hmore : page.continuation.isSome = true ↔ n + count < (p.scope rows).length)
    (hcomplete : page.complete = true → (p.scope rows).length ≤ n + count)
    (hplace : ∀ token, page.continuation = some token → Place t token (n + count)) :
    k.Brought rows Place p n count page t := by
  have hstrategy : p.profile.strategy = .statefulCursor := by
    rw [hprofile]
    exact hpages.1
  constructor
  · exact hrows
  · intro hclean hends
    rw [hrows, failure?_throughFailure] at hclean
    rw [throughFailure_of_none hclean] at hrows
    simp only [Pager.endsWith, hstrategy, Bool.or_eq_true, beq_iff_eq, Option.isNone_iff_eq_none,
      hrows, List.length_take, List.length_drop] at hends
    rcases hends with (hnone | hlast) | hempty
    · apply Nat.le_of_not_lt
      intro hlt
      rw [hnone] at hmore
      cases hmore.mpr hlt
    · exact hcomplete hlast
    · omega
  · intro _ hends
    simp only [Pager.endsWith, hstrategy, Bool.or_eq_false_iff] at hends
    obtain ⟨token, htoken⟩ := Option.isSome_iff_exists.mp (Option.isNone_eq_false_iff.mp hends.1.1)
    have hlt := hmore.mp (by rw [htoken]; rfl)
    exact ⟨Nat.le_of_lt hlt, hpages, token, htoken, hplace token htoken⟩

/-- A cluster that is faithful to the rows answers a pager with the next of them. -/
theorem exists_brought (hcompiles : relationsOf? q.condition = .ok rs)
    (hfaithful : c.Faithful q rs rows Holds Place) (h : k.Resumes q rows Holds Place p s arrived n) :
    ∃ page count, (p.fetched (k.source c) s).answer = .ok page ∧
      Holds (p.fetched (k.source c) s).state ∧
      k.Brought (converts q rows) Place p n count page (p.fetched (k.source c) s).state := by
  obtain rfl := h.query
  have hscope := scope_eq rs rows h.profile (Row.toEntity p.query.collection)
  have hlength := congrArg List.length hscope
  rw [List.length_map] at hlength
  obtain ⟨hstate, hanswer⟩ := fetched_eq (k := k) hcompiles c s
  have hconcerns := concerns_selection k p rs
  have hcursor := h.cursor
  by_cases hpages : k.InPages p
  · have hsize := (pageSize_selection rs h.profile).1 hpages
    obtain ⟨page, count, hpage, hholds, -, hpos, hrows, hmore, hcomplete, hplace⟩ :=
      hfaithful.paged s _ p.pageSize n h.holds hconcerns hsize (Nat.pos_of_ne_zero hpages.2) (by
        simp only [selection, hpages.1]
        cases htoken : p.cursor.token with
        | none =>
          rw [htoken] at hcursor
          exact hcursor
        | some token =>
          rw [htoken] at hcursor
          exact hcursor.2)
    rw [hpage] at hanswer
    simp only [Except.mapError, Except.map, received, hsize] at hanswer
    rw [← hlength] at hpos hmore hcomplete
    refine ⟨_, count, hanswer, hstate ▸ hholds, ?_⟩
    apply brought_part h.profile hpages
    · rw [hscope, hrows, List.map_take, List.map_drop]
    · exact hpos
    · exact hmore
    · exact hcomplete
    · exact hstate ▸ hplace
  · have hsize := (pageSize_selection rs h.profile).2 hpages
    have hfresh : p.cursor.token = none := by
      cases htoken : p.cursor.token with
      | none => rfl
      | some token =>
        rw [htoken] at hcursor
        exact (hpages hcursor.1).elim
    rw [hfresh] at hcursor
    obtain rfl : n = 0 := hcursor
    obtain ⟨page, hpage, hholds, hrows⟩ := hfaithful.whole s _ h.holds hconcerns hsize (by
      simp only [selection]
      cases k.strategy with
      | stateless => rfl
      | statefulCursor => exact hfresh)
    rw [hpage] at hanswer
    simp only [Except.mapError, Except.map, received, hsize] at hanswer
    rw [hrows, ← hscope] at hanswer
    exact ⟨_, _, hanswer, hstate ▸ hholds, brought_whole⟩

theorem arriving_eq (h : p.profile = k.profile) (page : Page RowResult) :
    p.arriving page = converted page.rows := by
  apply Pager.arriving_of_sorted
  rw [h]
  exact .inr SortSupport.noConfusion

/-- After a whole page the next selection starts where it stopped. -/
theorem Resumes.accept {page : Page RowResult} {count : Nat}
    (h : k.Resumes q rows Holds Place p s arrived n)
    (hb : k.Brought (converts q rows) Place p n count page t) (hholds : Holds t)
    (hfills : p.fills page = false) (hclean : failure? page.rows = none)
    (hends : p.endsWith page = false) :
    k.Resumes q rows Holds Place (p.accept page).pager t (arrived ++ p.arriving page) (n + count) := by
  obtain ⟨hprofile, hquery, hsize⟩ := Pager.accept_keeps p page
  have hscope := (Pager.scope_congr (converts q rows) hprofile hquery).1
  obtain ⟨hwithin, hpages, token, htoken, hplace⟩ := hb.more hclean hends
  have hrows := hb.rows_eq
  rw [throughFailure_of_none (by rw [← failure?_throughFailure, ← hrows]; exact hclean)] at hrows
  have htake : (p.scope (converts q rows)).take (n + count) =
      (p.scope (converts q rows)).take n ++ page.rows := by
    rw [hrows, List.take_add]
  constructor
  · exact hprofile.trans h.profile
  · exact hquery.trans h.query
  · exact hholds
  · rw [hscope]
    exact hwithin
  · rw [hscope, htake, failure?_append, h.clean]
    exact hclean
  · rw [hscope, htake, converted_append h.clean, ← h.arrived, arriving_eq h.profile]
  · have hstrategy : p.profile.strategy = .statefulCursor := by
      rw [h.profile]
      exact hpages.1
    rw [(Pager.accept_of_more hfills hclean hends).2.2 hstrategy, htoken]
    exact ⟨⟨hpages.1, hsize ▸ hpages.2⟩, hplace⟩

/-- A cluster that is faithful to the rows feeds a pager with them, in pages or all at once. -/
theorem feeds_of_faithful (hcompiles : relationsOf? q.condition = .ok rs)
    (hfaithful : c.Faithful q rs rows Holds Place) (hprofile : p.profile = k.profile)
    (hquery : p.query = q) :
    Pager.Feeds (k.source c) (converted (p.scope (converts q rows)))
      (failure? (p.scope (converts q rows)))
      (fun p s arrived => ∃ n, k.Resumes q rows Holds Place p s arrived n) (fun _ => True) := by
  intro asking s arrived _ hresumes
  obtain ⟨n, hresumes⟩ := hresumes
  obtain ⟨page, count, hpage, hholds, hbrought⟩ := exists_brought hcompiles hfaithful hresumes
  rw [← (Pager.scope_congr (converts q rows) (hresumes.profile.trans hprofile.symm)
    (hresumes.query.trans hquery.symm)).1]
  refine ⟨page, hpage, ?_⟩
  apply Pager.brings_of_part hresumes.clean hresumes.arrived (arriving_eq hresumes.profile page)
    hbrought.rows_eq hbrought.ended
  intro hfills hclean hends
  exact ⟨n + count, hresumes.accept hbrought hholds hfills hclean hends⟩

theorem resumes_start {pageSize : Nat} (h : Pager.new k.profile q pageSize = .ok p) (hs : Holds s) :
    k.Resumes q rows Holds Place p s [] 0 := by
  rw [Pager.eq_of_new h]
  exact ⟨rfl, rfl, hs, Nat.zero_le _, rfl, rfl, rfl⟩

def yields (k : Keyspace) (c : Cluster σ) (p : Pager) (s : σ) (n : Nat) : List RowResult :=
  (((EntityStream.mk p [] false).take (k.source c) n).run s).answer.1

theorem yields_eq {pageSize : Nat} (h : Pager.new k.profile q pageSize = .ok p)
    (hcompiles : relationsOf? q.condition = .ok rs)
    (hfaithful : c.Faithful q rs rows Holds Place) (hs : Holds s) (n : Nat) :
    k.yields c p s n = (p.items (converted (p.scope (converts q rows)))
      (failure? (p.scope (converts q rows)))).take n := by
  have hp := Pager.eq_of_new h
  have hprofile : p.profile = k.profile := by rw [hp]
  have hquery : p.query = q := by rw [hp]
  exact (EntityStream.take_of_feed h (feeds_of_faithful hcompiles hfaithful hprofile hquery)
    ⟨0, resumes_start h hs⟩ n).1

end Keyspace

structure Asked (σ : Type) where
  inner : σ
  selects : List Select := []

def Cluster.asked (c : Cluster σ) : Cluster (Asked σ) where
  query sel := fun a =>
    let o := (c.query sel).run a.inner
    ⟨o.answer, ⟨o.state, a.selects ++ [sel]⟩, o.log⟩
  execute w := Step.focus Asked.inner (fun s a => { a with inner := s }) (c.execute w)

namespace Keyspace

def selects (k : Keyspace) (c : Cluster σ) (p : Pager) (s : σ) (n : Nat) : List Select :=
  (((EntityStream.mk p [] false).polls (k.source c.asked) n).run ⟨s, []⟩).state.selects

def wholeSelect (k : Keyspace) (q : Query) (rs : List Relation) : Select :=
  { keyspace := k.name, table := q.collection, relations := rs, orderings := q.sorts
    limit := if 0 < q.limit then some (cappedAdd q.skip q.limit) else none
    pageSize := none, pagingState := none
    allowFiltering := k.allowFiltering, consistency := k.consistency }

theorem selection_whole (hprofile : p.profile = k.profile) (hfresh : p.cursor.token = none)
    (hwhole : ¬ k.InPages p) : k.selection p rs = k.wholeSelect p.query rs := by
  have hsize := (pageSize_selection rs hprofile).2 hwhole
  have hlimit : positive? p.windowLimit =
      if 0 < p.query.limit then some (cappedAdd p.query.skip p.query.limit) else none := by
    simp only [Pager.windowLimit, hprofile, profile, positive?]
    by_cases hpos : 0 < p.query.limit
    · rw [if_pos hpos, if_pos hpos, if_pos]
      simp only [cappedAdd, maxCount]
      omega
    · rw [if_neg hpos, if_neg hpos]
      rfl
  have hstate : (k.selection p rs).pagingState = none := by
    simp only [selection]
    cases k.strategy with
    | stateless => rfl
    | statefulCursor => exact hfresh
  show Select.mk _ _ _ _ _ (k.selection p rs).pageSize (k.selection p rs).pagingState _ _ = _
  rw [hsize, hstate, hlimit]
  rfl

/-- What is not read in pages takes one selection, whatever the cluster answers. -/
theorem selects_whole {pageSize : Nat} (h : Pager.new k.profile q pageSize = .ok p)
    (hcompiles : relationsOf? q.condition = .ok rs) (hwhole : ¬ k.InPages p) (c : Cluster σ) (s : σ)
    (n : Nat) : k.selects c p s (n + 1) = [k.wholeSelect q rs] := by
  have hp := Pager.eq_of_new h
  have hprofile : p.profile = k.profile := by rw [hp]
  obtain rfl : p.query = q := by rw [hp]
  have hfresh : p.cursor.token = none := by rw [hp]; rfl
  have hopen : ¬ p.Over := by
    rw [hp]
    rintro (hstate | hpending)
    · cases hstate
    · exact hpending rfl
  obtain ⟨hstate, hanswer⟩ := fetched_eq (k := k) hcompiles c.asked (⟨s, []⟩ : Asked σ)
  have hlast : ∀ page, (p.fetched (k.source c.asked) (⟨s, []⟩ : Asked σ)).answer = .ok page →
      p.endsWith page = true := by
    intro page hpage
    rw [hanswer] at hpage
    obtain ⟨_, -, rfl⟩ := map_eq_ok.mp hpage
    have hsize := (pageSize_selection rs hprofile).2 hwhole
    apply endsWith_of_last <;> simp only [received, hsize] <;> rfl
  obtain ⟨hafter, -⟩ := EntityStream.polls_once hopen (⟨s, []⟩ : Asked σ) hlast n
  rw [selects, hafter, hstate, ← selection_whole hprofile hfresh hwhole]
  rfl

def readBy (k : Keyspace) (strategy : Strategy) : Keyspace := { k with strategy := strategy }

end Keyspace

/-- Reading page by page and reading at once yield the same, up to a row that fails to convert and the
end after it, over every cluster that is faithful to the rows. Reading at once, and reading in pages of
no size, take one selection over any cluster. -/
theorem strategies_agree (c : Cluster σ) (k : Keyspace) (hcompiles : relationsOf? q.condition = .ok rs)
    (pageSize : Nat) :
    ∃ paged whole,
      Pager.new (k.readBy .statefulCursor).profile q pageSize = .ok paged ∧
      Pager.new (k.readBy .stateless).profile q pageSize = .ok whole ∧
      (∀ rows Holds Place s t, c.Faithful q rs rows Holds Place → Holds s → Holds t →
        ∃ items, (∀ n, (k.readBy .statefulCursor).yields c paged s n = items.take n) ∧
          (∀ n, (k.readBy .stateless).yields c whole t n = items.take n) ∧
          (rows.length < 2 ^ 64 →
            items = Windowing.nativeLimitOnly.reading q.skip q.limit (Keyspace.converts q rows))) ∧
      (∀ s n, (k.readBy .stateless).selects c whole s (n + 1) = [k.wholeSelect q rs]) ∧
      (pageSize = 0 →
        ∀ s n, (k.readBy .statefulCursor).selects c paged s (n + 1) = [k.wholeSelect q rs]) := by
  obtain ⟨paged, hpaged⟩ : ∃ p, Pager.new (k.readBy .statefulCursor).profile q pageSize = .ok p :=
    ⟨_, rfl⟩
  obtain ⟨whole, hwhole⟩ : ∃ p, Pager.new (k.readBy .stateless).profile q pageSize = .ok p := ⟨_, rfl⟩
  refine ⟨paged, whole, hpaged, hwhole, ?_, ?_, ?_⟩
  · intro rows Holds Place s t hfaithful hs ht
    refine ⟨_, Keyspace.yields_eq hpaged hcompiles hfaithful hs, ?_, ?_⟩
    · intro n
      rw [Keyspace.yields_eq hwhole hcompiles hfaithful ht, Pager.eq_of_new hpaged,
        Pager.eq_of_new hwhole]
      rfl
    · intro hrows
      rw [Pager.items_scope paged (by rw [List.length_map]; exact Nat.le_sub_one_of_lt hrows),
        Pager.eq_of_new hpaged]
      rfl
  · exact Keyspace.selects_whole hwhole hcompiles (fun h => by cases h.1) c
  · rintro rfl
    apply Keyspace.selects_whole hpaged hcompiles
    rintro ⟨-, hsize⟩
    rw [Pager.eq_of_new hpaged] at hsize
    exact hsize rfl

/-- Rows in memory as a cluster: its state is where the last page ended. What it says of the end of a
whole answer is of no use. -/
def Cluster.ofRows (rows : List Row) : Cluster Nat where
  query sel := Step.modify fun position =>
    let reach := sel.reach rows
    match sel.pageSize with
    | none => (.ok (.partway reach (some [])), position)
    | some size =>
      let start := if sel.pagingState.isNone then 0 else position
      let token := if start + size < reach.length then some [] else none
      (.ok ⟨(reach.drop start).take size, token, token.isNone⟩, start + size)
  execute _ := pure (.ok 0)

theorem faithful_ofRows (q : Query) (rs : List Relation) (rows : List Row) :
    (Cluster.ofRows rows).Faithful q rs rows (fun _ => True)
      (fun position _ start => position = start) := by
  constructor
  · intro s sel _ _ hsize _
    simp only [Cluster.ofRows, hsize]
    exact ⟨_, rfl, trivial, rfl⟩
  · intro s sel size start _ _ hsize hpos hstart
    have hfrom : (if sel.pagingState.isNone then 0 else s) = start := by
      cases hstate : sel.pagingState with
      | none =>
        rw [hstate] at hstart
        exact hstart.symm
      | some token =>
        rw [hstate] at hstart
        exact hstart
    subst hfrom
    simp only [Cluster.ofRows, hsize]
    refine ⟨_, size, rfl, trivial, Nat.le_refl _, fun _ => hpos, rfl, ?_, ?_, fun _ _ => rfl⟩
    · split <;> simp [*]
    · intro hcomplete
      apply Nat.le_of_not_lt
      intro hlt
      rw [if_pos hlt] at hcomplete
      cases hcomplete

/-- Of the rows past the first, the second has a column without a name. -/
theorem strategies_agree_to_failure :
    let k : Keyspace := ⟨"shop", false, "id", .stateless, none⟩
    let rows : List Row := [⟨[("id", .text "a")]⟩, ⟨[("id", .text "b")]⟩, ⟨[("", .text "c")]⟩,
      ⟨[("id", .text "d")]⟩]
    let q : Query := ⟨"items", none, [], 1, 3⟩
    let unnamed : QueryError := .invalidArgument "attribute name must not be empty"
    relationsOf? q.condition = .ok [] ∧ ∃ paged whole,
      Pager.new (k.readBy .statefulCursor).profile q 2 = .ok paged ∧
      Pager.new (k.readBy .stateless).profile q 2 = .ok whole ∧
      (∀ n, (k.readBy .statefulCursor).yields (.ofRows rows) paged 0 n =
        [.ok ⟨"items", [⟨"id", .text "b"⟩]⟩, .error unnamed].take n) ∧
      (∀ n, (k.readBy .stateless).yields (.ofRows rows) whole 0 n =
        [.ok ⟨"items", [⟨"id", .text "b"⟩]⟩, .error unnamed].take n) ∧
      ∀ n, (k.readBy .stateless).selects (.ofRows rows) whole 0 (n + 1) =
        [⟨"shop", "items", [], [], some 4, none, none, false, none⟩] := by
  intro k rows q unnamed
  have hcompiles : relationsOf? q.condition = .ok [] := rfl
  obtain ⟨paged, whole, hpaged, hwhole, hagree, hselects, -⟩ :=
    strategies_agree (.ofRows rows) k hcompiles 2
  obtain ⟨items, hpages, hall, hitems⟩ :=
    hagree rows _ _ 0 0 (faithful_ofRows q [] rows) trivial trivial
  obtain rfl : items = [.ok ⟨"items", [⟨"id", .text "b"⟩]⟩, .error unnamed] := by
    rw [hitems (by decide)]
    rfl
  exact ⟨hcompiles, paged, whole, hpaged, hwhole, hpages, hall, hselects 0⟩

end StoreQuery.Cql
