import StoreQuery.Proofs.Paging.Feed
/-!
A source that serves a list of rows as its profile promises. Whatever it does by itself, request
after request brings the rows in its reach one after the other, so it feeds the query with them.
-/
namespace StoreQuery

variable {σ : Type} {source : Source σ} {q : Query} {rows : List RowResult} {Holds : σ → Prop}
  {Place : σ → Token → Nat → Prop}

/-- The rows that a request reaches; a store that applies limits cuts them off at its own. -/
def Profile.reach (profile : Profile) (w : Window) (rows : List RowResult) : List RowResult :=
  match profile.windowing with
  | .nativeLimitOnly => capped w.limit rows
  | _ => rows

/-- A page of `count` rows from a position on, cut after the first that failed. What a page with a
failure says of the rows after it counts for nothing. -/
structure Chunk (rows : List RowResult) (start count : Nat) (page : Page RowResult) : Prop where
  rows_eq : page.rows = throughFailure ((rows.drop start).take count)
  complete : failure? page.rows = none → page.complete = true → rows.length ≤ start + count

/-- A source that serves rows as its profile promises, as long as its state stays good. Tokens stand
for positions; without one a request starts at its offset. -/
structure Serves (source : Source σ) (q : Query) (rows : List RowResult) (Holds : σ → Prop)
    (Place : σ → Token → Nat → Prop) : Prop where
  stateless : source.profile.strategy = .stateless → ∀ s c w, Holds s →
    ∃ page, ((source.fetch q c w).run s).answer = .ok page ∧
      Holds ((source.fetch q c w).run s).state ∧
      Chunk (source.profile.reach w rows) w.offset w.pageSize page
  stateful : source.profile.strategy = .statefulCursor → ∀ s (c : Cursor) w start, Holds s →
    (match c.token with
      | none => start = w.offset
      | some token => Place s token start) →
    ∃ page count, ((source.fetch q c w).run s).answer = .ok page ∧
      Holds ((source.fetch q c w).run s).state ∧
      (0 < count ∧ (w.pageSize ≠ 0 → count ≤ w.pageSize)) ∧
      Chunk (source.profile.reach w rows) start count page ∧
      (failure? page.rows = none → (page.continuation.isSome = true ↔
        start + count < (source.profile.reach w rows).length)) ∧
      ∀ token, page.continuation = some token →
        Place ((source.fetch q c w).run s).state token (start + count)

def Source.ofRows (profile : Profile) (rows : List RowResult) : Source Nat where
  profile := profile
  fetch _ c w := Step.modify fun position =>
    let reach := profile.reach w rows
    match profile.strategy with
    | .stateless =>
      (.ok (.partway (throughFailure ((reach.drop w.offset).take w.pageSize)) none), position)
    | .statefulCursor =>
      let start := if c.token.isNone then w.offset else position
      let count := if w.pageSize = 0 then reach.length + 1 else w.pageSize
      let token := if start + count < reach.length then some [] else none
      (.ok (.partway (throughFailure ((reach.drop start).take count)) token), start + count)

/-- Every profile can be served. -/
theorem serves_ofRows (profile : Profile) (q : Query) (rows : List RowResult) :
    Serves (Source.ofRows profile rows) q rows (fun _ => True)
      (fun position _ start => position = start) := by
  constructor
  · intro hstrategy s c w _
    simp only [Source.ofRows] at hstrategy ⊢
    rw [hstrategy]
    refine ⟨_, rfl, trivial, rfl, ?_⟩
    intro _ hcomplete
    cases hcomplete
  · intro hstrategy s c w start _ hstart
    simp only [Source.ofRows] at hstrategy ⊢
    rw [hstrategy]
    have hfrom : (if c.token.isNone then w.offset else s) = start := by
      cases hc : c.token with
      | none =>
        rw [hc] at hstart
        exact hstart.symm
      | some token =>
        rw [hc] at hstart
        exact hstart
    subst hfrom
    refine ⟨_, if w.pageSize = 0 then (profile.reach w rows).length + 1 else w.pageSize, rfl,
      trivial, ?_, ⟨rfl, fun _ hcomplete => Bool.noConfusion hcomplete⟩, ?_, fun _ _ => rfl⟩
    · split <;> omega
    · intro _
      simp only [Page.partway]
      split <;> simp [*]

namespace Pager

variable {p : Pager} {s t : σ} {page : Page RowResult} {arrived : List Entity} {k count : Nat}

def storeSkip (p : Pager) : Nat := if p.profile.windowing = .native then p.query.skip else 0

def scope (p : Pager) (rows : List RowResult) : List RowResult :=
  (p.profile.reach p.window rows).drop p.storeSkip

structure Reached (source : Source σ) (q : Query) (rows : List RowResult) (Holds : σ → Prop)
    (Place : σ → Token → Nat → Prop) (p : Pager) (s : σ) (arrived : List Entity) (k : Nat) :
    Prop where
  profile : p.profile = source.profile
  query : p.query = q
  size : p.profile.strategy = .stateless → p.pageSize ≠ 0
  holds : Holds s
  within : k ≤ (p.scope rows).length
  received : p.received = k
  clean : failure? ((p.scope rows).take k) = none
  arrived : arrived = converted ((p.scope rows).take k)
  cursor : p.profile.strategy = .statefulCursor →
    match p.cursor.token with
    | none => k = 0
    | some token => Place s token (p.storeSkip + k)

structure Reply (rows : List RowResult) (Place : σ → Token → Nat → Prop) (p : Pager) (k count : Nat)
    (page : Page RowResult) (t : σ) : Prop where
  pos : 0 < count
  rows_eq : page.rows = throughFailure (((p.scope rows).drop k).take count)
  complete : failure? page.rows = none → page.complete = true →
    (p.scope rows).length ≤ k + count
  stateless : p.profile.strategy = .stateless → count = p.windowPageSize
  stateful : p.profile.strategy = .statefulCursor →
    (failure? page.rows = none →
      (page.continuation.isSome = true ↔ k + count < (p.scope rows).length)) ∧
      ∀ token, page.continuation = some token → Place t token (p.storeSkip + (k + count))

theorem length_scope (p : Pager) (rows : List RowResult) :
    (p.scope rows).length = (p.profile.reach p.window rows).length - p.storeSkip :=
  List.length_drop

theorem length_reach_le (p : Pager) (rows : List RowResult) :
    (p.profile.reach p.window rows).length ≤ rows.length := by
  simp only [Profile.reach]
  split
  · exact length_capped_le _ _
  · exact Nat.le_refl _

/-- Offsets stop at the largest count, past all rows. -/
theorem windowOffset_cases (hstrategy : p.profile.strategy = .stateless) (hreceived : p.received = k)
    (hrows : rows.length ≤ maxCount) :
    p.windowOffset = p.storeSkip + k ∨
      (rows.length ≤ p.windowOffset ∧ rows.length ≤ p.storeSkip + k) := by
  simp only [windowOffset, storeSkip, cappedAdd]
  rw [hstrategy, hreceived]
  cases p.profile.windowing with
  | native =>
    simp only [if_true]
    omega
  | nativeLimitOnly => exact .inl (Nat.zero_add k).symm
  | clientSide => exact .inl (Nat.zero_add k).symm

theorem Reached.length_arrived (h : Reached source q rows Holds Place p s arrived k) :
    arrived.length = k := by
  rw [h.arrived, length_converted h.clean, List.length_take]
  exact Nat.min_eq_left h.within

theorem windowPageSize_pos (h : Reached source q rows Holds Place p s arrived k)
    (ha : Asks p arrived) (hstrategy : p.profile.strategy = .stateless) : 0 < p.windowPageSize := by
  have hsize := h.size hstrategy
  have hroom := ha.room
  by_cases hnative : p.profile.windowing = .native ∧ 0 < p.query.limit
  · have hskip : p.engineSkip = 0 := by
      simp [engineSkip, Profile.skipsClientSide, hnative.1]
    simp only [Room, hskip, List.drop_zero, h.length_arrived] at hroom
    simp only [windowPageSize, if_pos hnative, if_neg hsize, h.received]
    omega
  · simp only [windowPageSize, if_neg hnative]
    omega

theorem reply_of_stateless (h : Reached source q rows Holds Place p s arrived k)
    (ha : Asks p arrived) (hstrategy : p.profile.strategy = .stateless)
    (hrows : rows.length ≤ maxCount)
    (hchunk : Chunk (p.profile.reach p.window rows) p.windowOffset p.windowPageSize page) :
    Reply rows Place p k p.windowPageSize page t := by
  have hlen := length_scope p rows
  have hcases := windowOffset_cases hstrategy h.received
    (Nat.le_trans (length_reach_le p rows) hrows)
  constructor
  · exact windowPageSize_pos h ha hstrategy
  · rw [hchunk.rows_eq]
    simp only [scope]
    rw [List.drop_drop]
    rcases hcases with hsame | ⟨hoffset, hskip⟩
    · rw [hsame]
    · rw [List.drop_eq_nil_of_le hoffset, List.drop_eq_nil_of_le hskip]
  · intro hclean hcomplete
    have hle := hchunk.complete hclean hcomplete
    omega
  · exact fun _ => rfl
  · intro hother
    rw [hstrategy] at hother
    cases hother

theorem windowOffset_of_stateful (hstrategy : p.profile.strategy = .statefulCursor) :
    p.windowOffset = p.storeSkip := by
  simp only [windowOffset, storeSkip]
  rw [hstrategy]
  cases p.profile.windowing <;> rfl

/-- A source that serves the rows answers a pager that asks with the next of them. -/
theorem exists_reply (hserves : Serves source q rows Holds Place) (hrows : rows.length ≤ maxCount)
    (h : Reached source q rows Holds Place p s arrived k) (ha : Asks p arrived) :
    ∃ page count, (p.fetched source s).answer = .ok page ∧ Holds (p.fetched source s).state ∧
      Reply rows Place p k count page (p.fetched source s).state := by
  simp only [fetched]
  have hquery := h.query
  have hprofile := h.profile
  cases hstrategy : p.profile.strategy with
  | stateless =>
    obtain ⟨page, hpage, hholds, hchunk⟩ :=
      hserves.stateless (hprofile ▸ hstrategy) s p.cursor p.window h.holds
    rw [← hprofile] at hchunk
    rw [hquery]
    exact ⟨page, p.windowPageSize, hpage, hholds, reply_of_stateless h ha hstrategy hrows hchunk⟩
  | statefulCursor =>
    have hcursor := h.cursor hstrategy
    obtain ⟨page, count, hpage, hholds, ⟨hpos, _⟩, hchunk, hmore, hplace⟩ :=
      hserves.stateful (hprofile ▸ hstrategy) s p.cursor p.window (p.storeSkip + k) h.holds (by
        cases hc : p.cursor.token with
        | none =>
          rw [hc] at hcursor
          rw [hcursor]
          exact (windowOffset_of_stateful hstrategy).symm
        | some token =>
          rw [hc] at hcursor
          exact hcursor)
    rw [← hprofile] at hchunk hmore
    rw [hquery]
    refine ⟨page, count, hpage, hholds, hpos, ?_, ?_, ?_, ?_⟩
    · rw [hchunk.rows_eq]
      simp only [scope]
      rw [List.drop_drop]
    · intro hclean hcomplete
      have hle := hchunk.complete hclean hcomplete
      rw [length_scope]
      omega
    · intro hother
      rw [hstrategy] at hother
      cases hother
    · intro _
      rw [length_scope]
      refine ⟨fun hclean => (hmore hclean).trans (by omega), ?_⟩
      intro token htoken
      rw [← Nat.add_assoc]
      exact hplace token htoken

theorem Reply.rows_of_clean (h : Reply rows Place p k count page t)
    (hclean : failure? page.rows = none) : page.rows = ((p.scope rows).drop k).take count := by
  rw [h.rows_eq] at hclean ⊢
  rw [failure?_throughFailure] at hclean
  exact throughFailure_of_none hclean

theorem Reply.whole (h : Reply rows Place p k count page t) (hclean : failure? page.rows = none)
    (hends : p.endsWith page = false) :
    page.rows.length = count ∧ k + count ≤ (p.scope rows).length := by
  have hlen := congrArg List.length (h.rows_of_clean hclean)
  rw [List.length_take, List.length_drop] at hlen
  have hwhole : k + count ≤ (p.scope rows).length := by
    simp only [endsWith] at hends
    cases hstrategy : p.profile.strategy with
    | stateless =>
      simp only [hstrategy, Bool.or_eq_false_iff, decide_eq_false_iff_not] at hends
      have hcount := h.stateless hstrategy
      have hpos := h.pos
      omega
    | statefulCursor =>
      simp only [hstrategy, Bool.or_eq_false_iff] at hends
      obtain ⟨hmore, _⟩ := h.stateful hstrategy
      have hsome : page.continuation.isSome = true := by
        rw [← Option.not_isNone, hends.1.1]
        rfl
      exact Nat.le_of_lt ((hmore hclean).mp hsome)
  omega

theorem Reply.last (h : Reply rows Place p k count page t) (hclean : failure? page.rows = none)
    (hends : p.endsWith page = true) : (p.scope rows).length ≤ k + count := by
  have hlen := congrArg List.length (h.rows_of_clean hclean)
  rw [List.length_take, List.length_drop] at hlen
  have hpos := h.pos
  simp only [endsWith] at hends
  cases hstrategy : p.profile.strategy with
  | stateless =>
    simp only [hstrategy, Bool.or_eq_true, beq_iff_eq, decide_eq_true_eq] at hends
    have hcount := h.stateless hstrategy
    rcases hends with (hcomplete | hzero) | hshort
    · exact h.complete hclean hcomplete
    · omega
    · omega
  | statefulCursor =>
    simp only [hstrategy, Bool.or_eq_true, beq_iff_eq] at hends
    obtain ⟨hmore, _⟩ := h.stateful hstrategy
    rcases hends with (hnone | hcomplete) | hempty
    · apply Nat.le_of_not_lt
      intro hlt
      have hsome := (hmore hclean).mpr hlt
      rw [← Option.not_isNone, hnone] at hsome
      cases hsome
    · exact h.complete hclean hcomplete
    · omega

theorem scope_congr {p q : Pager} (rows : List RowResult) (hprofile : q.profile = p.profile) (hquery : q.query = p.query) :
    q.scope rows = p.scope rows ∧ q.storeSkip = p.storeSkip := by
  have hskip : q.storeSkip = p.storeSkip := by
    simp only [storeSkip]
    rw [hprofile, hquery]
  refine ⟨?_, hskip⟩
  simp only [scope, Profile.reach, window, windowLimit]
  rw [hskip, hprofile, hquery]

/-- After a whole page the next request resumes where it stopped. -/
theorem Reached.accept (h : Reached source q rows Holds Place p s arrived k)
    (hr : Reply rows Place p k count page t) (hholds : Holds t) (hrows : rows.length ≤ maxCount)
    (hsorted : q.sorts.length ≤ 1 ∨ source.profile.sort ≠ .pageSort)
    (hfills : p.fills page = false) (hclean : failure? page.rows = none)
    (hends : p.endsWith page = false) :
    Reached source q rows Holds Place (p.accept page).pager t (arrived ++ p.arriving page)
      (k + count) := by
  obtain ⟨hprofile, hquery, hsize⟩ := accept_keeps p page
  obtain ⟨hscope, hskip⟩ := scope_congr rows hprofile hquery
  obtain ⟨hlength, hwithin⟩ := hr.whole hclean hends
  have hpage := hr.rows_of_clean hclean
  have htake : (p.scope rows).take (k + count) = (p.scope rows).take k ++ page.rows := by
    rw [hpage, List.take_add]
  constructor
  · exact hprofile.trans h.profile
  · exact hquery.trans h.query
  · rw [hprofile, hsize]
    exact h.size
  · exact hholds
  · rw [hscope]
    exact hwithin
  · rw [received_accept, h.received, hlength]
    simp only [cappedAdd]
    have hle := length_reach_le p rows
    have hlen := length_scope p rows
    omega
  · rw [hscope, htake, failure?_append, h.clean]
    exact hclean
  · rw [hscope, htake, converted_append h.clean, ← h.arrived, arriving_of_sorted]
    rw [h.query, h.profile]
    exact hsorted
  · rw [hprofile, hskip]
    intro hstrategy
    obtain ⟨_, hplace⟩ := hr.stateful hstrategy
    rw [(accept_of_more hfills hclean hends).2.2 hstrategy]
    simp only [endsWith] at hends
    simp only [hstrategy, Bool.or_eq_false_iff] at hends
    cases hnext : page.continuation with
    | none =>
      rw [hnext] at hends
      cases hends.1.1
    | some token => exact hplace token hnext

/-- A page that brings the next of the rows, where those before it are clean. -/
theorem brings_of_part {scope : List RowResult} {Holds : Pager → σ → List Entity → Prop}
    (hbefore : failure? (scope.take k) = none) (harrived : arrived = converted (scope.take k))
    (harriving : p.arriving page = converted page.rows)
    (hrows : page.rows = throughFailure ((scope.drop k).take count))
    (hlast : failure? page.rows = none → p.endsWith page = true → scope.length ≤ k + count)
    (hmore : p.fills page = false → failure? page.rows = none → p.endsWith page = false →
      Holds (p.accept page).pager t (arrived ++ p.arriving page)) :
    Brings (converted scope) (failure? scope) Holds (fun _ => True) p arrived page t := by
  have hall : arrived ++ p.arriving page = converted (scope.take (k + count)) := by
    rw [harriving, hrows, converted_throughFailure, List.take_add, converted_append hbefore, harrived]
  have hfailure : failure? (scope.take (k + count)) = failure? page.rows := by
    rw [hrows, failure?_throughFailure, List.take_add, failure?_append, hbefore]
    rfl
  have hsplit := List.take_append_drop (k + count) scope
  constructor
  · rw [hall]
    exact converted_take_prefix _ _
  · exact fun _ => trivial
  · intro _ e he
    rw [he] at hfailure
    rw [← hsplit, converted_append_of_failure hfailure, failure?_append, hfailure]
    exact ⟨hall, rfl, trivial⟩
  · intro _ hclean hends
    rw [List.take_of_length_le (hlast hclean hends)] at hall hfailure
    exact ⟨hall, hfailure.trans hclean, trivial⟩
  · exact hmore

theorem brings_of_reply (h : Reached source q rows Holds Place p s arrived k)
    (hr : Reply rows Place p k count page t) (hholds : Holds t) (hrows : rows.length ≤ maxCount)
    (hsorted : q.sorts.length ≤ 1 ∨ source.profile.sort ≠ .pageSort) :
    Brings (converted (p.scope rows)) (failure? (p.scope rows))
      (fun p s arrived => ∃ k, Reached source q rows Holds Place p s arrived k) (fun _ => True)
      p arrived page t := by
  have harriving : p.arriving page = converted page.rows := by
    apply arriving_of_sorted
    rw [h.query, h.profile]
    exact hsorted
  apply brings_of_part h.clean h.arrived harriving hr.rows_eq hr.last
  intro hfills hclean hends
  exact ⟨k + count, h.accept hr hholds hrows hsorted hfills hclean hends⟩

/-- A source that serves rows feeds a pager with those in its reach. -/
theorem feeds_of_serves (hserves : Serves source q rows Holds Place) (hrows : rows.length ≤ maxCount)
    (hsorted : q.sorts.length ≤ 1 ∨ source.profile.sort ≠ .pageSort)
    (hprofile : p.profile = source.profile) (hquery : p.query = q) :
    Feeds source (converted (p.scope rows)) (failure? (p.scope rows))
      (fun p s arrived => ∃ k, Reached source q rows Holds Place p s arrived k)
      (fun _ => True) := by
  intro asking s arrived ha hreached
  obtain ⟨k, hreached⟩ := hreached
  obtain ⟨page, count, hpage, hholds, hreply⟩ := exists_reply hserves hrows hreached ha
  have hsame := (scope_congr rows (hreached.profile.trans hprofile.symm)
    (hreached.query.trans hquery.symm)).1
  have hbrings := brings_of_reply hreached hreply hholds hrows hsorted
  rw [hsame] at hbrings
  exact ⟨page, hpage, hbrings⟩

theorem reached_start {pageSize : Nat} (h : new source.profile q pageSize = .ok p) (hholds : Holds s) :
    Reached source q rows Holds Place p s [] 0 := by
  have hp := eq_of_new h
  rw [hp]
  refine ⟨rfl, rfl, ?_, hholds, Nat.zero_le _, rfl, rfl, rfl, fun _ => rfl⟩
  dsimp only
  intro hstrategy
  simp only [startSize, statelessPageSize]
  split
  · omega
  · rename_i hsize
    intro hzero
    exact hsize ⟨hstrategy, hzero⟩

end Pager

end StoreQuery
