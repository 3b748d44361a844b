import StoreQuery.Proofs.MapStore.Requests
import StoreQuery.Proofs.Paging.Feed
import StoreQuery.Session
/-!
Reading a map through a session. Page after page the answers arrive, each at the position that the
token before it stands for, until the limit or the end is reached.
-/
namespace StoreQuery.MapStore

section

variable {clock : Nat → Nat} {live : Shelf} {q : Query} {predicate : Predicate} {pageSize : Nat}
  {p : Pager} {t : Timed} {arrived : List Entity} {b : Bucket}

/-- So many requests brought a whole page each, and more answers are left unless none was made. -/
structure ReadTo (clock : Nat → Nat) (live : Shelf) (q : Query) (answers : List Record)
    (pageSize : Nat) (p : Pager) (t : Timed) (arrived : List Entity) : Prop where
  profile : p.profile = MapStore.profile
  query : p.query = q
  size : p.pageSize = pageSize
  steady : Timed.Steady clock q.collection live t.store
  left : t.requests = 0 ∨ t.requests * pageSize < answers.length
  single : pageSize = 0 → t.requests = 0
  arrived : arrived = (answers.take (t.requests * pageSize)).map (Record.entity q.collection)
  cursor : p.cursor.token =
    if t.requests = 0 then none else some (positionToken (t.requests * pageSize))

/-- What a pager asks for that has made so many requests. -/
theorem mapQuery_of_requests [RegexEngine] {requests : Nat} (hprofile : p.profile = MapStore.profile)
    (hsize : p.pageSize = pageSize)
    (hcursor : p.cursor.token =
      if requests = 0 then none else some (positionToken (requests * pageSize)))
    (hposition : requests * pageSize ≤ maxCount)
    (hpredicate : Predicate.of p.query.condition = .ok predicate) :
    mapQuery p.query p.cursor p.window =
      .ok ⟨p.query.collection, predicate, p.query.sorts.head?, pageSize, requests * pageSize⟩ := by
  have hwindow : p.window.pageSize = pageSize := by
    simp only [Pager.window, Pager.windowPageSize, hprofile, MapStore.profile, hsize]
    rfl
  simp only [mapQuery]
  rw [hpredicate, hwindow, hcursor]
  by_cases hfirst : requests = 0
  · simp only [hfirst, if_true, Nat.zero_mul]
    rfl
  · simp only [hfirst, if_false, position?_positionToken hposition]
    rfl

theorem ReadTo.mapQuery_eq [RegexEngine] {answers : List Record}
    (h : ReadTo clock live q answers pageSize p t arrived)
    (hpredicate : Predicate.of q.condition = .ok predicate) (hsize : answers.length ≤ maxCount) :
    mapQuery p.query p.cursor p.window =
      .ok ⟨q.collection, predicate, q.sorts.head?, pageSize, t.requests * pageSize⟩ := by
  have hposition : t.requests * pageSize ≤ maxCount := by
    rcases h.left with hzero | hlt
    · rw [hzero, Nat.zero_mul]
      exact Nat.zero_le _
    · omega
  obtain rfl := h.query
  exact mapQuery_of_requests h.profile h.size h.cursor hposition hpredicate

structure PartOf (collection : String) (answers : List Record) (start stop : Nat)
    (page : Page RowResult) : Prop where
  rows : page.rows =
    (((answers.take stop).drop start).map (Record.entity collection)).map Except.ok
  continuation : page.continuation =
    if stop < answers.length then some (positionToken stop) else none
  complete : page.complete = decide (answers.length ≤ stop)

/-- A request brings the part of the answers from the position on that was reached. -/
theorem ReadTo.fetched [RegexEngine] (b : Bucket)
    (h : ReadTo clock live q (answersOf q.sorts.head? predicate live) pageSize p t arrived)
    (hpredicate : Predicate.of q.condition = .ok predicate)
    (hsize : (answersOf q.sorts.head? predicate live).length ≤ maxCount)
    (hreadable : ∀ r ∈ answersOf q.sorts.head? predicate live,
      Record.toEntity q.collection r = .ok (r.entity q.collection)) :
    let start := t.requests * pageSize
    let o := p.fetched (b.source (Timed.service clock)) t
    ∃ page, o.answer = .ok page ∧ o.state.requests = t.requests + 1 ∧
      Timed.Steady clock q.collection live o.state.store ∧
      PartOf q.collection (answersOf q.sorts.head? predicate live) start
        (Store.stopOf pageSize start (answersOf q.sorts.head? predicate live).length) page := by
  generalize hanswers : answersOf q.sorts.head? predicate live = answers at h hsize hreadable ⊢
  have hrequest := h.mapQuery_eq hpredicate hsize
  obtain ⟨hanswer, hrequests, hafter⟩ := Timed.run_query
    (q := ⟨q.collection, predicate, q.sorts.head?, pageSize, t.requests * pageSize⟩) h.steady
  simp only [hanswers] at hanswer
  obtain ⟨hrows, hstate⟩ := b.fetch_of_query hrequest hanswer
  have hstart : t.requests * pageSize ≤ answers.length := by
    rcases h.left with hzero | hlt
    · rw [hzero, Nat.zero_mul]
      exact Nat.zero_le _
    · exact Nat.le_of_lt hlt
  rw [Store.pageOf_eq hstart hsize] at hrows
  refine ⟨_, hrows, hstate ▸ hrequests, hstate ▸ hafter, ?_⟩
  have hconvert : ∀ stop, ∀ r ∈ (answers.take stop).drop (t.requests * pageSize),
      Record.toEntity p.query.collection r = .ok (r.entity q.collection) := by
    intro stop r hr
    rw [h.query]
    exact hreadable r (List.mem_of_mem_take (List.mem_of_mem_drop hr))
  dsimp only
  split
  · rename_i hlt
    refine ⟨convertRows_eq (hconvert _), ?_, ?_⟩
    · rw [if_pos hlt]
      rfl
    · exact (decide_eq_false (Nat.not_le.mpr hlt)).symm
  · rename_i hend
    refine ⟨convertRows_eq (hconvert _), ?_, ?_⟩
    · rw [if_neg hend]
      rfl
    · exact (decide_eq_true (Nat.not_lt.mp hend)).symm

variable {collection : String} {answers : List Record} {start stop : Nat} {page : Page RowResult}

theorem PartOf.endsWith_eq (h : PartOf collection answers start stop page)
    (hprofile : p.profile = MapStore.profile) (hstop : stop ≤ answers.length)
    (hpos : start < stop ∨ stop = answers.length) :
    p.endsWith page = decide (stop = answers.length) := by
  have hlength : page.rows.length = stop - start := by
    rw [h.rows, List.length_map, List.length_map, List.length_drop, List.length_take,
      Nat.min_eq_left hstop]
  simp only [Pager.endsWith, hprofile, MapStore.profile, h.continuation, h.complete, hlength]
  by_cases hlast : stop = answers.length
  · simp [hlast]
  · have hlt : stop < answers.length := by omega
    have hrows : stop - start ≠ 0 := by omega
    simp [hlt, hlast, hrows, Nat.not_le.mpr hlt]

theorem PartOf.clean (h : PartOf collection answers start stop page) :
    failure? page.rows = none := by
  rw [h.rows]
  exact failure?_map_ok _

theorem room_iff_length (hprofile : p.profile = MapStore.profile) (hquery : p.query = q) :
    p.Room arrived ↔ q.limit = 0 ∨ arrived.length - q.skip < q.limit := by
  have hskip : p.engineSkip = q.skip := by
    simp only [Pager.engineSkip, hprofile, hquery]
    rfl
  simp only [Pager.Room, hskip, hquery, List.length_drop]

theorem stopOf_cases (pageSize : Nat) {start total : Nat} (hstart : start ≤ total) :
    Store.stopOf pageSize start total = total ∨
      (pageSize ≠ 0 ∧ Store.stopOf pageSize start total = start + pageSize ∧
        start + pageSize < total) := by
  simp only [Store.stopOf]
  split <;> omega

structure Arrives (q : Query) (answers : List Record) (pageSize : Nat)
    (arrivals : Nat → List Entity) : Prop where
  length : ∀ n ≤ answers.length, (arrivals n).length = n
  page : ∀ (p : Pager) (page : Page RowResult) (made : Nat), p.profile = MapStore.profile →
    p.query = q → (pageSize = 0 → made = 0) → made * pageSize ≤ answers.length →
    PartOf q.collection answers (made * pageSize)
      (Store.stopOf pageSize (made * pageSize) answers.length) page →
    arrivals (made * pageSize) ++ p.arriving page =
      arrivals (Store.stopOf pageSize (made * pageSize) answers.length)
  within : ∀ made, made * pageSize ≤ answers.length →
    arrivals (made * pageSize) <+: arrivals answers.length

/-- A reading from whose requests it is known what has arrived. -/
def ReadWith (clock : Nat → Nat) (live : Shelf) (q : Query) (answers : List Record) (pageSize : Nat)
    (arrivals : Nat → List Entity) (p : Pager) (t : Timed) (arrived : List Entity) : Prop :=
  arrived = arrivals (t.requests * pageSize) ∧
    ∃ plain, ReadTo clock live q answers pageSize p t plain

theorem ReadTo.start_le (h : ReadTo clock live q answers pageSize p t arrived) :
    t.requests * pageSize ≤ answers.length := by
  rcases h.left with hzero | hlt
  · rw [hzero, Nat.zero_mul]
    exact Nat.zero_le _
  · exact Nat.le_of_lt hlt

/-- After a page that is not the last one, one more page was read. -/
theorem ReadTo.advance {u : Timed} (h : ReadTo clock live q answers pageSize p t arrived)
    (hpart : PartOf q.collection answers (t.requests * pageSize) (t.requests * pageSize + pageSize)
      page)
    (hsize : pageSize ≠ 0) (hlt : t.requests * pageSize + pageSize < answers.length)
    (hrequests : u.requests = t.requests + 1)
    (hsteady : Timed.Steady clock q.collection live u.store) (hfills : p.fills page = false)
    (hclean : failure? page.rows = none) (hmore : p.endsWith page = false) :
    ReadTo clock live q answers pageSize (p.accept page).pager u
      ((answers.take (u.requests * pageSize)).map (Record.entity q.collection)) := by
  obtain ⟨hprofile, hquery, hpageSize⟩ := Pager.accept_keeps p page
  have hmade : u.requests * pageSize = t.requests * pageSize + pageSize := by
    rw [hrequests, Nat.succ_mul]
  constructor
  · exact hprofile.trans h.profile
  · exact hquery.trans h.query
  · exact hpageSize.trans h.size
  · exact hsteady
  · omega
  · exact fun hzero => (hsize hzero).elim
  · rfl
  · rw [hmade, if_neg (by omega)]
    have hstrategy : p.profile.strategy = .statefulCursor := by
      rw [h.profile]
      rfl
    rw [(Pager.accept_of_more hfills hclean hmore).2.2 hstrategy]
    exact hpart.continuation.trans (if_pos hlt)

/-- A part of the answers brings a reading on, and the last one ends it in time. -/
theorem ReadTo.brings {u : Timed} {arrivals : Nat → List Entity}
    (h : ReadTo clock live q answers pageSize p t arrived)
    (harrives : Arrives q answers pageSize arrivals)
    (ha : Pager.Asks p (arrivals (t.requests * pageSize)))
    (hpart : PartOf q.collection answers (t.requests * pageSize)
      (Store.stopOf pageSize (t.requests * pageSize) answers.length) page)
    (hrequests : u.requests = t.requests + 1)
    (hsteady : Timed.Steady clock q.collection live u.store) :
    Pager.Brings (arrivals answers.length) none
      (ReadWith clock live q answers pageSize arrivals)
      (fun t => t.requests = requestsFor q.skip q.limit pageSize answers.length)
      p (arrivals (t.requests * pageSize)) page u := by
  have hstart := h.start_le
  have hall := harrives.page p page t.requests h.profile h.query h.single hstart hpart
  have hcases := stopOf_cases pageSize hstart
  have hcount := requestsFor_eq q.skip q.limit h.left h.single
  generalize hstop : Store.stopOf pageSize (t.requests * pageSize) answers.length = stop
    at hpart hcases hcount hall
  have hle : stop ≤ answers.length := by omega
  have hends := hpart.endsWith_eq h.profile hle (by omega)
  -- Room before and after the page depends on the numbers of answers alone.
  have hroom := ha.room
  rw [room_iff_length h.profile h.query, harrives.length _ hstart] at hroom
  have hfull := Pager.room_iff ha.tracks ha.room page
  rw [hall, room_iff_length h.profile h.query, harrives.length _ hle] at hfull
  constructor
  · rw [hall]
    obtain rfl | ⟨_, rfl, hlt⟩ := hcases
    · exact List.prefix_refl _
    · rw [← Nat.succ_mul] at hlt ⊢
      exact harrives.within _ (Nat.le_of_lt hlt)
  · intro hfills
    have hnot : ¬(q.limit = 0 ∨ stop - q.skip < q.limit) := by
      rw [hfull, hfills]
      exact Bool.noConfusion
    rw [hrequests]
    apply hcount hroom
    left
    omega
  · intro _ e he
    rw [hpart.clean] at he
    cases he
  · intro hfills _ hlast
    rw [hends, decide_eq_true_eq] at hlast
    rw [hall, hlast]
    refine ⟨rfl, rfl, ?_⟩
    have hopen := hfull.mpr hfills
    rw [hlast] at hopen
    rw [hrequests]
    exact hcount hroom (.inr ⟨hlast, hopen⟩)
  · intro hfills hclean hmore
    have hwhole := hmore
    rw [hends, decide_eq_false_iff_not] at hwhole
    obtain hlast | ⟨hsize, rfl, hlt⟩ := hcases
    · exact (hwhole hlast).elim
    refine ⟨?_, _, h.advance hpart hsize hlt hrequests hsteady hfills hclean hmore⟩
    rw [hall, hrequests, Nat.succ_mul]

/-- The answers feed a reading as they arrive. -/
theorem feeds_arrivals [RegexEngine] (b : Bucket) (clock : Nat → Nat) (pageSize : Nat)
    {arrivals : Nat → List Entity} (hpredicate : Predicate.of q.condition = .ok predicate)
    (harrives : Arrives q (answersOf q.sorts.head? predicate live) pageSize arrivals)
    (hsize : (answersOf q.sorts.head? predicate live).length ≤ maxCount)
    (hreadable : ∀ r ∈ answersOf q.sorts.head? predicate live,
      Record.toEntity q.collection r = .ok (r.entity q.collection)) :
    Pager.Feeds (b.source (Timed.service clock))
      (arrivals (answersOf q.sorts.head? predicate live).length) none
      (ReadWith clock live q (answersOf q.sorts.head? predicate live) pageSize arrivals)
      (fun t => t.requests = requestsFor q.skip q.limit pageSize
        (answersOf q.sorts.head? predicate live).length) := by
  rintro p t _ ha ⟨rfl, plain, hread⟩
  obtain ⟨page, hpage, hrequests, hsteady, hpart⟩ :=
    hread.fetched b hpredicate hsize hreadable
  exact ⟨page, hpage, hread.brings harrives ha hpart hrequests hsteady⟩

/-- With one sort key at most, the answers arrive as they are. -/
theorem arrives_take (hsorts : q.sorts.length ≤ 1) (answers : List Record) (pageSize : Nat) :
    Arrives q answers pageSize fun n => (answers.take n).map (Record.entity q.collection) where
  length n hn := by rw [List.length_map, List.length_take, Nat.min_eq_left hn]
  page p page made _ hquery _ hstart hpart := by
    have hcases := stopOf_cases pageSize hstart
    generalize Store.stopOf pageSize (made * pageSize) answers.length = stop at hpart hcases ⊢
    rw [Pager.arriving_of_sorted (.inl (hquery ▸ hsorts)), hpart.rows, converted_map_ok,
      ← List.map_append]
    congr 1
    have hsplit := List.take_append_drop (made * pageSize) (answers.take stop)
    rw [List.take_take, Nat.min_eq_left (by omega)] at hsplit
    exact hsplit
  within made _ := by
    rw [List.take_length]
    exact (List.take_prefix _ answers).map _

theorem feeds_answers [RegexEngine] (b : Bucket) (clock : Nat → Nat) (pageSize : Nat)
    (hpredicate : Predicate.of q.condition = .ok predicate)
    (hsorts : q.sorts.length ≤ 1)
    (hsize : (answersOf q.sorts.head? predicate live).length ≤ maxCount)
    (hreadable : ∀ r ∈ answersOf q.sorts.head? predicate live,
      Record.toEntity q.collection r = .ok (r.entity q.collection)) :
    Pager.Feeds (b.source (Timed.service clock))
      ((answersOf q.sorts.head? predicate live).map (Record.entity q.collection)) none
      (ReadTo clock live q (answersOf q.sorts.head? predicate live) pageSize)
      (fun t => t.requests = requestsFor q.skip q.limit pageSize
        (answersOf q.sorts.head? predicate live).length) := by
  have hfeeds := feeds_arrivals b clock pageSize hpredicate (arrives_take hsorts _ pageSize) hsize
    hreadable
  rw [List.take_length] at hfeeds
  apply hfeeds.congr
  intro p t arrived
  constructor
  · intro hread
    exact ⟨hread.arrived, arrived, hread⟩
  · rintro ⟨harrived, plain, hread⟩
    obtain rfl : arrived = plain := harrived.trans hread.arrived.symm
    exact hread

theorem readTo_start {store : Store} (hsteady : Timed.Steady clock q.collection live store)
    (h : Pager.new MapStore.profile q pageSize = .ok p) :
    ReadTo clock live q answers pageSize p ⟨store, 0⟩ [] := by
  rw [Pager.eq_of_new h]
  refine ⟨rfl, rfl, rfl, hsteady, .inl rfl, fun _ => rfl, ?_, rfl⟩
  rw [Nat.zero_mul, List.take_zero, List.map_nil]

theorem items_eq (hprofile : p.profile = MapStore.profile) (hquery : p.query = q)
    (all : List Entity) :
    p.items all none = (capped q.limit (all.drop q.skip)).map Except.ok := by
  have hskip : p.engineSkip = q.skip := by
    simp only [Pager.engineSkip, hprofile, hquery]
    rfl
  simp only [Pager.items, Pager.due, hskip, hquery, Option.toList_none, List.map_nil, ite_self,
    List.append_nil]

theorem items_answers (hprofile : p.profile = MapStore.profile) (hquery : p.query = q) :
    p.items (answers.map (Record.entity q.collection)) none =
      (capped q.limit (answers.drop q.skip)).map fun r => .ok (r.entity q.collection) := by
  rw [items_eq hprofile hquery, ← List.map_drop, ← map_capped, List.map_map]
  rfl

end

/-- A session reads from any reachable map the selected records, by the sort key and then by entry
key, without the skipped ones and up to the limit, and it asks no more often than it has to. A map
counts its records in 64 bits. -/
theorem session_reads_map [RegexEngine] {store : Store} {session : Session Timed} {b : Bucket}
    {q : Query} {predicate : Predicate} {clock : Nat → Nat} (hreachable : store.Reachable)
    (hpast : ∀ k, store.clock ≤ clock k)
    (hlive : ∀ k, ∀ e ∈ store.live q.collection, e.isLive (clock k) = true)
    (hsource : session.sourceFor q.collection = .ok (b.source (Timed.service clock)))
    (hpredicate : Predicate.of q.condition = .ok predicate) (hsorts : q.sorts.length ≤ 1)
    (hsort : ∀ r ∈ store.selected q.collection predicate, r.Sortable q.sorts.head?)
    (hsize : (store.shelf q.collection).length < 2 ^ 64) :
    (store.selected q.collection predicate).Pairwise Record.KeyBefore ∧
      ∃ answers, Ranked q.sorts.head? (store.selected q.collection predicate) answers ∧
        ∃ t, session.stream q = .ok (b.source (Timed.service clock), t) ∧ ∀ n,
          let items : List RowResult :=
            (capped q.limit (answers.drop q.skip)).map fun r => .ok (r.entity q.collection)
          let o := (t.take (b.source (Timed.service clock)) n).run ⟨store, 0⟩
          o.answer.1 = items.take n ∧ (items.length < n →
            o.state.requests = requestsFor q.skip q.limit session.pageSize answers.length) := by
  have hsound := Store.sound_of_reachable hreachable
  have hincreasing := hsound.increasing.selected_increasing q.collection predicate
  have hranked := ranked_stableSort hincreasing hsort
  refine ⟨hincreasing, answersOf q.sorts.head? predicate (store.live q.collection), hranked, ?_⟩
  have hreadable : ∀ r ∈ answersOf q.sorts.head? predicate (store.live q.collection),
      Record.toEntity q.collection r = .ok (r.entity q.collection) := by
    intro r hr
    obtain ⟨hread, hname⟩ := hsound.readable_of_selected (hranked.perm.mem_iff.mp hr)
    exact Record.toEntity_of_readable hread hname
  have hmax : (answersOf q.sorts.head? predicate (store.live q.collection)).length ≤ maxCount := by
    have hselected := Store.length_selected_le store q.collection predicate
    have hlength : (answersOf q.sorts.head? predicate (store.live q.collection)).length =
        (store.selected q.collection predicate).length := hranked.perm.length_eq
    simp only [maxCount]
    omega
  obtain ⟨p, hp⟩ : ∃ p, Pager.new MapStore.profile q session.pageSize = .ok p := ⟨_, rfl⟩
  refine ⟨{ pager := p }, ?_, ?_⟩
  · have hnew : Pager.new (b.source (Timed.service clock)).profile q session.pageSize = .ok p := hp
    simp only [Session.stream, Session.pager, hsource, bind, Except.bind, hnew]
    rfl
  · intro n
    have hfeeds := feeds_answers b clock session.pageSize hpredicate hsorts hmax hreadable
    have hsteady := Timed.steady_of_live hpast hlive
    have htake := EntityStream.take_of_feed hp hfeeds (readTo_start hsteady hp) n
    rw [items_answers (by rw [Pager.eq_of_new hp]) (by rw [Pager.eq_of_new hp])] at htake
    exact htake

def Store.inserted (s : Store) (e : Entity) : Store :=
  (((⟨"id"⟩ : Bucket).insert Store.service "" e none).run.run s).state

def secondItem : Entity := ⟨"items", [⟨"id", .text "b"⟩, ⟨"rank", .integer 1⟩]⟩

def firstItem : Entity := ⟨"items", [⟨"id", .text "a"⟩, ⟨"rank", .integer 2⟩]⟩

def twoItems : Store := (Store.inserted {} secondItem).inserted firstItem

theorem reachable_twoItems [RegexEngine] : twoItems.Reachable := by
  have hsecond : secondItem.Valid := ⟨by decide, by decide, by decide⟩
  have hfirst : firstItem.Valid := ⟨by decide, by decide, by decide⟩
  exact (Store.Reachable.init.next (.insert _ _ _ _ hsecond)).next (.insert _ _ _ _ hfirst)

theorem live_twoItems : twoItems.live "items" =
    [⟨⟨"a", [("id", .text "a"), ("rank", .long 2)]⟩, none⟩,
      ⟨⟨"b", [("id", .text "b"), ("rank", .long 1)]⟩, none⟩] := rfl

/-- Two entries, by falling rank, one a page. -/
theorem session_reads_two_items :
    let source := (⟨"id"⟩ : Bucket).source (Timed.service (1000 * ·))
    let session : Session Timed := { fallback := some source, pageSize := 1 }
    let sort : SortKey := ⟨"rank", .desc⟩
    (twoItems.selected "items" .true).Pairwise Record.KeyBefore ∧
      ∃ answers, Ranked (some sort) (twoItems.selected "items" .true) answers ∧
        ∃ t, session.stream ⟨"items", none, [sort], 0, 2⟩ = .ok (source, t) ∧ ∀ n,
          let items : List RowResult :=
            (capped 2 (answers.drop 0)).map fun r => .ok (r.entity "items")
          let o := (t.take source n).run ⟨twoItems, 0⟩
          o.answer.1 = items.take n ∧ (items.length < n →
            o.state.requests = requestsFor 0 2 1 answers.length) := by
  intro source session sort
  have hlive : ∀ k, ∀ e ∈ twoItems.live "items", e.isLive (1000 * k) = true := by
    intro k e he
    rw [live_twoItems] at he
    simp only [List.mem_cons, List.not_mem_nil, or_false] at he
    rcases he with rfl | rfl
    · rfl
    · rfl
  have hsort : ∀ r ∈ twoItems.selected "items" .true, r.Sortable (some sort) := by
    intro r hr key hkey v hv
    cases hkey
    obtain ⟨e, he, rfl⟩ := List.mem_map.mp (List.mem_filter.mp hr).1
    rw [live_twoItems] at he
    simp only [List.mem_cons, List.not_mem_nil, or_false] at he
    rcases he with rfl | rfl
    · cases hv
      trivial
    · cases hv
      trivial
  have hsource : session.sourceFor "items" = .ok source := rfl
  exact session_reads_map (q := ⟨"items", none, [sort], 0, 2⟩) reachable_twoItems
    (fun _ => Nat.zero_le _) hlive hsource rfl (by decide) hsort (by decide)

end StoreQuery.MapStore
