import StoreQuery.Proofs.MapStore.Reading
import StoreQuery.Proofs.Paging.Blocks
/-!
Readings by several sort keys. The map sorts by the first key, and every page is sorted again by all of
them as it arrives. The pages keep their places, so that the first key orders the whole reading and the
further keys each page.
-/
namespace StoreQuery.MapStore

/-- The first key that tells two records apart decides. -/
def recordsOrder : List SortKey → Record → Record → Ordering
  | [], _, _ => .eq
  | key :: keys, a, b => (recordOrder (some key) a b).then (recordsOrder keys a b)

def placesOrder : List SortKey → Record → Record → Ordering
  | [] => placeOrder none
  | key :: keys => compareLex (placeOrder (some key)) (placesOrder keys)

instance (keys : List SortKey) : Std.TransCmp (placesOrder keys) := by
  induction keys with
  | nil => exact inferInstanceAs (Std.TransCmp (placeOrder none))
  | cons key keys ih => exact inferInstanceAs (Std.TransCmp (compareLex _ (placesOrder keys)))

section Records

variable {keys : List SortKey} {a b : Record} {collection : String}

theorem recordsOrder_eq (ha : ∀ key ∈ keys, a.Sortable (some key))
    (hb : ∀ key ∈ keys, b.Sortable (some key)) : recordsOrder keys a b = placesOrder keys a b := by
  induction keys with
  | nil => rfl
  | cons key keys ih =>
    rw [List.forall_mem_cons] at ha hb
    rw [recordsOrder, recordOrder_eq ha.1 hb.1, ih ha.2 hb.2]
    rfl

/-- Records that stand in the order of all keys do so in that of the first. -/
theorem isLE_first (h : (placesOrder keys a b).isLE = true) :
    (placeOrder keys.head? a b).isLE = true := by
  cases keys with
  | nil => rfl
  | cons key keys =>
    simp only [placesOrder, compareLex] at h
    simp only [List.head?_cons]
    cases hfirst : placeOrder (some key) a b with
    | lt => rfl
    | eq => rfl
    | gt =>
      rw [hfirst] at h
      cases h

theorem get?_entity (collection : String) (r : Record) (name : String) :
    (r.entity collection).get? name = r.value? name := by
  obtain ⟨key, fields⟩ := r
  simp only [Record.entity, Entity.get?, Entity.find?, Record.value?, Record.get?]
  induction fields with
  | nil => rfl
  | cons f fields ih =>
    obtain ⟨n, v⟩ := f
    by_cases h : name = n
    · subst h
      simp
    · have hne : n ≠ name := fun heq => h heq.symm
      have hbeq : (name == n) = false := beq_false_of_ne h
      simpa [List.lookup_cons, hbeq, hne] using ih

/-- Records are in the order of the entities that they read as. -/
theorem entityOrder_entity : entityOrder keys (a.entity collection) (b.entity collection) =
    recordsOrder keys a b := by
  induction keys with
  | nil => rfl
  | cons key keys ih => simp only [entityOrder, recordsOrder, recordOrder, get?_entity, ih]

def sortRecords (keys : List SortKey) (rs : List Record) : List Record :=
  stableSort (fun a b => recordsOrder keys a b == .lt) rs

theorem sortEntities_entities (keys : List SortKey) (rs : List Record) :
    sortEntities keys (rs.map (Record.entity collection)) =
      (sortRecords keys rs).map (Record.entity collection) := by
  rw [sortEntities, stableSort_map]
  simp only [entityOrder_entity]
  rfl

theorem stablySorted_sortRecords {rs : List Record}
    (h : ∀ r ∈ rs, ∀ key ∈ keys, r.Sortable (some key)) :
    StablySorted (placesOrder keys) rs (sortRecords keys rs) := by
  have hplaces : ∀ a ∈ rs, ∀ b ∈ rs, recordsOrder keys a b = placesOrder keys a b := by
    intro a ha b hb
    exact recordsOrder_eq (h a ha) (h b hb)
  exact stablySorted_stableSort hplaces

end Records

section Pages

variable {keys : List SortKey} {pageSize : Nat} {rs more : List Record} {q : Query}

def sortedPages (keys : List SortKey) (pageSize : Nat) (rs : List Record) : List (List Record) :=
  (blocks pageSize rs).map (sortRecords keys)

theorem perm_sortedPages (keys : List SortKey) (pageSize : Nat) (rs : List Record) :
    (sortedPages keys pageSize rs).flatten.Perm rs := by
  have hpages : List.Forall₂ (fun b p => p.Perm b) (blocks pageSize rs)
      (sortedPages keys pageSize rs) := by
    rw [sortedPages, List.forall₂_map_right_iff, List.forall₂_same]
    exact fun b _ => perm_stableSort _ b
  have hperm := perm_flatten hpages
  rwa [flatten_blocks] at hperm

theorem sortedPages_append {count : Nat} (h : rs.length = count * pageSize) :
    sortedPages keys pageSize (rs ++ more) =
      sortedPages keys pageSize rs ++ sortedPages keys pageSize more := by
  rw [sortedPages, blocks_append h, List.map_append]
  rfl

theorem flatten_sortedPages_of_le (h : pageSize = 0 ∨ rs.length ≤ pageSize) :
    (sortedPages keys pageSize rs).flatten = sortRecords keys rs := by
  by_cases hne : rs = []
  · rw [hne, sortedPages, blocks_nil]
    rfl
  · rw [sortedPages, blocks_of_le h hne, List.map_singleton, List.flatten_singleton]

/-- With several sort keys, the answers arrive as sorted pages. -/
theorem arrives_sortedPages (hsorts : 2 ≤ q.sorts.length) (answers : List Record) (pageSize : Nat) :
    Arrives q answers pageSize fun n =>
      (sortedPages q.sorts pageSize (answers.take n)).flatten.map (Record.entity q.collection) where
  length n hn := by
    rw [List.length_map, (perm_sortedPages _ _ _).length_eq, List.length_take, Nat.min_eq_left hn]
  page p page made hprofile hquery hsingle hstart hpart := by
    have hcases := stopOf_cases pageSize hstart
    generalize hstop : Store.stopOf pageSize (made * pageSize) answers.length = stop
      at hpart hcases ⊢
    -- The front is made of whole pages, and what comes after it fits into one.
    have hfront : (answers.take (made * pageSize)).length = made * pageSize := by
      rw [List.length_take, Nat.min_eq_left hstart]
    have hblock : pageSize = 0 ∨
        ((answers.take stop).drop (made * pageSize)).length ≤ pageSize := by
      rw [List.length_drop, List.length_take]
      simp only [Store.stopOf] at hstop
      split at hstop <;> omega
    have hsplit := List.take_append_drop (made * pageSize) (answers.take stop)
    rw [List.take_take, Nat.min_eq_left (by omega)] at hsplit
    have hpages : (sortedPages q.sorts pageSize (answers.take stop)).flatten =
        (sortedPages q.sorts pageSize (answers.take (made * pageSize))).flatten ++
          sortRecords q.sorts ((answers.take stop).drop (made * pageSize)) := by
      conv_lhs => rw [← hsplit]
      rw [sortedPages_append hfront, List.flatten_append, flatten_sortedPages_of_le hblock]
    have hsort : p.profile.sort = .pageSort := by
      rw [hprofile]
      rfl
    rw [Pager.arriving_of_pageSort hsort (by rw [hquery]; omega), hpart.rows, converted_map_ok,
      hquery, sortEntities_entities, ← List.map_append, hpages]
  within made hstart := by
    have hfront : (answers.take (made * pageSize)).length = made * pageSize := by
      rw [List.length_take, Nat.min_eq_left hstart]
    have hsplit := List.take_append_drop (made * pageSize) answers
    apply List.IsPrefix.map
    refine ⟨(sortedPages q.sorts pageSize (answers.drop (made * pageSize))).flatten, ?_⟩
    rw [← List.flatten_append, ← sortedPages_append hfront, hsplit, List.take_length]

/-- The order of a reading: the answers by the first key, and each block of them, which makes a page, by
all keys. -/
structure PageOrdered (keys : List SortKey) (pageSize : Nat) (selected answers : List Record)
    (pages : List (List Record)) : Prop where
  ranked : StablySorted (placeOrder keys.head?) selected answers
  paged : List.Forall₂ (StablySorted (placesOrder keys)) (blocks pageSize answers) pages
  perm : pages.flatten.Perm answers
  first : pages.flatten.Pairwise fun a b => (placeOrder keys.head? a b).isLE = true
  within : ∀ page ∈ pages, page.Pairwise fun a b => (placesOrder keys a b).isLE = true

theorem pageOrdered_sortedPages {selected answers : List Record} (pageSize : Nat)
    (hanswers : StablySorted (placeOrder keys.head?) selected answers)
    (hsort : ∀ r ∈ selected, ∀ key ∈ keys, r.Sortable (some key)) :
    PageOrdered keys pageSize selected answers (sortedPages keys pageSize answers) := by
  have hsorted : ∀ block ∈ blocks pageSize answers,
      StablySorted (placesOrder keys) block (sortRecords keys block) := by
    intro block hblock
    apply stablySorted_sortRecords
    intro r hr
    have hmem : r ∈ answers := flatten_blocks pageSize answers ▸ List.mem_flatten_of_mem hblock hr
    exact hsort r (hanswers.perm.mem_iff.mp hmem)
  have hpages : List.Forall₂ (StablySorted (placesOrder keys)) (blocks pageSize answers)
      (sortedPages keys pageSize answers) := by
    rw [sortedPages, List.forall₂_map_right_iff, List.forall₂_same]
    exact hsorted
  have hwithin : ∀ page ∈ sortedPages keys pageSize answers,
      page.Pairwise fun a b => (placesOrder keys a b).isLE = true := by
    intro page hpage
    obtain ⟨block, hblock, rfl⟩ := List.mem_map.mp hpage
    exact (hsorted block hblock).pairwise_isLE
  refine ⟨hanswers, hpages, perm_sortedPages _ _ _, ?_, hwithin⟩
  apply pairwise_flatten_of_perm (hpages.imp fun _ _ h => h.perm)
  · rw [flatten_blocks]
    exact hanswers.pairwise_isLE
  · intro page hpage
    exact (hwithin page hpage).imp isLE_first

-- By name the third would be first, but it is on the second page.
example :
    let record (key : String) (age : Int64) (name : String) : Record :=
      ⟨key, [("age", .long age), ("name", .text name)]⟩
    let answers := [record "1" 30 "Cy", record "3" 30 "Bo", record "4" 30 "Ana", record "2" 20 "Di"]
    (sortedPages [⟨"age", .desc⟩, ⟨"name", .asc⟩] 2 answers).map (·.map Record.key) =
      [["3", "1"], ["4", "2"]] := by
  cbv

end Pages

section Stream

variable {store : Store} {session : Session Timed} {b : Bucket} {q : Query} {predicate : Predicate}
  {clock : Nat → Nat}

theorem perm_answersOf (store : Store) (map : String) (sort : Option SortKey) (predicate : Predicate) :
    (answersOf sort predicate (store.live map)).Perm (store.selected map predicate) :=
  perm_stableSort _ _

theorem mem_answersOf {map : String} {sort : Option SortKey} {r : Record} :
    r ∈ answersOf sort predicate (store.live map) ↔
      ∃ e ∈ store.live map, e.record = r ∧ predicate.test r = true := by
  rw [(perm_answersOf store map sort predicate).mem_iff, Store.selected, List.mem_filter, List.mem_map]
  constructor
  · rintro ⟨⟨e, he, rfl⟩, htest⟩
    exact ⟨e, he, rfl, htest⟩
  · rintro ⟨e, he, rfl, htest⟩
    exact ⟨⟨e, he, rfl⟩, htest⟩

theorem keys_nodup_answersOf (hordered : store.Ordered) (map : String) (sort : Option SortKey)
    (predicate : Predicate) :
    ((answersOf sort predicate (store.live map)).map Record.key).Nodup := by
  have hselected := hordered.selected_increasing map predicate
  have hkeys : ((store.selected map predicate).map Record.key).Nodup := by
    apply List.pairwise_map.mpr
    apply hselected.imp
    intro a b hlt heq
    rw [Record.KeyBefore, heq] at hlt
    simp at hlt
  exact ((perm_answersOf store map sort predicate).map Record.key).nodup_iff.mpr hkeys

theorem readable_of_answers [RegexEngine] (hreachable : store.Reachable) {map : String}
    {sort : Option SortKey}
    {r : Record} (hr : r ∈ answersOf sort predicate (store.live map)) :
    Record.toEntity map r = .ok (r.entity map) := by
  have hselected := (perm_answersOf store map sort predicate).mem_iff.mp hr
  obtain ⟨hread, hname⟩ := (Store.sound_of_reachable hreachable).readable_of_selected hselected
  exact Record.toEntity_of_readable hread hname

theorem length_answersOf_le {map : String} (hsize : (store.shelf map).length < 2 ^ 64)
    (sort : Option SortKey) (predicate : Predicate) :
    (answersOf sort predicate (store.live map)).length ≤ maxCount := by
  have hselected := Store.length_selected_le store map predicate
  have hlength := (perm_answersOf store map sort predicate).length_eq
  simp only [maxCount]
  omega

/-- No query is refused for its sort keys. -/
theorem stream_start [RegexEngine] {σ : Type} {session : Session σ} {m : MapService σ}
    (hsource : session.sourceFor q.collection = .ok (b.source m)) :
    ∃ p, Pager.new MapStore.profile q session.pageSize = .ok p ∧
      session.stream q = .ok (b.source m, { pager := p }) := by
  obtain ⟨p, hp⟩ : ∃ p, Pager.new MapStore.profile q session.pageSize = .ok p := ⟨_, rfl⟩
  have hnew : Pager.new (b.source m).profile q session.pageSize = .ok p := hp
  refine ⟨p, hp, ?_⟩
  simp only [Session.stream, Session.pager, hsource, bind, Except.bind, hnew]
  rfl

/-- A session yields what arrives, without the skipped ones and up to the limit. -/
theorem stream_of_arrivals [RegexEngine] {arrivals : Nat → List Entity} (hreachable : store.Reachable)
    (hpast : ∀ k, store.clock ≤ clock k)
    (hlive : ∀ k, ∀ e ∈ store.live q.collection, e.isLive (clock k) = true)
    (hsource : session.sourceFor q.collection = .ok (b.source (Timed.service clock)))
    (hpredicate : Predicate.of q.condition = .ok predicate)
    (hsize : (store.shelf q.collection).length < 2 ^ 64)
    (harrives : Arrives q (answersOf q.sorts.head? predicate (store.live q.collection))
      session.pageSize arrivals) :
    let total := (answersOf q.sorts.head? predicate (store.live q.collection)).length
    ∃ t, session.stream q = .ok (b.source (Timed.service clock), t) ∧ ∀ n,
      ((t.take (b.source (Timed.service clock)) n).run ⟨store, 0⟩).answer.1 =
        ((capped q.limit ((arrivals total).drop q.skip)).map Except.ok).take n := by
  obtain ⟨p, hp, hstream⟩ := stream_start hsource
  refine ⟨{ pager := p }, hstream, ?_⟩
  intro n
  have hfeeds := feeds_arrivals b clock session.pageSize hpredicate harrives
    (length_answersOf_le hsize _ _) fun r hr => readable_of_answers hreachable hr
  have hread : ReadWith clock (store.live q.collection) q
      (answersOf q.sorts.head? predicate (store.live q.collection)) session.pageSize arrivals p
      ⟨store, 0⟩ [] := by
    refine ⟨?_, [], readTo_start (Timed.steady_of_live hpast hlive) hp⟩
    rw [Nat.zero_mul]
    exact (List.eq_nil_of_length_eq_zero (harrives.length 0 (Nat.zero_le _))).symm
  have htake := (EntityStream.take_of_feed hp hfeeds hread n).1
  have hstart := Pager.eq_of_new hp
  rw [htake, items_eq (by rw [hstart]) (by rw [hstart])]

end Stream

/-- A session that sorts by several keys reads from any reachable map the selected records by the first
key, then by entry key, and yields them page by page, each page sorted again by all keys, without the
skipped ones and up to the limit. -/
theorem session_sorts_pages [RegexEngine] {store : Store} {session : Session Timed} {b : Bucket}
    {q : Query} {predicate : Predicate} {clock : Nat → Nat} (hreachable : store.Reachable)
    (hpast : ∀ k, store.clock ≤ clock k)
    (hlive : ∀ k, ∀ e ∈ store.live q.collection, e.isLive (clock k) = true)
    (hsource : session.sourceFor q.collection = .ok (b.source (Timed.service clock)))
    (hpredicate : Predicate.of q.condition = .ok predicate) (hsorts : 2 ≤ q.sorts.length)
    (hsort : ∀ r ∈ store.selected q.collection predicate, ∀ key ∈ q.sorts, r.Sortable (some key))
    (hsize : (store.shelf q.collection).length < 2 ^ 64) :
    (store.selected q.collection predicate).Pairwise Record.KeyBefore ∧
      ∃ answers pages, PageOrdered q.sorts session.pageSize
          (store.selected q.collection predicate) answers pages ∧
        let rows := capped q.limit (pages.flatten.drop q.skip)
        (rows.Pairwise fun a b => (placeOrder q.sorts.head? a b).isLE = true) ∧
        (q.skip = 0 → q.limit = 0 → rows.Perm answers) ∧
        ∃ t, session.stream q = .ok (b.source (Timed.service clock), t) ∧ ∀ n,
          ((t.take (b.source (Timed.service clock)) n).run ⟨store, 0⟩).answer.1 =
            (rows.map fun r => .ok (r.entity q.collection)).take n := by
  have hincreasing :=
    (Store.sound_of_reachable hreachable).increasing.selected_increasing q.collection predicate
  have hfirst : ∀ r ∈ store.selected q.collection predicate, r.Sortable q.sorts.head? := by
    intro r hr key hkey
    exact hsort r hr key (List.mem_of_mem_head? hkey) key rfl
  have hordered := pageOrdered_sortedPages session.pageSize (stablySorted_answers hfirst) hsort
  refine ⟨hincreasing, _, _, hordered, ?_, ?_, ?_⟩
  · -- Skipping and the limit only leave rows out.
    apply List.Pairwise.sublist _ hordered.first
    exact (capped_sublist _ _).trans (List.drop_sublist _ _)
  · intro hskip hlimit
    rw [hskip, hlimit, List.drop_zero, capped_zero]
    exact hordered.perm
  · have harrives := arrives_sortedPages hsorts
      (answersOf q.sorts.head? predicate (store.live q.collection)) session.pageSize
    obtain ⟨t, ht, htake⟩ :=
      stream_of_arrivals hreachable hpast hlive hsource hpredicate hsize harrives
    refine ⟨t, ht, ?_⟩
    intro n
    rw [htake n, List.take_length, ← List.map_drop, ← map_capped, List.map_map]
    rfl

/-- Two entries, by falling rank and then by falling identifier, both on one page, the first skipped. -/
theorem session_sorts_two_items :
    let source := (⟨"id"⟩ : Bucket).source (Timed.service (1000 * ·))
    let session : Session Timed := { fallback := some source, pageSize := 2 }
    let sorts : List SortKey := [⟨"rank", .desc⟩, ⟨"id", .desc⟩]
    (twoItems.selected "items" .true).Pairwise Record.KeyBefore ∧
      ∃ answers pages, PageOrdered sorts 2 (twoItems.selected "items" .true) answers pages ∧
        let rows := capped 0 (pages.flatten.drop 1)
        (rows.Pairwise fun a b => (placeOrder sorts.head? a b).isLE = true) ∧
        (1 = 0 → 0 = 0 → rows.Perm answers) ∧
        ∃ t, session.stream ⟨"items", none, sorts, 1, 0⟩ = .ok (source, t) ∧ ∀ n,
          ((t.take source n).run ⟨twoItems, 0⟩).answer.1 =
            (rows.map fun r => .ok (r.entity "items")).take n := by
  intro source session sorts
  have hlive : ∀ k, ∀ e ∈ twoItems.live "items", e.isLive (1000 * k) = true := by
    intro k
    rw [live_twoItems, List.forall_mem_cons, List.forall_mem_singleton]
    exact ⟨rfl, rfl⟩
  have hscalar : ∀ e ∈ twoItems.live "items", ∀ key ∈ sorts, e.record.Sortable (some key) := by
    simp only [live_twoItems, sorts, List.forall_mem_cons]
    refine ⟨⟨?_, ?_, nofun⟩, ⟨?_, ?_, nofun⟩, nofun⟩
    all_goals
      intro key hkey v hv
      cases hkey
      cases hv
      trivial
  have hsort : ∀ r ∈ twoItems.selected "items" .true, ∀ key ∈ sorts, r.Sortable (some key) := by
    intro r hr
    obtain ⟨e, he, rfl⟩ := List.mem_map.mp (List.mem_filter.mp hr).1
    exact hscalar e he
  have hsource : session.sourceFor "items" = .ok source := rfl
  exact session_sorts_pages (q := ⟨"items", none, sorts, 1, 0⟩) reachable_twoItems
    (fun _ => Nat.zero_le _) hlive hsource rfl (by decide) hsort (by decide)

end StoreQuery.MapStore
