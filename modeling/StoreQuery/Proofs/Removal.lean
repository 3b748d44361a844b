import StoreQuery.Proofs.MapStore.Expiry
import StoreQuery.Proofs.MapStore.PageOrder
import StoreQuery.Proofs.Search.Scope
/-!
Removals and selections. A removal with a condition takes the entries that a selection with the same
condition streams, or fields of them, and touches nothing else; to a search engine both send the same
query.
-/
namespace StoreQuery

namespace MapStore

def Streams (session : Session Timed) (q : Query) (store : Store) (items : List Entity) : Prop :=
  ∃ source t, session.stream q = .ok (source, t) ∧ ∀ n,
    ((t.take source n).run ⟨store, 0⟩).answer.1 = (items.map Except.ok).take n

structure EntriesTaken (session : Session Timed) (collection : String) (condition : Option Condition)
    (p : Predicate) (store after : Store) (count : Nat) : Prop where
  /-- At that moment a selection streams as many entities, those of the removed records. -/
  streamed : ∀ sorts, ∃ items,
    Streams session ⟨collection, condition, sorts, 0, 0⟩ store items ∧ items.length = count ∧
      items.Perm ((store.selected collection p).map (Record.entity collection))
  /-- Afterwards the same selection streams nothing. -/
  emptied : ∀ sorts, Streams session ⟨collection, condition, sorts, 0, 0⟩ after []
  kept : ∀ e ∈ store.live collection, Predicate.test e.record p = false → e ∈ after.live collection
  elsewhere : ∀ map, map ≠ collection → after.shelf map = store.shelf map

/-- An entry without some of its fields: no other field is gone, and the rest are in their order. -/
structure FieldsGone (names : List String) (e f : Entry) : Prop where
  key : f.record.key = e.record.key
  deadline : f.deadline = e.deadline
  order : f.record.fields.Sublist e.record.fields
  fields : ∀ field, field ∈ f.record.fields ↔ field ∈ e.record.fields ∧ field.1 ∉ names

structure FieldsTaken (collection : String) (p : Predicate) (names : List String)
    (store after : Store) (count : Nat) : Prop where
  counted : count = (store.live collection).countP fun e =>
    Predicate.test e.record p && e.record.fields.any fun field => field.1 ∈ names
  /-- Every entry is still there. -/
  entries : List.Forall₂
    (fun e f => if Predicate.test e.record p then FieldsGone names e f else f = e)
    (store.live collection) (after.live collection)
  elsewhere : ∀ map, map ≠ collection → after.shelf map = store.shelf map

section

variable {store : Store} {session : Session Timed} {b : Bucket} {q : Query} {predicate : Predicate}
  {clock : Nat → Nat} {collection : String} {condition : Option Condition} {names : List String}

/-- For any sort keys the answers arrive, each of them once. -/
theorem exists_arrivals (q : Query) (answers : List Record) (pageSize : Nat) :
    ∃ arrivals, Arrives q answers pageSize arrivals ∧
      (arrivals answers.length).Perm (answers.map (Record.entity q.collection)) := by
  by_cases hsorts : q.sorts.length ≤ 1
  · refine ⟨_, arrives_take hsorts answers pageSize, ?_⟩
    rw [List.take_length]
  · refine ⟨_, arrives_sortedPages (by omega) answers pageSize, ?_⟩
    rw [List.take_length]
    exact (perm_sortedPages q.sorts pageSize answers).map _

/-- As long as the clock stands, a query without a window streams all that it selects. -/
theorem exists_streams [RegexEngine] (hreachable : store.Reachable)
    (hclock : ∀ k, clock k = store.clock)
    (hsource : session.sourceFor q.collection = .ok (b.source (Timed.service clock)))
    (hpredicate : Predicate.of q.condition = .ok predicate) (hskip : q.skip = 0) (hlimit : q.limit = 0)
    (hsize : (store.shelf q.collection).length < 2 ^ 64) :
    ∃ items, Streams session q store items ∧
      items.Perm ((store.selected q.collection predicate).map (Record.entity q.collection)) := by
  obtain ⟨arrivals, harrives, hperm⟩ := exists_arrivals q
    (answersOf q.sorts.head? predicate (store.live q.collection)) session.pageSize
  obtain ⟨t, hstream, htake⟩ := stream_of_arrivals hreachable (fun k => Nat.le_of_eq (hclock k).symm)
    (fun k e he => hclock k ▸ (List.mem_filter.mp he).2) hsource hpredicate hsize harrives
  refine ⟨_, ⟨_, t, hstream, htake⟩, ?_⟩
  rw [hskip, hlimit, List.drop_zero, capped_zero]
  exact hperm.trans ((perm_answersOf store q.collection q.sorts.head? predicate).map _)

theorem run_removeMatching (s : Store) (map : String) (p : Predicate) :
    ((Store.removeMatching map p).run s).answer =
        ((s.live map).countP fun e => Predicate.test e.record p) ∧
      ((Store.removeMatching map p).run s).state =
        s.set map ((s.live map).filter fun e => !Predicate.test e.record p) := by
  have hfits : (Operation.removeMatching map p).Fits s.clock := trivial
  obtain ⟨hanswer, hstate⟩ := Store.run_actAt hfits s
  refine ⟨?_, hstate⟩
  rw [← Shelf.length_sub_kept]
  exact MapAnswer.count.inj (Except.ok.inj hanswer)

theorem run_removeFields (s : Store) (map : String) (p : Predicate) (names : List String) :
    ((Store.removeFields map p names).run s).answer =
        ((s.live map).countP fun e => Predicate.test e.record p && e.record.hasAny names) ∧
      ((Store.removeFields map p names).run s).state =
        s.set map ((s.live map).map (Operation.stripped p names)) := by
  have hfits : (Operation.removeFields map p names).Fits s.clock := trivial
  obtain ⟨hanswer, hstate⟩ := Store.run_actAt hfits s
  exact ⟨MapAnswer.count.inj (Except.ok.inj hanswer), hstate⟩

theorem run_delete_entries [RegexEngine] (b : Bucket) (collection : String)
    (hpredicate : Predicate.of condition = .ok predicate) (s : Store) :
    let o := (b.delete Store.service ⟨collection, condition, []⟩).run.run s
    o.answer = .ok ((s.live collection).countP fun e => Predicate.test e.record predicate) ∧
      o.state = s.set collection
        ((s.live collection).filter fun e => !Predicate.test e.record predicate) := by
  obtain ⟨hanswer, hstate⟩ := run_removeMatching s collection predicate
  simp only [Bucket.delete, hpredicate]
  exact ⟨congrArg Except.ok hanswer, hstate⟩

theorem run_delete_fields [RegexEngine] (b : Bucket) (collection : String)
    (hpredicate : Predicate.of condition = .ok predicate) (hnames : names ≠ []) (s : Store) :
    let o := (b.delete Store.service ⟨collection, condition, names⟩).run.run s
    o.answer = .ok ((s.live collection).countP fun e =>
        Predicate.test e.record predicate && e.record.hasAny names) ∧
      o.state = s.set collection
        ((s.live collection).map (Operation.stripped predicate names)) := by
  obtain ⟨hanswer, hstate⟩ := run_removeFields s collection predicate names
  have hfields : Deletion.removesEntries ⟨collection, condition, names⟩ = false := by
    simpa [Deletion.removesEntries] using hnames
  simp only [Bucket.delete, hpredicate, hfields]
  exact ⟨congrArg Except.ok hanswer, hstate⟩

theorem countP_live (s : Store) (map : String) (p : Predicate) :
    ((s.live map).countP fun e => Predicate.test e.record p) = (s.selected map p).length := by
  rw [Store.selected, ← List.countP_eq_length_filter, List.countP_map]
  rfl

theorem live_set (s : Store) (map : String) {shelf : Shelf}
    (h : ∀ e ∈ shelf, e.isLive s.clock = true) : (s.set map shelf).live map = shelf := by
  rw [Store.live, Store.shelf_set, if_pos rfl]
  exact List.filter_eq_self.mpr h

theorem entriesTaken [RegexEngine] (hreachable : store.Reachable)
    (hsource : session.sourceFor collection = .ok (b.source (Timed.service fun _ => store.clock)))
    (hpredicate : Predicate.of condition = .ok predicate)
    (hsize : (store.shelf collection).length < 2 ^ 64) :
    let o := (b.delete Store.service ⟨collection, condition, []⟩).run.run store
    ∃ count, o.answer = .ok count ∧
      EntriesTaken session collection condition predicate store o.state count := by
  intro o
  obtain ⟨hanswer, hstate⟩ := run_delete_entries b collection hpredicate store
  have hafter : o.state.Reachable := hreachable.next (.delete b _)
  have hlive : o.state.live collection =
      (store.live collection).filter fun e => !Predicate.test e.record predicate := by
    rw [hstate]
    apply live_set
    intro e he
    exact (List.mem_filter.mp (List.mem_filter.mp he).1).2
  have hclock : o.state.clock = store.clock := by rw [hstate]; rfl
  have hempty : o.state.selected collection predicate = [] := by
    rw [Store.selected, hlive, List.filter_map, List.filter_filter, List.map_eq_nil_iff,
      List.filter_eq_nil_iff]
    simp
  have hshelf : (o.state.shelf collection).length < 2 ^ 64 := by
    rw [hstate, Store.shelf_set, if_pos rfl]
    have hkept := List.length_filter_le (fun e => !Predicate.test e.record predicate)
      (store.live collection)
    have hall := List.length_filter_le (Entry.isLive store.clock) (store.shelf collection)
    simp only [Store.live] at hkept ⊢
    omega
  refine ⟨_, hanswer, ?_, ?_, ?_, ?_⟩
  · intro sorts
    obtain ⟨items, hstreams, hperm⟩ := exists_streams (q := ⟨collection, condition, sorts, 0, 0⟩)
      hreachable (fun _ => rfl) hsource hpredicate rfl rfl hsize
    refine ⟨items, hstreams, ?_, hperm⟩
    rw [hperm.length_eq, List.length_map, countP_live]
  · intro sorts
    obtain ⟨items, hstreams, hperm⟩ := exists_streams (q := ⟨collection, condition, sorts, 0, 0⟩)
      hafter (fun _ => hclock.symm) hsource hpredicate rfl rfl hshelf
    rw [hempty] at hperm
    rwa [hperm.eq_nil] at hstreams
  · intro e he htest
    rw [hlive, List.mem_filter, htest]
    exact ⟨he, rfl⟩
  · intro map hmap
    rw [hstate, Store.shelf_set, if_neg hmap]

theorem fieldsGone_stripped {e : Entry} (h : Predicate.test e.record predicate = true) :
    FieldsGone names e (Operation.stripped predicate names e) := by
  rw [Operation.stripped, if_pos h]
  refine ⟨rfl, rfl, List.filter_sublist, ?_⟩
  intro field
  rw [Record.without, List.mem_filter, decide_eq_true_iff]

theorem fieldsTaken [RegexEngine] (hpredicate : Predicate.of condition = .ok predicate)
    (hnames : names ≠ []) :
    let o := (b.delete Store.service ⟨collection, condition, names⟩).run.run store
    ∃ count, o.answer = .ok count ∧
      FieldsTaken collection predicate names store o.state count := by
  intro o
  obtain ⟨hanswer, hstate⟩ := run_delete_fields b collection hpredicate hnames store
  refine ⟨_, hanswer, rfl, ?_, ?_⟩
  · have hlive : o.state.live collection =
        (store.live collection).map (Operation.stripped predicate names) := by
      rw [hstate]
      apply live_set
      intro f hf
      obtain ⟨e, he, rfl⟩ := List.mem_map.mp hf
      rw [Operation.stripped]
      split <;> exact (List.mem_filter.mp he).2
    rw [hlive, List.forall₂_map_right_iff, List.forall₂_same]
    intro e _
    split
    · rename_i htest
      exact fieldsGone_stripped htest
    · rename_i htest
      rw [Operation.stripped, if_neg htest]
  · intro map hmap
    rw [hstate, Store.shelf_set, if_neg hmap]

end

end MapStore

namespace Search

/-- A removal asks for what every selection with its condition asks for, whatever the window. -/
theorem deletion_asks_as_search (i : Index) (collection : String) (condition : Option Condition) :
    ∃ query : Except QueryError Json,
      (i.deletion ⟨collection, condition, []⟩).map Request.body = query.map (single "query") ∧
      ∀ sorts skip limit cursor w,
        (i.search ⟨collection, condition, sorts, skip, limit⟩ cursor w).map
          (fun request => request.body.field? "query") = query.map some := by
  refine ⟨scopedQuery collection condition, ?_, ?_⟩
  · have hentries : Deletion.removesEntries ⟨collection, condition, []⟩ = true := rfl
    rw [Index.deletion, if_pos hentries]
    cases scopedQuery collection condition <;> rfl
  · intro sorts skip limit cursor w
    simp only [Index.search]
    cases scopedQuery collection condition with
    | error e => rfl
    | ok query =>
      apply congrArg Except.ok
      apply query_of_body
      · split <;> simp
      · split <;> simp

end Search

open MapStore in
/-- A removal of entries takes what a selection with its condition streams at that moment, and a removal
of fields changes the matching entries only; a search engine is asked for the same documents. -/
theorem removal_takes_selection [RegexEngine] {store : Store} {session : Session Timed} {b : Bucket}
    {collection : String} {condition : Option Condition} {predicate : Predicate}
    (hreachable : store.Reachable)
    (hsource : session.sourceFor collection = .ok (b.source (Timed.service fun _ => store.clock)))
    (hpredicate : Predicate.of condition = .ok predicate)
    (hsize : (store.shelf collection).length < 2 ^ 64) :
    (let o := (b.delete Store.service ⟨collection, condition, []⟩).run.run store
      ∃ count, o.answer = .ok count ∧
        EntriesTaken session collection condition predicate store o.state count) ∧
    (∀ names, names ≠ [] →
      let o := (b.delete Store.service ⟨collection, condition, names⟩).run.run store
      ∃ count, o.answer = .ok count ∧
        FieldsTaken collection predicate names store o.state count) ∧
    ∀ (i : Search.Index) (collection : String) (condition : Option Condition),
      ∃ query : Except QueryError Json,
        (i.deletion ⟨collection, condition, []⟩).map Search.Request.body =
          query.map (Search.single "query") ∧
        ∀ sorts skip limit cursor w,
          (i.search ⟨collection, condition, sorts, skip, limit⟩ cursor w).map
            (fun request => request.body.field? "query") = query.map some := by
  refine ⟨entriesTaken hreachable hsource hpredicate hsize, ?_, Search.deletion_asks_as_search⟩
  intro names hnames
  exact fieldsTaken hpredicate hnames

open MapStore in
/-- Of two entries the one with a high rank. -/
theorem removal_of_high_rank :
    let b : Bucket := ⟨"id"⟩
    let session : Session Timed :=
      { fallback := some (b.source (Timed.service fun _ => twoItems.clock)), pageSize := 1 }
    let condition : Option Condition := some (.leaf ⟨"rank", .greater, .integer 1⟩)
    let predicate : Predicate := .compare "rank" .greater (.long 1)
    twoItems.Reachable ∧
    session.sourceFor "items" = .ok (b.source (Timed.service fun _ => twoItems.clock)) ∧
    Predicate.of condition = .ok predicate ∧ (twoItems.shelf "items").length < 2 ^ 64 ∧
    (let o := (b.delete Store.service ⟨"items", condition, []⟩).run.run twoItems
      ∃ count, o.answer = .ok count ∧
        EntriesTaken session "items" condition predicate twoItems o.state count) ∧
    (∀ names, names ≠ [] →
      let o := (b.delete Store.service ⟨"items", condition, names⟩).run.run twoItems
      ∃ count, o.answer = .ok count ∧
        FieldsTaken "items" predicate names twoItems o.state count) ∧
    ∀ (i : Search.Index) (collection : String) (condition : Option Condition),
      ∃ query : Except QueryError Json,
        (i.deletion ⟨collection, condition, []⟩).map Search.Request.body =
          query.map (Search.single "query") ∧
        ∀ sorts skip limit cursor w,
          (i.search ⟨collection, condition, sorts, skip, limit⟩ cursor w).map
            (fun request => request.body.field? "query") = query.map some := by
  intro b session condition predicate
  have hsource : session.sourceFor "items" =
      .ok (b.source (Timed.service fun _ => twoItems.clock)) := rfl
  have hpredicate : Predicate.of condition = .ok predicate := rfl
  have hsize : (twoItems.shelf "items").length < 2 ^ 64 := by decide
  exact ⟨reachable_twoItems, hsource, hpredicate, hsize,
    removal_takes_selection reachable_twoItems hsource hpredicate hsize⟩

end StoreQuery
