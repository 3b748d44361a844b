import StoreQuery.Proofs.MapStore.Sharing
/-!
How often a reading meets an entry that nobody touches. It does so with each fetch whose page the entry
is in by then, so writes that carry the entry over the position between two fetches hide it or bring it
back; where none does, the reading meets it once.
-/
namespace StoreQuery.MapStore.Sharing

section

variable (x : Sharing)

def place (k : Nat) (key : String) : Nat := ((x.answers k).map Record.key).idxOf key

def Covers (k : Nat) (key : String) : Prop :=
  k * x.pageSize ≤ x.place k key ∧ (x.pageSize = 0 ∨ x.place k key < (k + 1) * x.pageSize)

instance (k : Nat) (key : String) : Decidable (x.Covers k key) :=
  inferInstanceAs (Decidable (_ ∧ _))

/-- Nothing carries a key over the position where the reading goes on. -/
def Uncrossed (last : Nat) (key : String) : Prop :=
  ∀ k < last, x.place k key < (k + 1) * x.pageSize ↔ x.place (k + 1) key < (k + 1) * x.pageSize

end

variable {x : Sharing} {k last : Nat} {r : Record} {key : String}

theorem Valid.keys_nodup [RegexEngine] (hx : x.Valid) (k : Nat) :
    ((x.answers k).map Record.key).Nodup :=
  keys_nodup_answersOf (hx.ordered_found k) _ _ _

theorem Valid.ranked [RegexEngine] (hx : x.Valid) (k : Nat) :
    Ranked x.query.sorts.head? ((x.found k).selected x.query.collection x.predicate) (x.answers k) :=
  ranked_stableSort ((hx.ordered_found k).selected_increasing _ _) (hx.sortable k)

section Slices

variable {rs : List Record}

theorem filter_of_new (h : key ∉ rs.map Record.key) : rs.filter (fun s => s.key = key) = [] := by
  apply List.filter_eq_nil_iff.mpr
  intro s hs
  rw [decide_eq_true_iff]
  rintro rfl
  exact h (List.mem_map_of_mem hs)

/-- The one record of a key is among the first ones if its place is. -/
theorem filter_take (hkeys : (rs.map Record.key).Nodup) (hr : r ∈ rs) (n : Nat) :
    (rs.take n).filter (fun s => s.key = r.key) =
      if (rs.map Record.key).idxOf r.key < n then [r] else [] := by
  induction rs generalizing n with
  | nil => cases hr
  | cons s rs ih =>
    rw [List.map_cons, List.nodup_cons] at hkeys
    cases n with
    | zero => rw [List.take_zero, List.filter_nil, if_neg (Nat.not_lt_zero _)]
    | succ n =>
      rw [List.take_succ_cons, List.map_cons]
      rcases List.mem_cons.mp hr with rfl | hr
      · have hrest : (rs.take n).filter (fun s => s.key = r.key) = [] := by
          apply filter_of_new
          intro hmem
          exact hkeys.1 (((List.take_sublist n rs).map Record.key).subset hmem)
        rw [List.filter_cons_of_pos (by simp), hrest, List.idxOf_cons_self, if_pos (Nat.succ_pos n)]
      · have hne : s.key ≠ r.key := by
          intro heq
          exact hkeys.1 (heq ▸ List.mem_map_of_mem hr)
        rw [List.filter_cons_of_neg (by simpa using hne), ih hkeys.2 hr, List.idxOf_cons_ne _ hne]
        exact if_congr Nat.succ_lt_succ_iff.symm rfl rfl

theorem filter_slice (hkeys : (rs.map Record.key).Nodup) (hr : r ∈ rs) (start size : Nat) :
    ((rs.drop start).take size).filter (fun s => s.key = r.key) =
      if start ≤ (rs.map Record.key).idxOf r.key ∧ (rs.map Record.key).idxOf r.key < start + size
      then [r] else [] := by
  have hbefore := filter_take hkeys hr start
  have hthrough := filter_take hkeys hr (start + size)
  rw [List.take_add, List.filter_append, hbefore] at hthrough
  generalize (rs.map Record.key).idxOf r.key = place at hbefore hthrough ⊢
  by_cases hstart : place < start
  · rw [if_pos hstart, if_pos (by omega), List.singleton_append, List.cons_eq_cons] at hthrough
    rw [hthrough.2, if_neg (by omega)]
  · rw [if_neg hstart, List.nil_append] at hthrough
    rw [hthrough]
    exact if_congr (by omega) rfl rfl

end Slices

theorem place_lt (hr : r ∈ x.answers k) : x.place k r.key < (x.answers k).length := by
  have hkey : r.key ∈ (x.answers k).map Record.key := List.mem_map_of_mem hr
  have hlt := List.idxOf_lt_length_of_mem hkey
  rwa [List.length_map] at hlt

/-- A page holds the record of a key if it covers the key, and no other record of that key. -/
theorem Valid.filter_page [RegexEngine] (hx : x.Valid) (hr : r ∈ x.answers k) :
    (x.page k).filter (fun s => s.key = r.key) = if x.Covers k r.key then [r] else [] := by
  by_cases hsize : x.pageSize = 0
  · have hcovers : x.Covers k r.key := by
      refine ⟨?_, .inl hsize⟩
      rw [hsize, Nat.mul_zero]
      exact Nat.zero_le _
    have hplace : ((x.answers k).map Record.key).idxOf r.key < (x.answers k).length := place_lt hr
    have hall := filter_take (hx.keys_nodup k) hr (x.answers k).length
    rw [List.take_length, if_pos hplace] at hall
    rw [page, hsize, capped_zero, Nat.mul_zero, List.drop_zero, hall, if_pos hcovers]
  · rw [page, capped_of_pos (Nat.pos_of_ne_zero hsize), filter_slice (hx.keys_nodup k) hr]
    apply if_congr _ rfl rfl
    simp only [Covers, place, hsize, false_or, Nat.succ_mul]

/-- Each fetch that covers the key brings the record once. -/
theorem Valid.filter_pages [RegexEngine] (hx : x.Valid) {n : Nat} (hr : ∀ k < n, r ∈ x.answers k) :
    (x.pages n).filter (fun s => s.key = r.key) =
      List.replicate ((List.range n).countP fun k => x.Covers k r.key) r := by
  induction n with
  | zero => rfl
  | succ n ih =>
    have hbefore := ih fun k hk => hr k (Nat.lt_succ_of_lt hk)
    rw [pages_succ, List.filter_append, hbefore, hx.filter_page (hr n (Nat.lt_succ_self n)),
      List.range_succ, List.countP_append, List.countP_singleton]
    by_cases hcovers : x.Covers n r.key
    · simp only [hcovers, if_true, decide_true, List.replicate_add, List.replicate_one]
    · simp only [hcovers, if_false, decide_false, Bool.false_eq_true, Nat.add_zero, List.append_nil]

/-- Without a crossing, the fetches that reach past a key have covered it once, and those that do not reach
it have not. -/
theorem countP_covers (hsize : x.pageSize ≠ 0) (h : x.Uncrossed last key) :
    (List.range (last + 1)).countP (fun k => x.Covers k key) =
      if x.place last key < (last + 1) * x.pageSize then 1 else 0 := by
  induction last with
  | zero =>
    simp [Covers, hsize]
  | succ last ih =>
    have hbefore := ih fun k hk => h k (Nat.lt_succ_of_lt hk)
    have hstep := h last (Nat.lt_succ_self last)
    have hmul := Nat.succ_mul (last + 1) x.pageSize
    rw [List.range_succ, List.countP_append, hbefore, List.countP_singleton]
    by_cases hpast : x.place last key < (last + 1) * x.pageSize
    · have hnext := hstep.mp hpast
      have hcovers : ¬ x.Covers (last + 1) key := fun hc => Nat.not_lt.mpr hc.1 hnext
      have hlt : x.place (last + 1) key < (last + 1 + 1) * x.pageSize := by
        simp only [Nat.succ_eq_add_one] at hmul
        omega
      simp [hpast, hcovers, hlt]
    · have hstart : (last + 1) * x.pageSize ≤ x.place (last + 1) key := by
        rw [hstep] at hpast
        exact Nat.not_lt.mp hpast
      by_cases hlt : x.place (last + 1) key < (last + 1 + 1) * x.pageSize
      · have hcovers : x.Covers (last + 1) key := ⟨hstart, .inr hlt⟩
        simp [hpast, hcovers, hlt]
      · have hcovers : ¬ x.Covers (last + 1) key := by
          rintro ⟨-, hzero | hwithin⟩
          · exact hsize hzero
          · exact hlt hwithin
        simp [hpast, hcovers, hlt]

/-- A single fetch covers every key. -/
theorem Last.countP_covers_of_zero (hlast : x.Last last) (hsize : x.pageSize = 0) (key : String) :
    (List.range (last + 1)).countP (fun k => x.Covers k key) = 1 := by
  have hfirst : last = 0 := by
    by_contra hne
    exact (hlast.before 0 (Nat.pos_of_ne_zero hne)).1.1 hsize
  simp [hfirst, Covers, hsize]

theorem Last.countP_covers_le_one (hlast : x.Last last) (h : x.Uncrossed last key) :
    (List.range (last + 1)).countP (fun k => x.Covers k key) ≤ 1 := by
  by_cases hsize : x.pageSize = 0
  · rw [hlast.countP_covers_of_zero hsize]
  · rw [countP_covers hsize h]
    split
    · exact Nat.le_refl 1
    · exact Nat.zero_le 1

/-- The last fetch reaches the end, if nothing else ends the reading. -/
theorem Last.countP_covers_eq_one (hlast : x.Last last) (hend : ¬ x.More last)
    (hr : r ∈ x.answers last) (h : x.Uncrossed last r.key) :
    (List.range (last + 1)).countP (fun k => x.Covers k r.key) = 1 := by
  by_cases hsize : x.pageSize = 0
  · exact hlast.countP_covers_of_zero hsize r.key
  · have hplace := place_lt hr
    have hreach : (x.answers last).length ≤ (last + 1) * x.pageSize := by
      by_contra hlt
      exact hend ⟨hsize, Nat.not_le.mp hlt⟩
    rw [countP_covers hsize h, if_pos (by omega)]

/-- How often a record is yielded that is answered at every fetch. -/
structure Yielded (x : Sharing) (last : Nat) (r : Record) : Prop where
  /-- It is brought by each fetch that covers its key. -/
  brought : (x.pages (last + 1)).filter (fun s => s.key = r.key) =
    List.replicate ((List.range (last + 1)).countP fun k => x.Covers k r.key) r
  /-- Where nothing carries it over the position, it is yielded once, or the reading ends before it, in the
  error of another record. -/
  once : x.Uncrossed last r.key →
    (x.readable (x.pages (last + 1))).filter (fun s => s.key = r.key) = [r] ∨
      (x.readable (x.pages (last + 1))).filter (fun s => s.key = r.key) = [] ∧
        (failure? (x.rows (x.pages (last + 1)))).isSome = true

theorem Valid.yielded [RegexEngine] (hx : x.Valid) (hlast : x.Last last)
    (hr : ∀ k ≤ last, r ∈ x.answers k) : Yielded x last r where
  brought := hx.filter_pages fun k hk => hr k (Nat.le_of_lt_succ hk)
  once hcrossing := by
    have hrows := hx.filter_pages fun k hk => hr k (Nat.le_of_lt_succ (n := last) hk)
    cases hclean : failure? (x.rows (x.pages (last + 1))) with
    | none =>
      have hend : ¬ x.More last := by
        intro hmore
        rw [rows_pages_succ, failure?_append, Option.or_eq_none_iff] at hclean
        exact hlast.ends ⟨hmore, hclean.2⟩
      left
      rw [readable_of_clean hclean, hrows,
        hlast.countP_covers_eq_one hend (hr last (Nat.le_refl last)) hcrossing, List.replicate_one]
    | some e =>
      have hsub : ((x.readable (x.pages (last + 1))).filter fun s => s.key = r.key).Sublist
          (List.replicate 1 r) := by
        have hbrought : ((x.readable (x.pages (last + 1))).filter fun s => s.key = r.key).Sublist
            ((x.pages (last + 1)).filter fun s => s.key = r.key) :=
          (List.takeWhile_sublist _).filter _
        rw [hrows] at hbrought
        exact hbrought.trans ((List.replicate_sublist_replicate r).mpr
          (hlast.countP_covers_le_one hcrossing))
      rw [List.replicate_one, List.sublist_singleton] at hsub
      rcases hsub with hnone | hone
      · exact .inr ⟨hnone, rfl⟩
      · exact .inl hone

end StoreQuery.MapStore.Sharing

namespace StoreQuery.MapStore

open Sharing

/-- A stream over a collection that others write to ends, and yields what its fetches bring, each from the
sorted answers that there are by then. An entry that is selected at every fetch is brought once by each
fetch that finds it in its page. So it is yielded exactly once if no write between two fetches carries it
over the position where the stream goes on, unless the stream ends before it with a record that does not
read as an entity. -/
theorem steady_entity_streamed [RegexEngine] {x : Sharing} (hx : x.Valid) {session : Session Shared}
    {b : Bucket} (hsource : session.sourceFor x.query.collection = .ok (b.source x.service))
    (hsize : session.pageSize = x.pageSize) :
    ∃ t last, session.stream x.query = .ok (b.source x.service, t) ∧ x.Last last ∧
      (∀ n,
        let items := x.items (x.pages (last + 1))
        let o := (t.take (b.source x.service) n).run ⟨{ store := x.store }, 0⟩
        o.answer.1 = items.take n ∧ (items.length < n → o.state.requests = last + 1)) ∧
      (∀ k, Ranked x.query.sorts.head? ((x.found k).selected x.query.collection x.predicate)
        (x.answers k)) ∧
      ∀ r, (∀ k ≤ last, r ∈ (x.found k).selected x.query.collection x.predicate) →
        Yielded x last r := by
  obtain ⟨last, hlast⟩ := hx.exists_last
  obtain ⟨t, hstream, htake⟩ := hx.stream hlast hsource hsize
  refine ⟨t, last, hstream, hlast, htake, hx.ranked, ?_⟩
  intro r hr
  exact hx.yielded hlast fun k hk => mem_answers.mpr (hr k hk)

def thirdItem : Entity := ⟨"items", [⟨"id", .text "c"⟩]⟩

/-- Three entries, read one a page; something is done to them between the first fetch and the second. -/
def beside (op : Operation) : Sharing where
  store := twoItems.inserted thirdItem
  meanwhile k := if k = 1 then [(0, op)] else []
  clock _ := 0
  query := ⟨"items", none, [], 0, 0⟩
  predicate := .true
  pageSize := 1

def removal (gone : String) : Operation :=
  .removeMatching "items" (.compare "id" .equal (.text gone))

section

variable {op : Operation}

/-- Once every entry that it leaves is live, nothing changes any more. -/
theorem found_beside (h : ((beside op).found 1).live "items" = ((beside op).found 1).shelf "items")
    (k : Nat) :
    ((beside op).found (k + 1)).shelf "items" = ((beside op).found 1).shelf "items" ∧
      ((beside op).found (k + 1)).live "items" = ((beside op).found 1).shelf "items" := by
  induction k with
  | zero => exact ⟨rfl, h⟩
  | succ k ih =>
    obtain ⟨hafter, hpurged⟩ := Store.live_purge ((beside op).found (k + 1)) "items"
    exact ⟨hpurged.trans ih.2, hafter.trans ih.2⟩

theorem answers_beside (h : ((beside op).found 1).live "items" = ((beside op).found 1).shelf "items")
    (k : Nat) :
    (beside op).answers (k + 1) = answersOf none .true (((beside op).found 1).shelf "items") := by
  rw [← (found_beside h k).2]
  rfl

theorem valid_beside (hfits : op.Fits 0)
    (hlive : ((beside op).found 1).live "items" = ((beside op).found 1).shelf "items")
    (hsize : (((beside op).found 1).shelf "items").length < 2 ^ 64) : (beside op).Valid := by
  have hthird : thirdItem.Valid := ⟨by decide, by decide, by decide⟩
  constructor
  · exact (Store.sound_of_reachable (reachable_twoItems.next (.insert _ _ _ _ hthird))).increasing
  · intro k p hp
    by_cases hk : k = 1
    · subst hk
      obtain rfl := List.mem_singleton.mp hp
      exact hfits
    · have hidle : (beside op).meanwhile k = [] := if_neg hk
      rw [hidle] at hp
      cases hp
  · rfl
  · rfl
  · rfl
  · exact Nat.zero_le 1
  · exact fun k r hr => nofun
  · intro k
    cases k with
    | zero =>
      have hthree : (((beside op).found 0).shelf "items").length = 3 := rfl
      exact hthree.trans_lt (by decide)
    | succ k =>
      rw [show (beside op).query.collection = "items" from rfl, (found_beside hlive k).1]
      exact hsize

end

def steadyItem : Record := ⟨"b", [("id", .text "b"), ("rank", .long 1)]⟩

/-- A removal behind the position leaves the entry to be met. -/
theorem steadyItem_streamed :
    let x := beside (removal "c")
    let source := (⟨"id"⟩ : Bucket).source x.service
    let session : Session Shared := { fallback := some source, pageSize := 1 }
    x.Valid ∧ session.sourceFor x.query.collection = .ok source ∧ session.pageSize = x.pageSize ∧
      ∃ t last, session.stream x.query = .ok (source, t) ∧ x.Last last ∧
        (∀ n,
          let items := x.items (x.pages (last + 1))
          let o := (t.take source n).run ⟨{ store := x.store }, 0⟩
          o.answer.1 = items.take n ∧ (items.length < n → o.state.requests = last + 1)) ∧
        x.Uncrossed last steadyItem.key ∧ Yielded x last steadyItem := by
  intro x source session
  have hvalid : (beside (removal "c")).Valid := valid_beside trivial rfl (by decide)
  have hanswers : ∀ k, steadyItem ∈ x.answers k ∧ x.place k "b" = 1 := by
    intro k
    cases k with
    | zero => exact ⟨.tail _ (.head _), rfl⟩
    | succ k =>
      rw [place, answers_beside rfl]
      exact ⟨.tail _ (.head _), rfl⟩
  have hsource : session.sourceFor x.query.collection = .ok source := rfl
  obtain ⟨t, last, hstream, hlast, htake, -, hsteady⟩ := steady_entity_streamed hvalid hsource rfl
  have hcrossing : x.Uncrossed last "b" := by
    intro k _
    rw [(hanswers k).2, (hanswers (k + 1)).2]
  exact ⟨hvalid, hsource, rfl, t, last, hstream, hlast, htake, hcrossing,
    hsteady steadyItem fun k _ => mem_answers.mp (hanswers k).1⟩

/-- A stream that yields these items, though an entry that is not among them is selected throughout. -/
def Misses (op : Operation) (items : List RowResult) : Prop :=
  let x := beside op
  let source := (⟨"id"⟩ : Bucket).source x.service
  let session : Session Shared := { fallback := some source, pageSize := 1 }
  x.Valid ∧ session.sourceFor x.query.collection = .ok source ∧ session.pageSize = x.pageSize ∧
    (∀ k, steadyItem ∈ (x.found k).selected "items" .true) ∧
    ∃ t, session.stream x.query = .ok (source, t) ∧
      (∀ n, ((t.take source n).run ⟨{ store := x.store }, 0⟩).answer.1 = items.take n) ∧
      .ok (steadyItem.entity "items") ∉ items

theorem misses_of_last {op : Operation} (hfits : op.Fits 0)
    (hlive : ((beside op).found 1).live "items" = ((beside op).found 1).shelf "items")
    (hsize : (((beside op).found 1).shelf "items").length < 2 ^ 64)
    (hselected : steadyItem ∈ answersOf none .true (((beside op).found 1).shelf "items"))
    (hlast : (beside op).Last 1)
    (hitems : .ok (steadyItem.entity "items") ∉ (beside op).items ((beside op).pages 2)) :
    Misses op ((beside op).items ((beside op).pages 2)) := by
  have hvalid : (beside op).Valid := valid_beside hfits hlive hsize
  let source := (⟨"id"⟩ : Bucket).source (beside op).service
  let session : Session Shared := { fallback := some source, pageSize := 1 }
  have hsource : session.sourceFor (beside op).query.collection = .ok source := rfl
  obtain ⟨t, hstream, htake⟩ := hvalid.stream hlast hsource rfl
  refine ⟨hvalid, hsource, rfl, ?_, t, hstream, fun n => (htake n).1, hitems⟩
  intro k
  apply mem_answers.mp
  cases k with
  | zero => exact .tail _ (.head _)
  | succ k =>
    rw [answers_beside hlive]
    exact hselected

/-- A record that was put into the map as it is, under an empty field name. -/
def unnamedField : Operation := .put "items" ⟨"aa", [("", .text "")]⟩ none

/-- A removal before the position hides the entry, since the second fetch goes on behind it; and a record
that does not read as an entity ends the stream before the entry is met. -/
theorem steadyItem_passed_over :
    Misses (removal "a") [.ok firstItem, .ok thirdItem] ∧
      Misses unnamedField
        [.ok firstItem, .error (.invalidArgument "attribute name must not be empty")] := by
  have hbefore : ∀ op, ∀ k < 1, (beside op).Continues k := by
    intro op k hk
    obtain rfl : k = 0 := by omega
    have hmore : (0 + 1) * 1 < 3 := by decide
    exact ⟨⟨Nat.one_ne_zero, hmore⟩, rfl⟩
  constructor
  · apply misses_of_last
    · exact trivial
    · rfl
    · decide
    · exact .head _
    · refine ⟨hbefore _, ?_⟩
      rintro ⟨⟨-, hlt⟩, -⟩
      exact absurd hlt (by decide)
    · show Except.ok (steadyItem.entity "items") ∉ [Except.ok firstItem, .ok thirdItem]
      simp [Record.entity, steadyItem, firstItem, thirdItem, FieldValue.toValue]
  · apply misses_of_last
    · intro ttl httl
      cases httl
    · rfl
    · decide
    · exact .tail _ (.tail _ (.head _))
    · refine ⟨hbefore _, ?_⟩
      rintro ⟨-, hclean⟩
      cases hclean
    · show Except.ok (steadyItem.entity "items") ∉
        [Except.ok firstItem, .error (QueryError.invalidArgument "attribute name must not be empty")]
      simp [Record.entity, steadyItem, firstItem, FieldValue.toValue]

end StoreQuery.MapStore
