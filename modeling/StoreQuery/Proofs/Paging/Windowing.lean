import StoreQuery.Proofs.Paging.Serving
/-!
Reading a list of rows. Whoever skips, limits and sorts, the store or the pager, a reader gets the
same: the rows past the skipped ones and within the limit, up to the first that failed.
-/
namespace StoreQuery

variable {σ : Type} {source : Source σ} {q : Query} {rows : List RowResult} {Holds : σ → Prop}
  {Place : σ → Token → Nat → Prop}

/-- The rows past the skipped ones: within the limit, or through a failure that stands before it. -/
def readThrough (skip limit : Nat) (rows : List RowResult) : Option Nat → List RowResult
  | none => capped limit (rows.drop skip)
  | some f =>
    if 0 < limit ∧ skip + limit ≤ f then capped limit (rows.drop skip)
    else (rows.take f).drop skip ++ rows[f]?.toList

/-- The first failure that a reader can meet; a store that skips never shows the skipped rows. -/
def Windowing.failureAt (w : Windowing) (skip : Nat) (rows : List RowResult) : Option Nat :=
  match w with
  | .native => (firstFailure? (rows.drop skip)).map (skip + ·)
  | _ => firstFailure? rows

def Windowing.reading (w : Windowing) (skip limit : Nat) (rows : List RowResult) :
    List RowResult :=
  readThrough skip limit rows (w.failureAt skip rows)

theorem Pager.items_eq_readThrough (p : Pager) (rows : List RowResult) :
    p.items (converted rows) (failure? rows) =
      readThrough p.engineSkip p.query.limit rows (firstFailure? rows) := by
  have hroom : p.Room (converted rows) ↔
      p.query.limit = 0 ∨ (converted rows).length - p.engineSkip < p.query.limit := by
    simp only [Room]
    rw [List.length_drop]
  simp only [items, due]
  rw [map_capped, List.map_drop]
  cases hf : firstFailure? rows with
  | none =>
    have hnone := failure?_of_firstFailure_none hf
    rw [hnone, map_ok_converted hnone]
    simp [readThrough]
  | some f =>
    obtain ⟨e, hfail, hat, hbefore, hlt⟩ := rows_of_firstFailure hf
    have hlen := congrArg List.length hbefore
    rw [List.length_map, List.length_take] at hlen
    rw [hlen] at hroom
    rw [hfail, hbefore, readThrough, hat]
    by_cases hcut : 0 < p.query.limit ∧ p.engineSkip + p.query.limit ≤ f
    · rw [if_pos hcut, if_neg (by rw [hroom]; omega), List.append_nil]
      rw [capped_of_pos hcut.1, capped_of_pos hcut.1, List.drop_take, List.take_take]
      congr 1
      omega
    · rw [if_neg hcut, if_pos (by rw [hroom]; omega)]
      by_cases hlimit : 0 < p.query.limit
      · rw [capped_of_pos hlimit,
          List.take_of_length_le (by rw [List.length_drop, List.length_take]; omega)]
        rfl
      · rw [Nat.eq_zero_of_not_pos hlimit, capped_zero]
        rfl

theorem readThrough_drop (skip limit : Nat) (rows : List RowResult) (f : Option Nat) :
    readThrough 0 limit (rows.drop skip) f = readThrough skip limit rows (f.map (skip + ·)) := by
  cases f with
  | none => rfl
  | some f =>
    simp only [readThrough, Option.map_some, List.drop_zero, Nat.zero_add, List.getElem?_drop,
      List.drop_take, Nat.add_sub_cancel_left]
    exact if_congr (by omega) rfl rfl

theorem readThrough_take {skip limit : Nat} (hlimit : 0 < limit) (rows : List RowResult) :
    readThrough skip limit (rows.take (skip + limit)) (firstFailure? (rows.take (skip + limit))) =
      readThrough skip limit rows (firstFailure? rows) := by
  have hwindow : capped limit ((rows.take (skip + limit)).drop skip) =
      capped limit (rows.drop skip) := by
    rw [capped_of_pos hlimit, capped_of_pos hlimit, List.drop_take, List.take_take]
    congr 1
    omega
  rw [firstFailure?_take]
  cases firstFailure? rows with
  | none => exact hwindow
  | some f =>
    by_cases hf : f < skip + limit
    · rw [Option.filter_some, if_pos (by simpa using hf)]
      simp only [readThrough]
      rw [if_neg (by omega), if_neg (by omega), List.take_take, Nat.min_eq_left (by omega),
        List.getElem?_take_of_lt hf]
    · rw [Option.filter_some, if_neg (by simpa using hf)]
      simp only [readThrough]
      rw [hwindow, if_pos ⟨hlimit, by omega⟩]

theorem Pager.items_scope (p : Pager) (hrows : rows.length ≤ maxCount) :
    p.items (converted (p.scope rows)) (failure? (p.scope rows)) =
      p.profile.windowing.reading p.query.skip p.query.limit rows := by
  rw [items_eq_readThrough]
  unfold scope Profile.reach window windowLimit storeSkip engineSkip Profile.skipsClientSide
    Windowing.reading Windowing.failureAt
  cases p.profile.windowing with
  | native => exact readThrough_drop _ _ _ _
  | clientSide => rfl
  | nativeLimitOnly =>
    by_cases hlimit : 0 < p.query.limit
    · have hcap : capped (cappedAdd p.query.skip p.query.limit) rows =
          rows.take (p.query.skip + p.query.limit) := by
        have hpos : 0 < cappedAdd p.query.skip p.query.limit := by
          simp only [cappedAdd, maxCount]
          omega
        rw [capped_of_pos hpos]
        simp only [cappedAdd]
        by_cases hle : p.query.skip + p.query.limit ≤ maxCount
        · rw [Nat.min_eq_left hle]
        · rw [List.take_of_length_le (by omega), List.take_of_length_le (by omega)]
      simp only [if_pos hlimit]
      rw [hcap]
      exact readThrough_take hlimit rows
    · simp only [if_neg hlimit]
      rfl

/-- Where a store sorts by any number of keys, every query has a pager. -/
theorem Pager.exists_new {profile : Profile} (q : Query) (pageSize : Nat)
    (hsort : profile.sort = .multiKey) :
    ∃ p, Pager.new profile q pageSize = .ok p ∧ p.profile = profile ∧ p.query = q := by
  obtain ⟨p, hp⟩ : ∃ p, Pager.new profile q pageSize = .ok p := by
    simp only [Pager.new, Profile.maxSortKeys?]
    rw [hsort]
    exact ⟨_, rfl⟩
  have heq := Pager.eq_of_new hp
  exact ⟨p, hp, by rw [heq], by rw [heq]⟩

/-- Over a source that serves rows in any way of its own, a stream yields what a reader gets, and
then ends. -/
theorem stream_reads_window (source : Source σ) (q : Query) (pageSize : Nat) (s : σ)
    (hsort : source.profile.sort = .multiKey) (hrows : rows.length < 2 ^ 64)
    (hserves : Serves source q rows Holds Place) (hholds : Holds s) :
    ∃ p, Pager.new source.profile q pageSize = .ok p ∧
      ∀ n, (((EntityStream.mk p [] false).take source n).run s).answer.1 =
        (source.profile.windowing.reading q.skip q.limit rows).take n := by
  have hmax : rows.length ≤ maxCount := by
    simp only [maxCount]
    omega
  obtain ⟨p, hp, hprofile, hquery⟩ := Pager.exists_new q pageSize hsort
  refine ⟨p, hp, ?_⟩
  intro n
  have hfeeds := Pager.feeds_of_serves hserves hmax (.inr (by rw [hsort]; decide)) hprofile hquery
  have htake := (EntityStream.take_of_feed hp hfeeds ⟨0, Pager.reached_start hp hholds⟩ n).1
  rw [Pager.items_scope p hmax, hprofile, hquery] at htake
  exact htake

/-- The limit leaves room for two of the rows past the skipped one, and the second of them fails. -/
theorem stream_reads_window_to_failure :
    let e : QueryError := .invalidArgument "unreadable"
    let profile : Profile := ⟨"rows", .statefulCursor, .nativeLimitOnly, .multiKey⟩
    let q : Query := ⟨"items", none, [], 1, 2⟩
    let rows : List RowResult := [.ok ⟨"a", []⟩, .ok ⟨"b", []⟩, .error e, .ok ⟨"c", []⟩]
    ∃ p, Pager.new profile q 1 = .ok p ∧
      ∀ n, (((EntityStream.mk p [] false).take (.ofRows profile rows) n).run 0).answer.1 =
        [.ok ⟨"b", []⟩, .error e].take n := by
  intro e profile q rows
  exact stream_reads_window (.ofRows profile rows) q 1 0 rfl (by decide)
    (serves_ofRows profile q rows) trivial

end StoreQuery
