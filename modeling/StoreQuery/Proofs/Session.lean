import StoreQuery.Proofs.Paging.Windowing
import StoreQuery.Session
/-!
The single entity of a query. The first two items of a reading decide what it is, so the answer depends
on neither the page size nor the way in which a source serves its rows.
-/
namespace StoreQuery

variable {σ : Type} {source : Source σ} {q : Query} {rows : List RowResult} {Holds : σ → Prop}
  {Place : σ → Token → Nat → Prop}

section Reading

/-- What a reader without a limit gets. Only a store that skips by itself never shows a failure among
the skipped rows. -/
def Windowing.unlimited (w : Windowing) (skip : Nat) (rows : List RowResult) : List RowResult :=
  match w with
  | .native => throughFailure (rows.drop skip)
  | _ =>
    match failure? (rows.take skip) with
    | some e => [.error e]
    | none => throughFailure (rows.drop skip)

theorem readThrough_eq_capped (limit : Nat) (rows : List RowResult) :
    readThrough 0 limit rows (firstFailure? rows) = capped limit (throughFailure rows) := by
  cases hf : firstFailure? rows with
  | none => rw [readThrough, List.drop_zero, throughFailure_of_none (failure?_of_firstFailure_none hf)]
  | some f =>
    rw [throughFailure_eq_take hf]
    simp only [readThrough, List.drop_zero, Nat.zero_add]
    split
    · rename_i hcut
      rw [capped_of_pos hcut.1, capped_of_pos hcut.1, List.take_take, Nat.min_eq_left (by omega)]
    · rename_i hroom
      rw [← List.take_add_one]
      rcases Nat.eq_zero_or_pos limit with rfl | hlimit
      · rw [capped_zero]
      · have hwhole : (rows.take (f + 1)).length ≤ limit := by
          rw [List.length_take]
          omega
        rw [capped_of_pos hlimit, List.take_of_length_le hwhole]

/-- A failure among the rows that the reader skips itself is all that it gets. -/
theorem readThrough_of_skipped {skip : Nat} {e : QueryError} (limit : Nat)
    (h : failure? (rows.take skip) = some e) :
    readThrough skip limit rows (firstFailure? rows) = [.error e] := by
  cases hf : firstFailure? (rows.take skip) with
  | none =>
    rw [failure?_of_firstFailure_none hf] at h
    cases h
  | some f =>
    obtain ⟨_, he, hat, -, -⟩ := rows_of_firstFailure hf
    cases h.symm.trans he
    rw [firstFailure?_take, Option.filter_eq_some_iff, decide_eq_true_eq] at hf
    obtain ⟨hfirst, hlt⟩ := hf
    rw [List.getElem?_take_of_lt hlt] at hat
    have hbefore : (rows.take f).drop skip = [] := by
      apply List.drop_eq_nil_of_le
      rw [List.length_take]
      omega
    simp only [readThrough, hfirst]
    rw [if_neg (by omega), hbefore, hat]
    rfl

theorem Windowing.reading_eq_capped (w : Windowing) (skip limit : Nat) (rows : List RowResult) :
    w.reading skip limit rows = capped limit (w.unlimited skip rows) := by
  have hdropped : readThrough skip limit rows ((firstFailure? (rows.drop skip)).map (skip + ·)) =
      capped limit (throughFailure (rows.drop skip)) := by
    rw [← readThrough_drop, readThrough_eq_capped]
  have hshown : readThrough skip limit rows (firstFailure? rows) =
      capped limit (match failure? (rows.take skip) with
        | some e => [.error e]
        | none => throughFailure (rows.drop skip)) := by
    cases hfail : failure? (rows.take skip) with
    | none => rw [firstFailure?_drop hfail, hdropped]
    | some e =>
      rw [readThrough_of_skipped limit hfail]
      rcases Nat.eq_zero_or_pos limit with rfl | hlimit
      · rfl
      · rw [capped_of_pos hlimit, List.take_of_length_le hlimit]
  cases w with
  | native => exact hdropped
  | _ => exact hshown

theorem Windowing.mem_of_unlimited {w : Windowing} {skip : Nat} {row : RowResult}
    (h : row ∈ w.unlimited skip rows) : row ∈ rows := by
  have hdropped : row ∈ throughFailure (rows.drop skip) → row ∈ rows := fun hrow =>
    List.mem_of_mem_drop ((isPrefix_throughFailure _).subset hrow)
  simp only [unlimited] at h
  split at h
  · exact hdropped h
  · split at h
    · rename_i e he
      cases List.mem_singleton.mp h
      exact List.mem_of_mem_take (mem_of_failure he)
    · exact hdropped h

end Reading

namespace Session

/-- What the items of a reading come to when there should be one. -/
def sole (collection : String) : List RowResult → Except QueryError (Option Entity)
  | [] => .ok none
  | [.ok e] => .ok (some e)
  | .error err :: _ => .error err
  | .ok _ :: .error err :: _ => .error err
  | .ok _ :: .ok _ :: _ => .error (.ambiguous collection)

variable {s : Session σ} {t : EntityStream} {st : σ} {all : List Entity} {failure : Option QueryError}
  {Feeding : Pager → σ → List Entity → Prop} {Done : σ → Prop} {due rest : List RowResult}

theorem executeOne_of_owes (hstream : s.stream q = .ok (source, t))
    (hfeed : Pager.Feeds source all failure Feeding Done)
    (h : EntityStream.Owes all failure Feeding Done t st due rest) :
    ((s.executeOne q).run st).answer = sole q.collection due := by
  obtain ⟨hfirst, -, later, howes⟩ := EntityStream.next_of_owes hfeed h
  have hsecond := (EntityStream.next_of_owes hfeed howes).1
  simp only [executeOne, hstream, Step.answer_bind]
  generalize (t.next source).run st = o at *
  obtain ⟨⟨row, after⟩, state, log⟩ := o
  dsimp only at hfirst hsecond
  subst hfirst
  rcases due with - | ⟨_ | e, due⟩
  · rfl
  · rfl
  · simp only [List.head?_cons, Step.answer_bind]
    generalize (after.next source).run state = o at *
    obtain ⟨⟨row, after⟩, state, log⟩ := o
    dsimp only at hsecond
    subst hsecond
    rcases due with - | ⟨_ | f, due⟩ <;> rfl

/-- When an answer says of a reading what it is. -/
structure Decides (collection : String) (items : List RowResult)
    (answer : Except QueryError (Option Entity)) : Prop where
  none : answer = .ok none ↔ items = []
  one : ∀ e, answer = .ok (some e) ↔ items = [.ok e]
  failed : ∀ err, answer = .error err ↔
    (∃ rest, items = .error err :: rest) ∨ (∃ e rest, items = .ok e :: .error err :: rest) ∨
      err = .ambiguous collection ∧ ∃ e f rest, items = .ok e :: .ok f :: rest
  ambiguous : .error (.ambiguous collection) ∉ items →
    (answer = .error (.ambiguous collection) ↔ ∃ e f rest, items = .ok e :: .ok f :: rest)

theorem decides_sole (collection : String) (items : List RowResult) :
    Decides collection items (sole collection items) := by
  have hfailed : ∀ err, sole collection items = .error err ↔
      (∃ rest, items = .error err :: rest) ∨ (∃ e rest, items = .ok e :: .error err :: rest) ∨
        err = .ambiguous collection ∧ ∃ e f rest, items = .ok e :: .ok f :: rest := by
    intro err
    fun_cases sole <;> simp [eq_comm]
  constructor
  · fun_cases sole <;> simp
  · intro e
    fun_cases sole <;> simp
  · exact hfailed
  · intro hown
    rw [hfailed]
    constructor
    · rintro (⟨rest, rfl⟩ | ⟨e, rest, rfl⟩ | ⟨-, hboth⟩)
      · exact (hown (by simp)).elim
      · exact (hown (by simp)).elim
      · exact hboth
    · intro hboth
      exact .inr (.inr ⟨rfl, hboth⟩)

theorem Decides.mem_of_single {collection : String} {items : List RowResult}
    {answer : Except QueryError (Option Entity)} {err : QueryError}
    (h : Decides collection items answer) (hlength : items.length ≤ 1) (herr : answer = .error err) :
    .error err ∈ items := by
  rcases (h.failed err).mp herr with ⟨rest, rfl⟩ | ⟨e, rest, rfl⟩ | ⟨-, e, f, rest, rfl⟩
  · exact List.mem_cons_self
  · simp at hlength
  · simp at hlength

/-- However its source serves the rows and pages them, the single entity of a query is decided by the
first two of the items that the query selects. -/
theorem executeOne_decides (s : Session σ) (st : σ) (hsource : s.sourceFor q.collection = .ok source)
    (hsort : source.profile.sort = .multiKey) (hrows : rows.length < 2 ^ 64)
    (hserves : Serves source q rows Holds Place) (hholds : Holds st) :
    Decides q.collection (capped q.limit (source.profile.windowing.unlimited q.skip rows))
        ((s.executeOne q).run st).answer ∧
      (q.limit = 1 → ∀ err, ((s.executeOne q).run st).answer = .error err → .error err ∈ rows) := by
  have hmax : rows.length ≤ maxCount := by
    simp only [maxCount]
    omega
  obtain ⟨p, hp, hprofile, hquery⟩ := Pager.exists_new q s.pageSize hsort
  have hstream : s.stream q = .ok (source, { pager := p }) := by
    simp only [stream, pager, hsource, ok_bind, hp]
    rfl
  have hfeeds := Pager.feeds_of_serves hserves hmax (.inr (by rw [hsort]; decide)) hprofile hquery
  have hanswer := executeOne_of_owes hstream hfeeds
    (EntityStream.owes_start (Pager.owes_start hp ⟨0, Pager.reached_start hp hholds⟩))
  rw [Pager.items_scope p hmax, hprofile, hquery, Windowing.reading_eq_capped] at hanswer
  have hdecides := decides_sole q.collection
    (capped q.limit (source.profile.windowing.unlimited q.skip rows))
  rw [← hanswer] at hdecides
  refine ⟨hdecides, ?_⟩
  intro hlimit err herr
  have hlength : (capped q.limit (source.profile.windowing.unlimited q.skip rows)).length ≤ 1 := by
    rw [hlimit, capped_of_pos Nat.one_pos]
    exact List.length_take_le _ _
  have hmem := hdecides.mem_of_single hlength herr
  exact Windowing.mem_of_unlimited ((capped_sublist _ _).subset hmem)

/-- With a page for each row, the second match is on another page and the failure after it is not met. -/
theorem executeOne_decides_across_pages :
    let profile : Profile := ⟨"rows", .statefulCursor, .clientSide, .multiKey⟩
    let rows : List RowResult :=
      [.ok ⟨"a", []⟩, .ok ⟨"b", []⟩, .ok ⟨"c", []⟩, .error (.invalidArgument "unreadable")]
    let s : Session Nat := { fallback := some (.ofRows profile rows), pageSize := 1 }
    ((s.executeOne ⟨"items", none, [], 1, 0⟩).run 0).answer = .error (.ambiguous "items") := by
  intro profile rows s
  have hdecides := (executeOne_decides (q := ⟨"items", none, [], 1, 0⟩) s 0 rfl rfl (by decide)
    (serves_ofRows profile _ rows) trivial).1
  exact (hdecides.failed _).mpr (.inr (.inr ⟨rfl, ⟨"b", []⟩, ⟨"c", []⟩, _, rfl⟩))

end Session

end StoreQuery
