import Mathlib.Data.List.Infix
import StoreQuery.Proofs.Paging.Call
import StoreQuery.Proofs.Paging.Delivery
/-!
A source that feeds a query brings its entities bit by bit and is done when all have arrived or the
limit is reached. The stream over it yields what is due of all of them, then the failure after them
unless the limit cuts it off.
-/
namespace StoreQuery

variable {σ : Type} {source : Source σ} {all : List Entity} {failure : Option QueryError}
  {Holds : Pager → σ → List Entity → Prop} {Done : σ → Prop}

namespace Pager

variable {p : Pager} {s t : σ} {arrived : List Entity} {page : Page RowResult}
  {responses : List Response} {turn : Turn} {rest : List RowResult}

instance (p : Pager) (arrived : List Entity) : Decidable (p.Room arrived) :=
  inferInstanceAs (Decidable (_ ∨ _))

def items (p : Pager) (all : List Entity) (failure : Option QueryError) : List RowResult :=
  (p.due all).map Except.ok ++ if p.Room all then failure.toList.map Except.error else []

/-- A pager may ask for more while it has no error to report and the limit leaves room. -/
structure Asks (p : Pager) (arrived : List Entity) : Prop where
  state : p.state ≠ .exhausted
  pending : p.pending = none
  tracks : p.Tracks arrived
  room : p.Room arrived

/-- What one page of a feed leads to: at the limit, at a failure and at the end the source is done,
and all entities have arrived unless the limit was reached first. -/
structure Brings (all : List Entity) (failure : Option QueryError)
    (Holds : Pager → σ → List Entity → Prop) (Done : σ → Prop) (p : Pager) (arrived : List Entity)
    (page : Page RowResult) (t : σ) : Prop where
  arrives : arrived ++ p.arriving page <+: all
  filled : p.fills page = true → Done t
  failed : p.fills page = false → ∀ e, failure? page.rows = some e →
    arrived ++ p.arriving page = all ∧ failure = some e ∧ Done t
  ended : p.fills page = false → failure? page.rows = none → p.endsWith page = true →
    arrived ++ p.arriving page = all ∧ failure = none ∧ Done t
  more : p.fills page = false → failure? page.rows = none → p.endsWith page = false →
    Holds (p.accept page).pager t (arrived ++ p.arriving page)

def Feeds (source : Source σ) (all : List Entity) (failure : Option QueryError)
    (Holds : Pager → σ → List Entity → Prop) (Done : σ → Prop) : Prop :=
  ∀ p s arrived, Asks p arrived → Holds p s arrived →
    ∃ page, (p.fetched source s).answer = .ok page ∧
      Brings all failure Holds Done p arrived page (p.fetched source s).state

/-- What is known of a reading may be told in another way. -/
theorem Feeds.congr {Other : Pager → σ → List Entity → Prop}
    (h : Feeds source all failure Holds Done)
    (hsame : ∀ p s arrived, Other p s arrived ↔ Holds p s arrived) :
    Feeds source all failure Other Done := by
  intro p s arrived ha hother
  obtain ⟨page, hpage, hbrings⟩ := h p s arrived ha ((hsame p s arrived).mp hother)
  refine ⟨page, hpage, { hbrings with more := ?_ }⟩
  intro hfills hclean hends
  exact (hsame _ _ _).mpr (hbrings.more hfills hclean hends)

inductive Owes (all : List Entity) (failure : Option QueryError)
    (Holds : Pager → σ → List Entity → Prop) (Done : σ → Prop) (p : Pager) (s : σ) :
    List RowResult → Prop where
  | asking {arrived : List Entity} : Asks p arrived → Holds p s arrived →
      Owes all failure Holds Done p s ((p.items all failure).drop (p.due arrived).length)
  | owing {e : QueryError} : p.state ≠ .exhausted → p.pending = some e → Done s →
      Owes all failure Holds Done p s [.error e]
  | closed : p.state = .exhausted → Done s → Owes all failure Holds Done p s []

theorem due_prefix (h : arrived <+: all) : p.due arrived <+: p.due all := by
  have hdrop := h.drop p.engineSkip
  by_cases hlimit : 0 < p.query.limit
  · simp only [due, capped_of_pos hlimit]
    exact hdrop.take p.query.limit
  · simp only [due, Nat.eq_zero_of_not_pos hlimit, capped_zero]
    exact hdrop

theorem due_of_full (h : arrived <+: all) (hfull : ¬ p.Room arrived) :
    p.due all = p.due arrived ∧ ¬ p.Room all := by
  simp only [Room] at hfull ⊢
  obtain ⟨hlimit, hreached⟩ := not_or.mp hfull
  have hprefix := h.drop p.engineSkip
  constructor
  · obtain ⟨later, hlater⟩ := hprefix
    have hpos : 0 < p.query.limit := Nat.pos_of_ne_zero hlimit
    simp only [due, capped_of_pos hpos]
    rw [← hlater, List.take_append_of_le_length (by omega)]
  · have hle := hprefix.length_le
    omega

theorem items_of_full (h : arrived <+: all) (hfull : ¬ p.Room arrived) :
    p.items all failure = (p.due arrived).map Except.ok := by
  obtain ⟨hdue, hroom⟩ := due_of_full h hfull
  simp only [items]
  rw [if_neg hroom, hdue, List.append_nil]

theorem items_of_room (hroom : p.Room all) :
    p.items all failure = (p.due all).map Except.ok ++ failure.toList.map Except.error := by
  simp only [items]
  rw [if_pos hroom]

theorem drop_map_due (es : List Entity) (rest : List RowResult) :
    (es.map Except.ok ++ rest).drop es.length = rest := by
  rw [List.drop_append_of_le_length (by simp), List.drop_eq_nil_of_le (by simp), List.nil_append]

/-- A page takes its rows off the items that are still to come. -/
theorem items_step (ha : Asks p arrived) (h : arrived ++ p.arriving page <+: all) :
    (p.items all failure).drop (p.due arrived).length =
      (p.accept page).rows.map Except.ok ++
        (p.items all failure).drop (p.due (arrived ++ p.arriving page)).length := by
  have hdue := due_append_arriving ha.tracks ha.room page
  obtain ⟨later, hlater⟩ := due_prefix (p := p) h
  simp only [items]
  rw [← hlater, hdue]
  simp only [List.map_append, List.append_assoc, List.length_append]
  rw [drop_map_due, ← List.drop_drop, drop_map_due, drop_map_due]

theorem asks_more (ha : Asks p arrived) (hfills : p.fills page = false)
    (hstate : (p.accept page).pager.state = .hasMore)
    (hpend : (p.accept page).pager.pending = p.pending) :
    Asks (p.accept page).pager (arrived ++ p.arriving page) := by
  constructor
  · rw [hstate]
    exact PagerState.noConfusion
  · exact hpend.trans ha.pending
  · exact tracks_accept ha.tracks ha.room page
  · exact (room_accept p page _).mpr ((room_iff ha.tracks ha.room page).mpr hfills)

theorem items_accept (p : Pager) (page : Page RowResult) :
    (p.accept page).pager.items all failure = p.items all failure := by
  simp only [items]
  rw [due_accept]
  congr 1
  exact if_congr (room_accept p page all) rfl rfl

theorem owes_accept (ha : Asks p arrived)
    (hb : Brings all failure Holds Done p arrived page t) :
    ∃ rest, (p.items all failure).drop (p.due arrived).length =
        (p.accept page).rows.map Except.ok ++ rest ∧
      Owes all failure Holds Done (p.accept page).pager t rest := by
  refine ⟨_, items_step ha hb.arrives, ?_⟩
  have hroom := room_iff ha.tracks ha.room page
  cases accept_leads p page with
  | filled hfills hstate =>
    rw [items_of_full hb.arrives (by rw [hroom, hfills]; exact Bool.noConfusion),
      List.drop_eq_nil_of_le (by simp)]
    exact .closed hstate (hb.filled hfills)
  | failed e hfills hfail hstate hpend =>
    obtain ⟨hall, hfailure, hdone⟩ := hb.failed hfills e hfail
    have hopen := hroom.mpr hfills
    rw [hall] at hopen ⊢
    rw [items_of_room hopen, drop_map_due, hfailure]
    exact .owing (by rw [hstate]; exact PagerState.noConfusion) hpend hdone
  | ended hfills hnone hends hstate =>
    obtain ⟨hall, hfailure, hdone⟩ := hb.ended hfills hnone hends
    have hopen := hroom.mpr hfills
    rw [hall] at hopen ⊢
    rw [items_of_room hopen, drop_map_due, hfailure]
    exact .closed hstate hdone
  | more hfills hnone hends hstate hpend =>
    rw [← items_accept p page, ← due_accept p page]
    exact .asking (asks_more ha hfills hstate hpend) (hb.more hfills hnone hends)

/-- While no error is pending, the next page takes its rows off what is owed. -/
theorem Owes.fetched {due : List RowResult} (h : Owes all failure Holds Done p s due)
    (hfeed : Feeds source all failure Holds Done) (hs : p.state ≠ .exhausted)
    (hp : p.pending = none) :
    ∃ page, (p.fetched source s).answer = .ok page ∧
      ∃ rest, due = (p.accept page).rows.map Except.ok ++ rest ∧
        Owes all failure Holds Done (p.accept page).pager (p.fetched source s).state rest := by
  cases h with
  | asking ha hholds =>
    obtain ⟨page, hpage, hb⟩ := hfeed p s _ ha hholds
    exact ⟨page, hpage, owes_accept ha hb⟩
  | owing _ he =>
    rw [hp] at he
    cases he
  | closed hclosed => exact (hs hclosed).elim

/-- A call brings the next of the items that are owed. -/
theorem Call.owes (h : Call source p s responses turn t) (hfeed : Feeds source all failure Holds Done)
    {due : List RowResult} (ho : Owes all failure Holds Done p s due) :
    match turn.answer with
    | .ok none => due = [] ∧ Done t
    | .error e => due = [.error e] ∧ Done t
    | .ok (some es) => es ≠ [] ∧
      ∃ rest, due = es.map Except.ok ++ rest ∧ Owes all failure Holds Done turn.pager t rest := by
  induction h generalizing due with
  | ended hs =>
    cases ho with
    | asking ha => exact (ha.state hs).elim
    | owing hopen => exact (hopen hs).elim
    | closed _ hdone => exact ⟨rfl, hdone⟩
  | overdue hs hp =>
    cases ho with
    | asking ha =>
      rw [ha.pending] at hp
      cases hp
    | owing _ he hdone =>
      rw [hp] at he
      cases he
      exact ⟨rfl, hdone⟩
    | closed hclosed => exact (hs hclosed).elim
  | refused hs hp hf =>
    obtain ⟨page, hpage, _⟩ := ho.fetched hfeed hs hp
    rw [hf] at hpage
    cases hpage
  | delivered hs hp hf hrows =>
    obtain ⟨page, hpage, hrest⟩ := ho.fetched hfeed hs hp
    rw [hf] at hpage
    cases hpage
    exact ⟨hrows, hrest⟩
  | further hs hp hf hrows _ ih =>
    obtain ⟨page, hpage, rest, hrest, hnext⟩ := ho.fetched hfeed hs hp
    rw [hf] at hpage
    cases hpage
    rw [hrows] at hrest
    rw [hrest]
    exact ih hnext

theorem owes_start {profile : Profile} {q : Query} {pageSize : Nat}
    (h : new profile q pageSize = .ok p) (hholds : Holds p s []) :
    Owes all failure Holds Done p s (p.items all failure) := by
  have hp := eq_of_new h
  have hasks : Asks p [] := by
    rw [hp]
    refine ⟨PagerState.noConfusion, rfl, ⟨(Nat.min_zero _).symm, by simp [due, capped]⟩, ?_⟩
    simp only [Room, List.drop_nil, List.length_nil]
    omega
  have hnothing : p.due [] = [] := by simp [due, capped]
  have howes : Owes all failure Holds Done p s ((p.items all failure).drop (p.due []).length) :=
    .asking hasks hholds
  rw [hnothing] at howes
  exact howes

end Pager

namespace EntityStream

variable {t : EntityStream} {s : σ}

/-- The items that a stream is still to yield: those of the page at hand, then what its pager owes. -/
structure Owes (all : List Entity) (failure : Option QueryError)
    (Holds : Pager → σ → List Entity → Prop) (Done : σ → Prop) (t : EntityStream) (s : σ)
    (due rest : List RowResult) : Prop where
  due_eq : due = t.buffer.map Except.ok ++ rest
  drained : t.done = true → rest = [] ∧ Done s
  running : t.done = false → Pager.Owes all failure Holds Done t.pager s rest

/-- A stream that has not yielded anything owes all that its pager does. -/
theorem owes_start {p : Pager} {due : List RowResult}
    (h : Pager.Owes all failure Holds Done p s due) :
    Owes all failure Holds Done { pager := p } s due due :=
  ⟨rfl, fun h => Bool.noConfusion h, fun _ => h⟩

theorem next_of_owes (hfeed : Pager.Feeds source all failure Holds Done) {due rest : List RowResult}
    (h : Owes all failure Holds Done t s due rest) :
    let o := (t.next source).run s
    o.answer.1 = due.head? ∧ (due = [] → Done o.state) ∧
      ∃ rest, Owes all failure Holds Done o.answer.2 o.state due.tail rest := by
  obtain ⟨pager, buffer, done⟩ := t
  obtain ⟨hdue, hdrained, hrunning⟩ := h
  subst hdue
  simp only [next]
  cases buffer with
  | cons e buffer =>
    refine ⟨rfl, fun h => (List.cons_ne_nil _ _ h).elim, rest, ?_⟩
    exact ⟨rfl, hdrained, hrunning⟩
  | nil =>
    cases done with
    | true =>
      obtain ⟨hrest, hdone⟩ := hdrained rfl
      subst hrest
      exact ⟨rfl, fun _ => hdone, [], rfl, fun _ => ⟨rfl, hdone⟩, fun h => Bool.noConfusion h⟩
    | false =>
      obtain ⟨responses, hcall⟩ := Pager.exists_call source pager s
      have howed := hcall.owes hfeed (hrunning rfl)
      simp only [Bool.false_eq_true, if_false, Step.answer_bind, Step.state_bind]
      generalize (pager.nextPage source).run s = o at howed ⊢
      obtain ⟨⟨answer, after⟩, state, log⟩ := o
      dsimp only at howed ⊢
      cases answer with
      | error e =>
        obtain ⟨hrest, hdone⟩ := howed
        subst hrest
        refine ⟨rfl, fun h => (List.cons_ne_nil _ _ h).elim, [], rfl, fun _ => ⟨rfl, hdone⟩, ?_⟩
        exact fun h => Bool.noConfusion h
      | ok rows =>
        cases rows with
        | none =>
          obtain ⟨hrest, hdone⟩ := howed
          subst hrest
          exact ⟨rfl, fun _ => hdone, [], rfl, fun _ => ⟨rfl, hdone⟩, fun h => Bool.noConfusion h⟩
        | some rows =>
          obtain ⟨hrows, later, hrest, hnext⟩ := howed
          subst hrest
          cases rows with
          | nil => exact (hrows rfl).elim
          | cons e rows =>
            refine ⟨rfl, fun h => (List.cons_ne_nil _ _ h).elim, later, rfl, ?_, fun _ => hnext⟩
            exact fun h => Bool.noConfusion h

theorem take_succ (source : Source σ) (t : EntityStream) (n : Nat) :
    t.take source (n + 1) = (do
      match ← t.next source with
      | (none, t) => pure ([], t)
      | (some row, t) => do
        let (rows, t) ← take source n t
        pure (row :: rows, t)) := rfl

theorem run_take_succ (source : Source σ) (t : EntityStream) (s : σ) (n : Nat) :
    ((t.take source (n + 1)).run s).answer.1 =
        (match ((t.next source).run s).answer.1 with
        | none => []
        | some row => row ::
          ((((t.next source).run s).answer.2.take source n).run ((t.next source).run s).state).answer.1) ∧
      ((t.take source (n + 1)).run s).state =
        (match ((t.next source).run s).answer.1 with
        | none => ((t.next source).run s).state
        | some _ =>
          ((((t.next source).run s).answer.2.take source n).run ((t.next source).run s).state).state) := by
  rw [take_succ]
  simp only [Step.answer_bind, Step.state_bind]
  generalize (t.next source).run s = o
  obtain ⟨⟨row, after⟩, state, log⟩ := o
  cases row with
  | none => exact ⟨rfl, rfl⟩
  | some row => exact ⟨rfl, rfl⟩

/-- A stream yields exactly the items that are owed, and the source is done once it has ended. -/
theorem take_of_owes (hfeed : Pager.Feeds source all failure Holds Done) (n : Nat)
    {due rest : List RowResult} (h : Owes all failure Holds Done t s due rest) :
    ((t.take source n).run s).answer.1 = due.take n ∧
      (due.length < n → Done ((t.take source n).run s).state) := by
  induction n generalizing t s due rest with
  | zero => exact ⟨rfl, fun h => (Nat.not_lt_zero _ h).elim⟩
  | succ n ih =>
    obtain ⟨hhead, hdone, later, howes⟩ := next_of_owes hfeed h
    obtain ⟨hrows, hstate⟩ := run_take_succ source t s n
    rw [hrows, hstate, hhead]
    cases due with
    | nil => exact ⟨rfl, fun _ => hdone rfl⟩
    | cons row due =>
      obtain ⟨hrest, hend⟩ := ih howes
      refine ⟨congrArg (row :: ·) hrest, ?_⟩
      intro hlt
      exact hend (Nat.lt_of_succ_lt_succ hlt)

/-- Over a feed, a new stream yields what a whole reading yields. -/
theorem take_of_feed {profile : Profile} {q : Query} {pageSize : Nat} {p : Pager}
    (h : Pager.new profile q pageSize = .ok p) (hfeed : Pager.Feeds source all failure Holds Done)
    (hholds : Holds p s []) (n : Nat) :
    (((EntityStream.mk p [] false).take source n).run s).answer.1 =
        (p.items all failure).take n ∧
      ((p.items all failure).length < n →
        Done (((EntityStream.mk p [] false).take source n).run s).state) := by
  exact take_of_owes hfeed n (owes_start (Pager.owes_start h hholds))

end EntityStream

end StoreQuery
