import StoreQuery.MapStore.MemoryMap
import StoreQuery.Proofs.MapStore.Ledger
import StoreQuery.Proofs.MapStore.Reachable
/-!
Expired entries are not noticed. A shelf drops them only when its map is used, and until then they linger
on it; still every answer is that of a ledger, from which they are gone at once. This goes on until the
clock does not get to the deadline of what is put: that panics, and from then on nothing is answered.
-/
namespace StoreQuery.MapStore

namespace Shelf

variable {s : Shelf} {e : Entry} {key : String}

theorem find?_cons (d : Entry) (s : Shelf) (key : String) :
    find? (d :: s) key = if d.record.key = key then some d else s.find? key := by
  by_cases h : d.record.key = key <;> simp [find?, h]

theorem Increasing.key_ne {d : Entry} (h : Shelf.Increasing (d :: s)) (he : e ∈ s) :
    e.record.key ≠ d.record.key := by
  intro hkey
  have hlt := (List.pairwise_cons.mp h).1 e he
  rw [hkey] at hlt
  simp at hlt

theorem find?_eq_some_iff (h : s.Increasing) :
    s.find? key = some e ↔ e ∈ s ∧ e.record.key = key := by
  constructor
  · intro hfind
    exact ⟨List.mem_of_find?_eq_some hfind, by simpa using List.find?_some hfind⟩
  · rintro ⟨hmem, rfl⟩
    induction s with
    | nil => cases hmem
    | cons d s ih =>
      rw [find?_cons]
      rcases List.mem_cons.mp hmem with rfl | hmem
      · rw [if_pos rfl]
      · rw [if_neg (h.key_ne hmem).symm]
        exact ih (List.pairwise_cons.mp h).2 hmem

theorem find?_filter (h : s.Increasing) (p : Entry → Bool) (key : String) :
    find? (s.filter p) key = (s.find? key).filter p := by
  apply Option.ext
  intro e
  have hfilter : Increasing (s.filter p) := h.filter p
  rw [find?_eq_some_iff hfilter, List.mem_filter, Option.filter_eq_some_iff, find?_eq_some_iff h,
    and_right_comm]

theorem find?_map {f : Entry → Entry} (hf : ∀ e, (f e).record.key = e.record.key) (s : Shelf)
    (key : String) : find? (s.map f) key = (s.find? key).map f := by
  induction s with
  | nil => rfl
  | cons d s ih =>
    rw [List.map_cons, find?_cons, find?_cons, hf, ih]
    split <;> rfl

theorem find?_put (e : Entry) (s : Shelf) (key : String) :
    (s.put e).find? key = if key = e.record.key then some e else s.find? key := by
  induction s with
  | nil =>
    rw [put, find?_cons]
    simp [eq_comm]
  | cons d s ih =>
    simp only [put]
    cases horder : compare e.record.key d.record.key with
    | lt => simp only [find?_cons, eq_comm]
    | eq =>
      have hkey := Std.LawfulEqCmp.eq_of_compare horder
      simp only [find?_cons, ← hkey, eq_comm]
      split <;> rfl
    | gt =>
      have hkey : d.record.key ≠ e.record.key := by
        intro hkey
        rw [hkey] at horder
        simp at horder
      simp only [find?_cons, ih]
      by_cases h : d.record.key = key
      · simp [h, h ▸ hkey]
      · simp [h]

/-- What is not kept was removed. -/
theorem length_sub_kept (s : Shelf) (p : Predicate) :
    s.length - (s.filter fun e => !Predicate.test e.record p).length =
      s.countP fun e => Predicate.test e.record p := by
  have hsplit := List.length_eq_countP_add_countP (l := s)
    fun e : Entry => Predicate.test e.record p
  simp only [Bool.not_eq_true, Bool.decide_eq_false] at hsplit
  rw [← List.countP_eq_length_filter]
  omega

end Shelf

namespace Operation

def act : Operation → Step Store (Except TransportError MapAnswer)
  | .put map r ttl => Except.map (fun _ => .done) <$> Store.service.put map r ttl
  | .query q => Except.map .page <$> Store.service.query q
  | .get map key => Except.map .record <$> Except.ok <$> Store.get map key
  | .contains map key => Except.map .present <$> Except.ok <$> Store.contains map key
  | .size map => Except.map .count <$> Except.ok <$> Store.size map
  | .removeMatching map p => Except.map .count <$> Store.service.removeMatching map p
  | .removeFields map p names => Except.map .count <$> Store.service.removeFields map p names

def actAt (now : Nat) (op : Operation) : Step Store (Except TransportError MapAnswer) := fun s =>
  op.act.run (s.tick now)

def perform : Operation → Step MemoryMap (Except TransportError MapAnswer)
  | .put map r ttl => Except.map (fun _ => .done) <$> MemoryMap.service.put map r ttl
  | .query q => Except.map .page <$> MemoryMap.service.query q
  | .get map key => Except.map .record <$> MemoryMap.get map key
  | .contains map key => Except.map .present <$> MemoryMap.contains map key
  | .size map => Except.map .count <$> MemoryMap.size map
  | .removeMatching map p => Except.map .count <$> MemoryMap.service.removeMatching map p
  | .removeFields map p names =>
    Except.map .count <$> MemoryMap.service.removeFields map p names

def performAt (now : Nat) (op : Operation) : Step MemoryMap (Except TransportError MapAnswer) :=
  fun m => op.perform.run { m with store := m.store.tick now }

def stripped (p : Predicate) (names : List String) (e : Entry) : Entry :=
  if Predicate.test e.record p then { e with record := e.record.without names } else e

theorem stripped_key (p : Predicate) (names : List String) (e : Entry) :
    (stripped p names e).record.key = e.record.key := by
  rw [stripped]
  split <;> rfl

def leaves (now : Nat) : Operation → Shelf → Shelf
  | .put _ r ttl, shelf => shelf.put ⟨r, ttl.map (deadlineOf now)⟩
  | .removeMatching _ p, shelf =>
    (shelf.filter (Entry.isLive now)).filter fun e => !Predicate.test e.record p
  | .removeFields _ p names, shelf => (shelf.filter (Entry.isLive now)).map (stripped p names)
  | _, shelf => shelf.filter (Entry.isLive now)

def answerFrom : Operation → Shelf → MapAnswer
  | .put _ _ _, _ => .done
  | .query q, live => .page (Store.pageOf q (answersOf q.orderBy q.predicate live))
  | .get _ key, live => .record ((live.find? key).map Entry.record)
  | .contains _ key, live => .present ((live.find? key).map Entry.record).isSome
  | .size _, live => .count live.length
  | .removeMatching _ p, live =>
    .count (live.length - (live.filter fun e => !Predicate.test e.record p).length)
  | .removeFields _ p names, live =>
    .count (live.countP fun e => Predicate.test e.record p && e.record.hasAny names)

end Operation

namespace Store

variable {s t : Store} {l : Ledger} {op : Operation} {map key : String} {now : Nat}

theorem set_set (s : Store) (map : String) (first second : Shelf) :
    (s.set map first).set map second = s.set map second := by
  simp only [set, Store.mk.injEq, and_true]
  funext m
  split <;> rfl

theorem add_toNanos (now : Nat) (ttl : TimeToLive) : now + ttl.toNanos = deadlineOf now ttl := by
  rw [deadlineOf, TimeToLive.toNanos, Nat.mul_comm]

theorem deadline?_of_inTime {ttl : Option TimeToLive} (h : InTime s.clock ttl) :
    s.deadline? ttl = .ok (ttl.map (deadlineOf s.clock)) := by
  cases ttl with
  | none => rfl
  | some ttl =>
    have hclock : deadlineOf s.clock ttl < clockEnd := h ttl rfl
    simp only [deadline?, add_toNanos, hclock, if_true, Option.map_some]

theorem deadline?_of_not_inTime {ttl : Option TimeToLive} (h : ¬ InTime s.clock ttl) :
    s.deadline? ttl = .error deadlineOverflow := by
  cases ttl with
  | none => exact (h nofun).elim
  | some ttl =>
    have hclock : ¬ deadlineOf s.clock ttl < clockEnd := by
      intro hlt
      apply h
      intro t ht
      cases ht
      exact hlt
    simp only [deadline?, add_toNanos, hclock, if_false]

/-- An operation reads the shelf of its map and the clock, and writes that shelf. -/
theorem run_actAt (hfits : op.Fits now) (s : Store) :
    ((op.actAt now).run s).answer =
        .ok (op.answerFrom ((s.shelf op.map).filter (Entry.isLive now))) ∧
      ((op.actAt now).run s).state =
        (s.tick now).set op.map (op.leaves now (s.shelf op.map)) := by
  have hshelf : ∀ map, ((purge map).run (s.tick now)).state.shelf map =
      (s.shelf map).filter (Entry.isLive now) := fun _ => if_pos rfl
  have hset : ∀ map shelf, ((purge map).run (s.tick now)).state.set map shelf =
      (s.tick now).set map shelf := fun map shelf => set_set _ map _ shelf
  have hlive : ∀ map, ((purge map).run (s.tick now)).state.live map =
      (s.shelf map).filter (Entry.isLive now) := fun map => (live_purge (s.tick now) map).1
  -- Every operation but a put works on the purged shelf of its map.
  have hanswer : ∀ op : Operation,
      Except.ok (ε := TransportError)
          (op.answerFrom (((purge op.map).run (s.tick now)).state.shelf op.map)) =
        .ok (op.answerFrom ((s.shelf op.map).filter (Entry.isLive now))) := by
    intro op
    rw [hshelf]
  cases op with
  | put map r ttl =>
    have hput : (put map r ttl).run (s.tick now) = _ := run_put (deadline?_of_inTime hfits)
    exact ⟨congrArg (fun o => o.answer.map fun _ => MapAnswer.done) hput, congrArg Outcome.state hput⟩
  | query q =>
    have hpage := congrArg (Operation.query q).answerFrom (hlive q.map)
    exact ⟨congrArg Except.ok hpage, rfl⟩
  | get map key => exact ⟨hanswer (.get map key), rfl⟩
  | contains map key => exact ⟨hanswer (.contains map key), rfl⟩
  | size map => exact ⟨hanswer (.size map), rfl⟩
  | removeMatching map p =>
    have hkept := congrArg (List.filter fun e => !Predicate.test e.record p) (hshelf map)
    exact ⟨hanswer (.removeMatching map p), (hset map _).trans (congrArg (set _ map) hkept)⟩
  | removeFields map p names =>
    have hstripped := congrArg (List.map (Operation.stripped p names)) (hshelf map)
    exact ⟨hanswer (.removeFields map p names),
      (hset map _).trans (congrArg (set _ map) hstripped)⟩

theorem run_actAt_of_not_fits (hfits : ¬ op.Fits now) (s : Store) :
    ((op.actAt now).run s).answer = .error deadlineOverflow ∧
      ((op.actAt now).run s).state = s.tick now := by
  cases op with
  | put map r ttl =>
    have hput : (put map r ttl).run (s.tick now) = _ :=
      run_put_of_error (deadline?_of_not_inTime hfits)
    exact ⟨congrArg (fun o => o.answer.map fun _ => MapAnswer.done) hput, congrArg Outcome.state hput⟩
  | _ => exact (hfits trivial).elim

def ledger (s : Store) : Ledger := fun map key => (s.shelf map).find? key

def seen (s : Store) : Ledger := s.ledger.seenAt s.clock

theorem seen_set (shelf : Shelf) (map m key : String) :
    (s.set map shelf).seen m key =
      if m = map then (shelf.find? key).filter (Entry.isLive s.clock) else s.seen m key := by
  simp only [seen, Ledger.seenAt_eq, ledger, shelf_set]
  split <;> rfl

theorem find?_live (h : s.Ordered) (map key : String) :
    (s.live map).find? key = s.seen map key := by
  rw [live, Shelf.find?_filter (h map), seen, Ledger.seenAt_eq]
  rfl

theorem seenAt_seen (s : Store) : s.seen.seenAt s.clock = s.seen := Ledger.seenAt_seenAt (Nat.le_refl _)

/-- What is seen now of what is seen now. -/
theorem filter_seen (s : Store) (map key : String) :
    (s.seen map key).filter (Entry.isLive s.clock) = s.seen map key := by
  rw [← Ledger.seenAt_eq, seenAt_seen]

/-- What is seen of a store changes as a ledger does. -/
theorem seen_leaves (h : s.Ordered) (op : Operation) :
    (s.set op.map (op.leaves s.clock (s.shelf op.map))).seen =
      (s.seen.after s.clock op).seenAt s.clock := by
  funext m key
  rw [seen_set, Ledger.seenAt_eq]
  split
  · rename_i hm
    subst hm
    have hlive : Shelf.find? ((s.shelf op.map).filter (Entry.isLive s.clock)) key =
        s.seen op.map key := find?_live h op.map key
    cases op with
    | put map r ttl =>
      simp only [Operation.leaves, Operation.map, Shelf.find?_put, Ledger.after, true_and]
      split
      · rfl
      · rw [filter_seen, seen, Ledger.seenAt_eq]
        rfl
    | removeMatching map p =>
      have hkept := Shelf.find?_filter ((h map).filter (Entry.isLive s.clock))
        (fun e => !Predicate.test e.record p) key
      simp only [Operation.map] at hlive ⊢
      rw [Operation.leaves, hkept, hlive]
      exact congrArg _ (if_pos rfl).symm
    | removeFields map p names =>
      have hstripped := Shelf.find?_map (Operation.stripped_key p names)
        ((s.shelf map).filter (Entry.isLive s.clock)) key
      simp only [Operation.map] at hlive ⊢
      rw [Operation.leaves, hstripped, hlive]
      exact congrArg _ (if_pos rfl).symm
    | _ => exact congrArg _ hlive
  · rename_i hm
    rw [Ledger.after_elsewhere _ _ hm, filter_seen]

theorem increasing_leaves {shelf : Shelf} (h : shelf.Increasing) (now : Nat) (op : Operation) :
    (op.leaves now shelf).Increasing := by
  have hlive : Shelf.Increasing (shelf.filter (Entry.isLive now)) := h.filter _
  cases op with
  | put map r ttl => exact Shelf.increasing_put h _
  | removeMatching map p => exact hlive.filter _
  | removeFields map p names =>
    apply List.pairwise_map.mpr
    apply hlive.imp
    intro d e hlt
    rwa [Operation.stripped_key, Operation.stripped_key]
  | _ => exact hlive

/-- At the time of a store, what is seen of it is what is seen of a ledger. -/
structure Follows (s : Store) (l : Ledger) : Prop where
  ordered : s.Ordered
  seen : s.seen = l.seenAt s.clock

theorem Follows.tick (h : Follows s l) (hnow : s.clock ≤ now) :
    (s.tick now).seen = l.seenAt now := by
  have hseen : (s.tick now).seen = s.seen.seenAt now := (Ledger.seenAt_seenAt hnow).symm
  rw [hseen, h.seen, Ledger.seenAt_seenAt hnow]

/-- Every map is still kept by increasing key after an operation. -/
theorem ordered_actAt (h : s.Ordered) (now : Nat) (op : Operation) :
    ((op.actAt now).run s).state.Ordered := by
  by_cases hfits : op.Fits now
  · have hticked : (s.tick now).Ordered := h
    rw [(run_actAt hfits s).2]
    exact hticked.set (increasing_leaves (h op.map) now op)
  · rw [(run_actAt_of_not_fits hfits s).2]
    exact h

theorem Follows.step (h : Follows s l) (hnow : s.clock ≤ now) (hfits : op.Fits now) :
    Follows ((op.actAt now).run s).state ((l.seenAt now).after now op) := by
  refine ⟨ordered_actAt h.ordered now op, ?_⟩
  rw [(run_actAt hfits s).2, ← h.tick hnow]
  exact seen_leaves (s := s.tick now) h.ordered op

def Holds (s : Store) (map key : String) : Prop := ∃ e ∈ s.live map, e.record.key = key

end Store

namespace MemoryMap

variable {α : Type} {m : MemoryMap} {l : Ledger} {op : Operation} {now : Nat} {map key : String}
  {ops : List (Nat × Operation)}

theorem run_locked_of_poisoned (h : m.poisoned = true)
    (x : Step Store (Except TransportError α)) :
    (locked x).run m = ⟨.error lockPoisoned, m, []⟩ := by
  simp only [locked, Step.run, h, if_true]

/-- Whoever holds the lock finds the maps as they are. -/
theorem run_locked (h : m.poisoned = false) (x : Step Store (Except TransportError α)) :
    (locked x).run m =
      ⟨(x.run m.store).answer, ⟨(x.run m.store).state, !(x.run m.store).answer.isOk⟩,
        (x.run m.store).log⟩ := by
  simp only [locked, Step.run, h, Bool.false_eq_true, if_false]

/-- It does not matter whether an answer is told otherwise before or after the lock is given up. -/
theorem run_map_locked {β : Type} (f : α → β) (x : Step Store (Except TransportError α))
    (m : MemoryMap) :
    ((Except.map f <$> locked x).run m).answer = ((locked (Except.map f <$> x)).run m).answer ∧
      ((Except.map f <$> locked x).run m).state = ((locked (Except.map f <$> x)).run m).state := by
  cases hpoisoned : m.poisoned with
  | true =>
    simp only [Step.answer_map, Step.state_map, run_locked_of_poisoned hpoisoned]
    exact ⟨rfl, trivial⟩
  | false =>
    simp only [Step.answer_map, Step.state_map, run_locked hpoisoned]
    refine ⟨trivial, ?_⟩
    cases (x.run m.store).answer with
    | error e => rfl
    | ok a => rfl

/-- The lock is held during the whole operation. -/
theorem run_perform (op : Operation) (m : MemoryMap) :
    (op.perform.run m).answer = ((locked op.act).run m).answer ∧
      (op.perform.run m).state = ((locked op.act).run m).state := by
  cases op with
  | _ => exact run_map_locked _ _ m

theorem run_performAt (h : m.poisoned = false) (op : Operation) (now : Nat) :
    ((op.performAt now).run m).answer = ((op.actAt now).run m.store).answer ∧
      ((op.performAt now).run m).state =
        ⟨((op.actAt now).run m.store).state, !((op.actAt now).run m.store).answer.isOk⟩ := by
  have hticked : ({ m with store := m.store.tick now } : MemoryMap).poisoned = false := h
  obtain ⟨hanswer, hstate⟩ := run_perform op { m with store := m.store.tick now }
  rw [run_locked hticked] at hanswer hstate
  exact ⟨hanswer, hstate⟩

theorem run_performAt_of_fits (h : m.poisoned = false) (hfits : op.Fits now) :
    ((op.performAt now).run m).answer =
        .ok (op.answerFrom ((m.store.shelf op.map).filter (Entry.isLive now))) ∧
      ((op.performAt now).run m).state = ⟨((op.actAt now).run m.store).state, false⟩ := by
  obtain ⟨hanswer, hstate⟩ := run_performAt h op now
  obtain ⟨hact, -⟩ := Store.run_actAt hfits m.store
  rw [hact] at hanswer hstate
  exact ⟨hanswer, hstate⟩

def answers (m : MemoryMap) (ops : List (Nat × Operation)) :
    List (Except TransportError MapAnswer) :=
  (Step.runEach (fun p => p.2.performAt p.1) m ops).map Outcome.answer

def afterAll (m : MemoryMap) (ops : List (Nat × Operation)) : MemoryMap :=
  ops.foldl (fun m p => ((p.2.performAt p.1).run m).state) m

end MemoryMap

end StoreQuery.MapStore
