import StoreQuery.MapStore.Bucket
import StoreQuery.Proofs.MapStore.Readable
/-!
The stores that buckets lead to. Whatever is written, read and removed, every map keeps its entries by
increasing key, each of them reads back as an entity, and no map has the empty name.
-/
namespace StoreQuery.MapStore

def Shelf.Increasing (s : Shelf) : Prop :=
  s.Pairwise fun d e => compare d.record.key e.record.key = .lt

theorem Shelf.mem_put {d e : Entry} {s : Shelf} (h : d ∈ s.put e) : d = e ∨ d ∈ s := by
  induction s with
  | nil => exact .inl (List.mem_singleton.mp h)
  | cons c rest ih =>
    simp only [put] at h
    cases hc : compare e.record.key c.record.key with
    | lt =>
      simp only [hc] at h
      exact List.mem_cons.mp h
    | eq =>
      simp only [hc] at h
      exact (List.mem_cons.mp h).imp id (List.mem_cons_of_mem c)
    | gt =>
      simp only [hc] at h
      rcases List.mem_cons.mp h with rfl | h
      · exact .inr List.mem_cons_self
      · exact (ih h).imp id (List.mem_cons_of_mem c)

theorem Shelf.increasing_put {s : Shelf} (h : s.Increasing) (e : Entry) : (s.put e).Increasing := by
  induction s with
  | nil => exact List.pairwise_singleton _ _
  | cons c rest ih =>
    obtain ⟨hc, hrest⟩ := List.pairwise_cons.mp h
    simp only [put]
    cases hec : compare e.record.key c.record.key with
    | lt =>
      refine List.pairwise_cons.mpr ⟨?_, h⟩
      intro d hd
      rcases List.mem_cons.mp hd with rfl | hd
      · exact hec
      · exact Std.TransCmp.lt_trans hec (hc d hd)
    | eq =>
      refine List.pairwise_cons.mpr ⟨?_, hrest⟩
      intro d hd
      exact Std.TransCmp.lt_of_eq_of_lt hec (hc d hd)
    | gt =>
      refine List.pairwise_cons.mpr ⟨?_, ih hrest⟩
      intro d hd
      rcases mem_put hd with rfl | hd
      · exact Std.OrientedCmp.lt_of_gt hec
      · exact hc d hd

def Bucket.store {σ : Type} (b : Bucket) (m : MapService σ) (e : Entity)
    (ttl : Option TimeToLive) : Attempt σ Entity := do
  let record ← Record.ofEntity b.keyAttribute e
  Attempt.ofTransport (m.put e.name record ttl)
  return e

theorem Bucket.insert_eq {σ : Type} (b : Bucket) (m : MapService σ) (identifier : String)
    (e : Entity) (ttl : Option TimeToLive) :
    b.insert m identifier e ttl = (do
      let e ← e.withKey b.keyAttribute identifier
      b.store m e ttl) := rfl

namespace Store

variable {s t : Store}

/-- What is done to a store: time passes, and buckets read and write. -/
inductive Use [RegexEngine] (s : Store) : Store → Prop where
  | wait (now : Nat) : s.clock ≤ now → Use s (s.tick now)
  | read (q : MapQuery) : Use s ((Store.service.query q).run s).state
  | insert (b : Bucket) (identifier : String) (e : Entity) (ttl : Option TimeToLive) : e.Valid →
      Use s ((b.insert Store.service identifier e ttl).run.run s).state
  | update (b : Bucket) (e : Entity) : e.Valid →
      Use s ((b.update Store.service e).run.run s).state
  | delete (b : Bucket) (d : Deletion) : Use s ((b.delete Store.service d).run.run s).state

inductive Reachable [RegexEngine] : Store → Prop where
  | init : Reachable {}
  | next {s t : Store} : Reachable s → Use s t → Reachable t

def Ordered (s : Store) : Prop := ∀ map, (s.shelf map).Increasing

structure Sound (s : Store) : Prop where
  increasing : s.Ordered
  readable : ∀ map, ∀ e ∈ s.shelf map, e.record.Readable
  named : s.shelf "" = []

theorem sound_init : Sound {} := by
  constructor
  · intro map
    exact List.Pairwise.nil
  · intro map e he
    cases he
  · rfl

theorem shelf_set (s : Store) (map m : String) (shelf : Shelf) :
    (s.set map shelf).shelf m = if m = map then shelf else s.shelf m := rfl

theorem Ordered.set (h : s.Ordered) {map : String} {shelf : Shelf} (hshelf : shelf.Increasing) :
    (s.set map shelf).Ordered := by
  intro m
  rw [shelf_set]
  split
  · exact hshelf
  · exact h m

theorem Ordered.purge (h : s.Ordered) (map : String) : ((Store.purge map).run s).state.Ordered :=
  h.set ((h map).filter _)

theorem Sound.set (h : s.Sound) {map : String} {shelf : Shelf} (hincreasing : shelf.Increasing)
    (hreadable : ∀ e ∈ shelf, e.record.Readable) (hnamed : map = "" → shelf = []) :
    (s.set map shelf).Sound := by
  constructor
  · exact h.increasing.set hincreasing
  · intro m
    rw [shelf_set]
    split
    · exact hreadable
    · exact h.readable m
  · rw [shelf_set]
    split
    · rename_i hm
      exact hnamed hm.symm
    · exact h.named

theorem Sound.set_sublist (h : s.Sound) {map : String} {shelf : Shelf}
    (hsub : shelf.Sublist (s.shelf map)) : (s.set map shelf).Sound := by
  apply h.set
  · exact (h.increasing map).sublist hsub
  · exact fun e he => h.readable map e (hsub.subset he)
  · intro hmap
    rw [hmap, h.named] at hsub
    exact List.sublist_nil.mp hsub

theorem sound_purge (h : s.Sound) (map : String) : ((purge map).run s).state.Sound :=
  h.set_sublist List.filter_sublist

theorem run_put {map : String} {r : Record} {ttl : Option TimeToLive} {deadline : Option Nat}
    (h : s.deadline? ttl = .ok deadline) :
    (put map r ttl).run s = ⟨.ok (), s.set map ((s.shelf map).put ⟨r, deadline⟩), []⟩ := by
  simp only [put, Step.run, h]

/-- Nothing is stored if there is no time for the deadline. -/
theorem run_put_of_error {map : String} {r : Record} {ttl : Option TimeToLive} {e : TransportError}
    (h : s.deadline? ttl = .error e) : (put map r ttl).run s = ⟨.error e, s, []⟩ := by
  simp only [put, Step.run, h]

theorem sound_put (h : s.Sound) {map : String} {r : Record} (hr : r.Readable) (hmap : map ≠ "")
    (ttl : Option TimeToLive) : ((put map r ttl).run s).state.Sound := by
  cases hdeadline : s.deadline? ttl with
  | error e =>
    rw [run_put_of_error hdeadline]
    exact h
  | ok deadline =>
    rw [run_put hdeadline]
    apply h.set
    · exact Shelf.increasing_put (h.increasing map) _
    · intro e he
      rcases Shelf.mem_put he with rfl | he
      · exact hr
      · exact h.readable map e he
    · exact fun hempty => (hmap hempty).elim

theorem sound_removeMatching (h : s.Sound) (map : String) (p : Predicate) :
    ((removeMatching map p).run s).state.Sound :=
  (sound_purge h map).set_sublist List.filter_sublist

theorem sound_removeFields (h : s.Sound) (map : String) (p : Predicate) (names : List String) :
    ((removeFields map p names).run s).state.Sound := by
  have hpurged := sound_purge h map
  apply hpurged.set
  · apply List.pairwise_map.mpr
    apply (hpurged.increasing map).imp
    intro d e hlt
    split <;> split <;> exact hlt
  · intro e he
    obtain ⟨d, hd, rfl⟩ := List.mem_map.mp he
    have hreadable := hpurged.readable map d hd
    split
    · exact hreadable.without names
    · exact hreadable
  · intro hmap
    subst hmap
    rw [List.map_eq_nil_iff]
    exact hpurged.named

/-- An entity is stored by putting its record. -/
theorem run_store_of_ok {b : Bucket} {e : Entity} {r : Record}
    (h : Record.ofEntity b.keyAttribute e = .ok r) (ttl : Option TimeToLive) (s : Store) :
    let o := (b.store Store.service e ttl).run.run s
    let o' := (put e.name r ttl).run s
    o.answer = (o'.answer.mapError QueryError.transport).map (fun _ => e) ∧ o.state = o'.state := by
  simp only [Bucket.store, h]
  exact Attempt.run_giving (.ofTransport (service.put e.name r ttl)) e s

/-- Storing an entity puts a record that reads back, or changes nothing. -/
theorem sound_store (h : s.Sound) (b : Bucket) {e : Entity} (he : e.Valid)
    (ttl : Option TimeToLive) : ((b.store Store.service e ttl).run.run s).state.Sound := by
  cases hrecord : Record.ofEntity b.keyAttribute e with
  | error error =>
    simp only [Bucket.store, hrecord]
    exact h
  | ok r =>
    rw [(run_store_of_ok hrecord ttl s).2]
    exact sound_put h (Record.readable_ofEntity he hrecord) he.named ttl

theorem sound_insert (h : s.Sound) (b : Bucket) (identifier : String) {e : Entity} (he : e.Valid)
    (ttl : Option TimeToLive) :
    ((b.insert Store.service identifier e ttl).run.run s).state.Sound := by
  rw [Bucket.insert_eq]
  cases hkey : e.withKey b.keyAttribute identifier with
  | error error => exact h
  | ok f => exact sound_store h b (Entity.withKey_valid he hkey) ttl

theorem sound_delete [RegexEngine] (h : s.Sound) (b : Bucket) (d : Deletion) :
    ((b.delete Store.service d).run.run s).state.Sound := by
  simp only [Bucket.delete]
  cases Predicate.of d.condition with
  | error error => exact h
  | ok p =>
    by_cases hd : d.removesEntries = true
    · simp only [hd, if_true]
      exact sound_removeMatching h d.collection p
    · simp only [hd]
      exact sound_removeFields h d.collection p d.attributes

/-- Every use of a bucket keeps the store sound. -/
theorem sound_use [RegexEngine] (h : s.Sound) (hu : Use s t) : t.Sound := by
  cases hu with
  | wait now => exact ⟨h.increasing, h.readable, h.named⟩
  | read q => exact sound_purge h q.map
  | insert b identifier e ttl he => exact sound_insert h b identifier he ttl
  | update b e he => exact sound_store h b he none
  | delete b d => exact sound_delete h b d

theorem sound_of_reachable [RegexEngine] (h : Reachable s) : s.Sound := by
  induction h with
  | init => exact sound_init
  | next _ hu ih => exact sound_use ih hu

end Store

end StoreQuery.MapStore
