import StoreQuery.Proofs.MapStore.Compilation
import StoreQuery.Proofs.Removal
/-!
Keys and records. Through one bucket every entry is stored under the text of its key attribute, and the
entity that it reads as replaces it when it is written back. Only a removal that names the key attribute
itself leaves entries without it, which can be read but not be written back.
-/
namespace StoreQuery.MapStore

mutual

theorem ofValue_toValue (name : String) : ∀ v : FieldValue,
    FieldValue.ofValue name v.toValue = .ok v
  | .text _ => rfl
  | .long _ => rfl
  | .double _ => rfl
  | .bool _ => rfl
  | .instant _ => rfl
  | .bytes _ => rfl
  | .list items => congrArg (Except.map FieldValue.list) (ofItems_toItems name items)

theorem ofItems_toItems (name : String) : ∀ vs : List FieldValue,
    FieldValue.ofItems name (FieldValue.toItems vs) = .ok vs
  | [] => rfl
  | v :: vs => by
    simp only [FieldValue.toItems, FieldValue.ofItems, ofValue_toValue name v,
      ofItems_toItems name vs]
    rfl

end

theorem fieldsOf_fields (fields : List (String × FieldValue)) :
    fieldsOf (fields.map fun f => ⟨f.1, f.2.toValue⟩) = .ok fields := by
  induction fields with
  | nil => rfl
  | cons f fields ih =>
    simp only [List.map_cons, fieldsOf, ofValue_toValue, ih]
    rfl

theorem attributes_fieldsOf {as : List Attribute} {fields : List (String × FieldValue)}
    (h : fieldsOf as = .ok fields) : (fields.map fun f => ⟨f.1, f.2.toValue⟩) = as := by
  induction as generalizing fields with
  | nil =>
    cases h
    rfl
  | cons a as ih =>
    obtain ⟨v, hv, h⟩ := exists_of_bind_ok h
    obtain ⟨rest, hrest, h⟩ := exists_of_bind_ok h
    cases h
    have hvalue : v.toValue = a.value := (stored_value a.name a.value).good_of_ok hv
    obtain ⟨name, value⟩ := a
    rw [List.map_cons, hvalue, ih hrest]

namespace Record

variable {r : Record} {e : Entity} {k : String}

/-- Where the field of the key attribute is there, the entry key is its text. -/
def Keyed (r : Record) (k : String) : Prop := ∀ v, r.value? k = some v → keyText k v = .ok r.key

/-- What an entity is stored as reads back as the entity, and has its key. -/
theorem of_ofEntity (h : ofEntity k e = .ok r) :
    r.entity e.name = e ∧ ∃ v, r.value? k = some v ∧ keyText k v = .ok r.key := by
  simp only [ofEntity] at h
  split at h
  · cases h
  · rename_i v hv
    obtain ⟨key, hkey, h⟩ := exists_of_bind_ok h
    obtain ⟨fields, hfields, h⟩ := exists_of_bind_ok h
    cases h
    have hentity : (⟨key, fields⟩ : Record).entity e.name = e := by
      obtain ⟨name, attributes⟩ := e
      rw [Record.entity, attributes_fieldsOf hfields]
    refine ⟨hentity, v, ?_, hkey⟩
    rw [← get?_entity e.name, hentity, hv]

theorem ofEntity_entity {v : Value} (hv : r.value? k = some v) (hkey : keyText k v = .ok r.key)
    (collection : String) : ofEntity k (r.entity collection) = .ok r := by
  have hfields : fieldsOf (r.entity collection).attributes = .ok r.fields := fieldsOf_fields r.fields
  simp only [ofEntity, get?_entity, hv, hkey, hfields]
  rfl

theorem ofEntity_entity_of_missing (h : r.value? k = none) (collection : String) :
    ofEntity k (r.entity collection) = .error (missingKey collection k) := by
  simp only [ofEntity, get?_entity, h]
  rfl

theorem value?_without (r : Record) (names : List String) (name : String) :
    (r.without names).value? name = if name ∈ names then none else r.value? name := by
  obtain ⟨key, fields⟩ := r
  simp only [Record.value?, Record.get?, Record.without]
  induction fields with
  | nil => simp
  | cons f fields ih =>
    obtain ⟨n, v⟩ := f
    by_cases hn : n ∈ names
    · rw [List.filter_cons_of_neg (by simpa using hn), ih]
      by_cases hname : name = n
      · simp [hname, hn]
      · simp [List.lookup_cons, beq_false_of_ne hname]
    · rw [List.filter_cons_of_pos (by simpa using hn)]
      by_cases hname : name = n
      · simp [hname, hn]
      · simpa [List.lookup_cons, beq_false_of_ne hname] using ih

theorem Keyed.without (h : r.Keyed k) (names : List String) : (r.without names).Keyed k := by
  intro v hv
  rw [value?_without] at hv
  split at hv
  · cases hv
  · exact h v hv

end Record

theorem Shelf.put_of_key_eq {front back : Shelf} {d e : Entry}
    (h : Shelf.Increasing (front ++ d :: back)) (hkey : d.record.key = e.record.key) :
    Shelf.put e (front ++ d :: back) = front ++ e :: back := by
  induction front with
  | nil =>
    have hcompare : compare e.record.key d.record.key = .eq := hkey ▸ Std.ReflCmp.compare_self
    simp only [List.nil_append, put, hcompare]
  | cons c front ih =>
    obtain ⟨hfirst, hrest⟩ := List.pairwise_cons.mp h
    have hlt := hfirst d (List.mem_append_right _ List.mem_cons_self)
    have hcompare : compare e.record.key c.record.key = .gt := by
      rw [← hkey]
      exact Std.OrientedCmp.gt_of_lt hlt
    simp only [List.cons_append, put, hcompare, ih hrest]

inductive Call where
  | wait (nanos : Nat)
  | read (q : MapQuery)
  | insert (identifier : String) (e : Entity) (valid : e.Valid) (ttl : Option TimeToLive)
  | update (e : Entity) (valid : e.Valid)
  | delete (d : Deletion)

namespace Bucket

def perform [RegexEngine] (b : Bucket) (s : Store) : Call → Store
  | .wait nanos => s.tick (s.clock + nanos)
  | .read q => ((Store.service.query q).run s).state
  | .insert identifier e _ ttl => ((b.insert Store.service identifier e ttl).run.run s).state
  | .update e _ => ((b.update Store.service e).run.run s).state
  | .delete d => ((b.delete Store.service d).run.run s).state

def after [RegexEngine] (b : Bucket) (calls : List Call) : Store := calls.foldl b.perform {}

variable {b : Bucket} {s : Store} {map : String} {e : Entry}

theorem after_concat [RegexEngine] (b : Bucket) (calls : List Call) (c : Call) :
    b.after (calls ++ [c]) = b.perform (b.after calls) c := by
  rw [after, List.foldl_append]
  rfl

theorem use_perform [RegexEngine] (b : Bucket) (s : Store) (c : Call) : Store.Use s
    (b.perform s c) := by
  cases c with
  | wait nanos => exact .wait _ (Nat.le_add_right _ _)
  | read q => exact .read q
  | insert identifier e valid ttl => exact .insert b identifier e ttl valid
  | update e valid => exact .update b e valid
  | delete d => exact .delete b d

theorem reachable_after [RegexEngine] (b : Bucket) (calls : List Call) :
    (b.after calls).Reachable := by
  induction calls using List.reverseRecOn with
  | nil => exact .init
  | append_singleton calls c ih =>
    rw [after_concat]
    exact ih.next (b.use_perform _ c)

inductive Origin [RegexEngine] (b : Bucket) (s : Store) (map : String) : Call → Entry → Prop where
  | kept {c : Call} {e : Entry} : e ∈ s.shelf map → Origin b s map c e
  | stored {c : Call} {e : Entry} {f : Entity} :
      Record.ofEntity b.keyAttribute f = .ok e.record → Origin b s map c e
  | stripped {d : Deletion} {p : Predicate} {e : Entry} :
      d.collection = map → Predicate.of d.condition = .ok p → e ∈ s.live map →
      Predicate.test e.record p = true →
      Origin b s map (.delete d) { e with record := e.record.without d.attributes }

theorem run_store {f : Entity} {r : Record} (h : Record.ofEntity b.keyAttribute f = .ok r)
    {ttl : Option TimeToLive} {deadline : Option Nat} (hdeadline : s.deadline? ttl = .ok deadline) :
    let o := (b.store Store.service f ttl).run.run s
    o.answer = .ok f ∧ o.state = s.set f.name ((s.shelf f.name).put ⟨r, deadline⟩) := by
  obtain ⟨hanswer, hstate⟩ := Store.run_store_of_ok h ttl s
  rw [Store.run_put hdeadline] at hanswer hstate
  exact ⟨hanswer, hstate⟩

theorem run_store_of_overflow {f : Entity} {r : Record} (h : Record.ofEntity b.keyAttribute f = .ok r)
    {ttl : Option TimeToLive} {error : TransportError} (hdeadline : s.deadline? ttl = .error error) :
    ((b.store Store.service f ttl).run.run s).state = s := by
  rw [(Store.run_store_of_ok h ttl s).2, Store.run_put_of_error hdeadline]

theorem run_store_of_error {f : Entity} {error : QueryError}
    (h : Record.ofEntity b.keyAttribute f = .error error) (ttl : Option TimeToLive) (s : Store) :
    let o := (b.store Store.service f ttl).run.run s
    o.answer = .error error ∧ o.state = s := by
  simp only [Bucket.store, h]
  exact ⟨rfl, rfl⟩

theorem origin_of_store [RegexEngine] {c : Call} {f : Entity} {ttl : Option TimeToLive}
    (h : e ∈ ((b.store Store.service f ttl).run.run s).state.shelf map) : Origin b s map c e := by
  cases hrecord : Record.ofEntity b.keyAttribute f with
  | error error =>
    rw [(run_store_of_error hrecord ttl s).2] at h
    exact .kept h
  | ok r =>
    cases hdeadline : s.deadline? ttl with
    | error error =>
      rw [run_store_of_overflow hrecord hdeadline] at h
      exact .kept h
    | ok deadline =>
      rw [(run_store hrecord hdeadline).2, Store.shelf_set] at h
      split at h
      · rename_i hmap
        rcases Shelf.mem_put h with rfl | hkept
        · exact .stored hrecord
        · exact .kept (hmap ▸ hkept)
      · exact .kept h

theorem origin_of_delete [RegexEngine] {d : Deletion}
    (h : e ∈ ((b.delete Store.service d).run.run s).state.shelf map) :
    Origin b s map (.delete d) e := by
  obtain ⟨collection, condition, names⟩ := d
  cases hpredicate : Predicate.of condition with
  | error error =>
    simp only [Bucket.delete, hpredicate] at h
    exact .kept h
  | ok p =>
    by_cases hnames : names = []
    · subst hnames
      rw [(run_delete_entries b collection hpredicate s).2, Store.shelf_set] at h
      split at h
      · rename_i hmap
        have hlive := (List.mem_filter.mp h).1
        exact .kept (hmap ▸ (List.mem_filter.mp hlive).1)
      · exact .kept h
    · rw [(run_delete_fields b collection hpredicate hnames s).2, Store.shelf_set] at h
      split at h
      · rename_i hmap
        obtain ⟨f, hf, rfl⟩ := List.mem_map.mp h
        subst hmap
        by_cases htest : Predicate.test f.record p = true
        · rw [Operation.stripped, if_pos htest]
          exact .stripped rfl hpredicate hf htest
        · rw [Operation.stripped, if_neg htest]
          exact .kept (List.mem_filter.mp hf).1
      · exact .kept h

theorem origin_of_mem [RegexEngine] {c : Call}
    (h : e ∈ (b.perform s c).shelf map) : Origin b s map c e := by
  cases c with
  | wait nanos => exact .kept h
  | read q =>
    have hpurged : e ∈ ((Store.purge q.map).run s).state.shelf map := h
    simp only [Store.purge, Step.run, Store.shelf_set] at hpurged
    split at hpurged
    · rename_i hmap
      exact .kept (hmap ▸ (List.mem_filter.mp hpurged).1)
    · exact .kept hpurged
  | insert identifier f valid ttl =>
    simp only [perform, Bucket.insert_eq] at h
    cases hkey : f.withKey b.keyAttribute identifier with
    | error error =>
      rw [hkey] at h
      exact .kept h
    | ok g =>
      rw [hkey] at h
      exact origin_of_store h
  | update f valid => exact origin_of_store h
  | delete d => exact origin_of_delete h

theorem Origin.keyed [RegexEngine] {c : Call} (h : Origin b s map c e)
    (hs : ∀ f ∈ s.shelf map, f.record.Keyed b.keyAttribute) : e.record.Keyed b.keyAttribute := by
  cases h with
  | kept he => exact hs e he
  | stored hrecord =>
    obtain ⟨-, v, hv, hkey⟩ := Record.of_ofEntity hrecord
    intro w hw
    obtain rfl : v = w := Option.some.inj (hv.symm.trans hw)
    exact hkey
  | stripped hmap hpredicate he htest => exact (hs _ (List.mem_filter.mp he).1).without _

theorem keyed_after [RegexEngine] (b : Bucket) (calls : List Call) (map : String) :
    ∀ e ∈ (b.after calls).shelf map, e.record.Keyed b.keyAttribute := by
  induction calls using List.reverseRecOn with
  | nil =>
    intro e he
    cases he
  | append_singleton calls c ih =>
    intro e he
    rw [after_concat] at he
    exact (origin_of_mem he).keyed ih

/-- A deletion that takes the key attribute from an entry that has it. -/
structure StripsKey [RegexEngine] (b : Bucket) (s : Store) (map key : String)
    (d : Deletion) : Prop where
  collection : d.collection = map
  named : b.keyAttribute ∈ d.attributes
  taken : ∃ p, Predicate.of d.condition = .ok p ∧ ∃ e ∈ s.live map, e.record.key = key ∧
    Predicate.test e.record p = true ∧ (e.record.value? b.keyAttribute).isSome

/-- An entry without its key attribute has had it, and a deletion has taken it since. -/
theorem exists_strips [RegexEngine] {calls : List Call} (he : e ∈ (b.after calls).shelf map)
    (hmissing : e.record.value? b.keyAttribute = none) :
    ∃ before d later, calls = before ++ .delete d :: later ∧
      b.StripsKey (b.after before) map e.record.key d := by
  -- From the last call back to the one before which the entry still had the attribute.
  induction calls using List.reverseRecOn generalizing e with
  | nil => cases he
  | append_singleton calls c ih =>
    have hearlier : ∀ f ∈ (b.after calls).shelf map, f.record.key = e.record.key →
        f.record.value? b.keyAttribute = none → ∃ before d later,
          calls ++ [c] = before ++ .delete d :: later ∧
            b.StripsKey (b.after before) map e.record.key d := by
      intro f hf hkey hnone
      obtain ⟨before, d, later, rfl, hstrips⟩ := ih hf hnone
      refine ⟨before, d, later ++ [c], ?_, hkey ▸ hstrips⟩
      rw [List.append_assoc, List.cons_append]
    rw [after_concat] at he
    cases origin_of_mem he with
    | kept hkept => exact hearlier e hkept rfl hmissing
    | stored hrecord =>
      obtain ⟨-, v, hv, -⟩ := Record.of_ofEntity hrecord
      rw [hmissing] at hv
      cases hv
    | stripped hmap hpredicate hf htest =>
      rename_i d p f
      cases hvalue : f.record.value? b.keyAttribute with
      | none => exact hearlier f (List.mem_filter.mp hf).1 rfl hvalue
      | some v =>
        have hnamed : b.keyAttribute ∈ d.attributes := by
          by_contra hnot
          rw [Record.value?_without, if_neg hnot, hvalue] at hmissing
          cases hmissing
        refine ⟨calls, d, [], rfl, hmap, hnamed, p, hpredicate, f, hf, rfl, htest, ?_⟩
        rw [hvalue]
        rfl

theorem run_update {f : Entity} {r : Record} (h : Record.ofEntity b.keyAttribute f = .ok r)
    (s : Store) :
    let o := (b.update Store.service f).run.run s
    o.answer = .ok f ∧ o.state = s.set f.name ((s.shelf f.name).put ⟨r, none⟩) :=
  run_store h rfl

theorem run_update_of_error {f : Entity} {error : QueryError}
    (h : Record.ofEntity b.keyAttribute f = .error error) (s : Store) :
    let o := (b.update Store.service f).run.run s
    o.answer = .error error ∧ o.state = s :=
  run_store_of_error h none s

/-- An entry under the text of its key attribute. To write back what it reads as replaces the entry and
nothing else, but it clears the deadline. -/
structure Identified (b : Bucket) (s : Store) (map : String) (e : Entry) : Prop where
  keyed : ∃ v, e.record.value? b.keyAttribute = some v ∧
    keyText b.keyAttribute v = .ok e.record.key
  replaced :
    let o := (b.update Store.service (e.record.entity map)).run.run s
    o.answer = .ok (e.record.entity map) ∧ ∃ front back,
      s.shelf map = front ++ e :: back ∧ o.state = s.set map (front ++ ⟨e.record, none⟩ :: back)

/-- An entry that a deletion has taken the key attribute from. What it reads as cannot be written back. -/
structure Anonymous [RegexEngine] (b : Bucket) (calls : List Call) (map : String)
    (e : Entry) : Prop where
  missing : e.record.value? b.keyAttribute = none
  stripped : ∃ before d later, calls = before ++ .delete d :: later ∧
    b.StripsKey (b.after before) map e.record.key d
  refused :
    let o := (b.update Store.service (e.record.entity map)).run.run (b.after calls)
    o.answer = .error (missingKey map b.keyAttribute) ∧ o.state = b.after calls

theorem identified_of_keyed {v : Value} (hincreasing : (s.shelf map).Increasing)
    (he : e ∈ s.shelf map) (hkeyed : e.record.Keyed b.keyAttribute)
    (hv : e.record.value? b.keyAttribute = some v) : b.Identified s map e := by
  have hkey := hkeyed v hv
  refine ⟨⟨v, hv, hkey⟩, ?_⟩
  obtain ⟨hanswer, hstate⟩ := run_update (Record.ofEntity_entity hv hkey map) s
  obtain ⟨front, back, hshelf⟩ := List.append_of_mem he
  refine ⟨hanswer, front, back, hshelf, ?_⟩
  have hput : (s.shelf map).put ⟨e.record, none⟩ = front ++ ⟨e.record, none⟩ :: back := by
    rw [hshelf] at hincreasing ⊢
    exact Shelf.put_of_key_eq hincreasing rfl
  rw [← hput]
  exact hstate

end Bucket

theorem rows_pageOf_subset (q : MapQuery) (rs : List Record) : (Store.pageOf q rs).rows ⊆ rs := by
  have hrows : ∃ start stop, (Store.pageOf q rs).rows = (rs.take stop).drop start :=
    ⟨_, _, (apply_ite Page.rows _ _ _).trans (ite_self _)⟩
  obtain ⟨start, stop, hrows⟩ := hrows
  rw [hrows]
  exact ((List.drop_sublist start _).trans (List.take_sublist stop rs)).subset

theorem map_of_mapQuery [RegexEngine] {q : Query} {c : Cursor} {w : Window} {request : MapQuery}
    (h : mapQuery q c w = .ok request) : request.map = q.collection := by
  obtain ⟨predicate, _, h⟩ := exists_of_bind_ok h
  dsimp only at h
  split at h
  · cases h
    rfl
  · split at h
    · cases h
      rfl
    · cases h

/-- The rows of a fetch are what live entries read as. -/
theorem Bucket.mem_fetched [RegexEngine] {b : Bucket} {s : Store} (hs : s.Reachable) {q : Query}
    {c : Cursor}
    {w : Window} {page : Page RowResult}
    (h : (((b.source Store.service).fetch q c w).run s).answer = .ok page) {row : RowResult}
    (hrow : row ∈ page.rows) :
    ∃ e ∈ s.live q.collection, row = .ok (e.record.entity q.collection) := by
  cases hrequest : mapQuery q c w with
  | error error =>
    simp only [Bucket.source, Adapter.source, Adapter.fetch, hrequest] at h
    cases h
  | ok request =>
    have hmap := map_of_mapQuery hrequest
    have hanswer : ((Store.service.query request).run s).answer = .ok (Store.pageOf request
        (answersOf request.orderBy request.predicate (s.live q.collection))) := by
      rw [← hmap, ← (Store.live_purge s request.map).1]
      rfl
    have hpage := (b.fetch_of_query hrequest hanswer).1
    rw [h] at hpage
    cases hpage
    rw [convertRows_eq fun r hr => readable_of_answers hs (rows_pageOf_subset _ _ hr)] at hrow
    obtain ⟨entity, hentity, rfl⟩ := List.mem_map.mp hrow
    obtain ⟨r, hr, rfl⟩ := List.mem_map.mp hentity
    have hselected := (perm_answersOf s q.collection request.orderBy request.predicate).mem_iff.mp
      (rows_pageOf_subset _ _ hr)
    obtain ⟨e, he, rfl⟩ := List.mem_map.mp (List.mem_filter.mp hselected).1
    exact ⟨e, he, rfl⟩

/-- After any calls through one bucket, each map has one entry for a key, and the fields of its record have
distinct names. The key attribute is among them and has the key for its text, unless a deletion that
names it has taken it from the entry. All that is read is what entries read as. -/
theorem stored_key_identifies [RegexEngine] (b : Bucket) (calls : List Call) :
    let s := b.after calls
    (∀ map, (s.shelf map).Increasing ∧ ∀ e ∈ s.shelf map,
      e.record.Readable ∧ (b.Identified s map e ∨ b.Anonymous calls map e)) ∧
      ∀ q c w page, (((b.source Store.service).fetch q c w).run s).answer = .ok page →
        ∀ row ∈ page.rows, ∃ e ∈ s.live q.collection, row = .ok (e.record.entity q.collection) := by
  intro s
  have hreachable := b.reachable_after calls
  have hsound := Store.sound_of_reachable hreachable
  refine ⟨?_, ?_⟩
  · intro map
    refine ⟨hsound.increasing map, ?_⟩
    intro e he
    refine ⟨hsound.readable map e he, ?_⟩
    cases hvalue : e.record.value? b.keyAttribute with
    | some v =>
      exact .inl (Bucket.identified_of_keyed (hsound.increasing map) he (b.keyed_after calls map e he)
        hvalue)
    | none =>
      have hrefused := Record.ofEntity_entity_of_missing hvalue map
      exact .inr ⟨hvalue, Bucket.exists_strips he hvalue, Bucket.run_update_of_error hrefused s⟩
  · intro q c w page hpage row hrow
    exact Bucket.mem_fetched hreachable hpage hrow

theorem firstItem_valid : firstItem.Valid := ⟨by decide, by decide, by decide⟩

/-- An entry that is stored and not touched again. -/
theorem firstItem_identified :
    let b : Bucket := ⟨"id"⟩
    b.Identified (b.after [.insert "" firstItem firstItem_valid none]) "items"
      ⟨⟨"a", [("id", .text "a"), ("rank", .long 2)]⟩, none⟩ := by
  intro b
  obtain ⟨hmaps, -⟩ := stored_key_identifies b [.insert "" firstItem firstItem_valid none]
  obtain ⟨-, hentries⟩ := hmaps "items"
  obtain ⟨-, hidentified | hanonymous⟩ :=
    hentries ⟨⟨"a", [("id", .text "a"), ("rank", .long 2)]⟩, none⟩ (.head _)
  · exact hidentified
  · exact nomatch hanonymous.missing

/-- A removal of the key attribute leaves an entry that is read without it and cannot be written back. -/
theorem key_attribute_removed :
    let b : Bucket := ⟨"id"⟩
    let s := b.after
      [.insert "" firstItem firstItem_valid none, .delete ⟨"items", none, ["id", "rank"]⟩]
    let left : Record := ⟨"a", []⟩
    s.live "items" = [⟨left, none⟩] ∧ left.value? "id" = none ∧
      Record.toEntity "items" left = .ok (left.entity "items") ∧
      ((b.update Store.service (left.entity "items")).run.run s).answer =
        .error (missingKey "items" "id") :=
  ⟨rfl, rfl, rfl, rfl⟩

end StoreQuery.MapStore
