import StoreQuery.Proofs.Cql.RoundTrip
import StoreQuery.Proofs.Search.RoundTrip
import StoreQuery.Proofs.Search.Scope
/-!
Conversions that fail. The error is about the first scalar from left to right that has no form of the
wanted kind, and it names what holds that scalar most closely.
-/
namespace StoreQuery

section Blame

variable {α β : Type} {reason? : α → Option String} {scalars others : List (String × α)}
  {result : Except QueryError β}

/-- The error about the first of the scalars that there is a reason against. -/
def blame? (reason? : α → Option String) (scalars : List (String × α)) : Option QueryError :=
  scalars.findSome? fun s => (reason? s.2).map (.conversion (some s.1))

theorem blame?_append :
    blame? reason? (scalars ++ others) = (blame? reason? scalars).or (blame? reason? others) :=
  List.findSome?_append

/-- No outer name takes the place of the one that is there. -/
theorem forAttribute_blame? (name : String) :
    (blame? reason? scalars).map (QueryError.forAttribute name) = blame? reason? scalars := by
  induction scalars with
  | nil => rfl
  | cons s scalars ih =>
    simp only [blame?, List.findSome?_cons] at ih ⊢
    cases reason? s.2 with
    | none => exact ih
    | some reason => rfl

/-- A conversion fails just when there is a reason against one of the scalars, and its error names the
holder of the first. -/
structure Pinpoints (reason? : α → Option String) (scalars : List (String × α))
    (result : Except QueryError β) : Prop where
  rejected : (∃ err, result = .error err) ↔ ∃ s ∈ scalars, (reason? s.2).isSome
  named : ∀ err, result = .error err →
    err.code = "QUERY_CONVERSION_FAILED" ∧
      ∃ before name offender after reason, scalars = before ++ (name, offender) :: after ∧
        (∀ s ∈ before, reason? s.2 = none) ∧ reason? offender = some reason ∧
        err.attribute? = some name ∧ err = .conversion (some name) reason

theorem blame?_eq_some_iff {err : QueryError} :
    blame? reason? scalars = some err ↔
      ∃ before name offender after reason, scalars = before ++ (name, offender) :: after ∧
        (∀ s ∈ before, reason? s.2 = none) ∧ reason? offender = some reason ∧
        err = .conversion (some name) reason := by
  rw [blame?, List.findSome?_eq_some_iff]
  constructor
  · rintro ⟨before, ⟨name, offender⟩, after, hscalars, hfirst, hbefore⟩
    obtain ⟨reason, hreason, rfl⟩ := Option.map_eq_some_iff.mp hfirst
    refine ⟨before, name, offender, after, reason, hscalars, ?_, hreason, rfl⟩
    intro s hs
    exact Option.map_eq_none_iff.mp (hbefore s hs)
  · rintro ⟨before, name, offender, after, reason, hscalars, hbefore, hreason, rfl⟩
    refine ⟨before, (name, offender), after, hscalars, ?_, ?_⟩
    · exact congrArg _ hreason
    · intro s hs
      exact congrArg _ (hbefore s hs)

theorem pinpoints_of_faultIn (h : faultIn result = blame? reason? scalars) :
    Pinpoints reason? scalars result where
  rejected := by
    simp only [← faultIn_eq_some, h, ← Option.isSome_iff_exists, blame?, List.findSome?_isSome_iff,
      Option.isSome_map]
  named err herr := by
    rw [← faultIn_eq_some, h, blame?_eq_some_iff] at herr
    obtain ⟨before, name, offender, after, reason, hscalars, hbefore, hreason, rfl⟩ := herr
    exact ⟨rfl, before, name, offender, after, reason, hscalars, hbefore, hreason, rfl, rfl⟩

/-- Where the first scalar at fault is known, so is the error. -/
theorem Pinpoints.error_eq {before after : List (String × α)} {name reason : String} {offender : α}
    (h : Pinpoints reason? scalars result) (hscalars : scalars = before ++ (name, offender) :: after)
    (hbefore : ∀ s ∈ before, reason? s.2 = none) (hreason : reason? offender = some reason) :
    result = .error (.conversion (some name) reason) := by
  have hgiven : blame? reason? scalars = some (.conversion (some name) reason) :=
    blame?_eq_some_iff.mpr ⟨before, name, offender, after, reason, hscalars, hbefore, hreason, rfl⟩
  have hmem : (name, offender) ∈ scalars := by simp [hscalars]
  obtain ⟨err, herr⟩ :=
    h.rejected.mpr ⟨(name, offender), hmem, Option.isSome_iff_exists.mpr ⟨reason, hreason⟩⟩
  obtain ⟨-, first, _, _, rest, _, hfound, hfirst, hfault, -, hnamed⟩ := h.named err herr
  have hblamed := blame?_eq_some_iff.mpr ⟨first, _, _, rest, _, hfound, hfirst, hfault, hnamed⟩
  rw [herr, Option.some.inj (hblamed.symm.trans hgiven)]

end Blame

section Documents

mutual

def Value.scalars (holder : String) : Value → List (String × Value)
  | .sequence items => Value.scalarsOfItems holder items
  | .entity ⟨_, as⟩ => Value.scalarsOfAttributes as
  | v => [(holder, v)]

def Value.scalarsOfItems (holder : String) : List Value → List (String × Value)
  | [] => []
  | v :: vs => v.scalars holder ++ Value.scalarsOfItems holder vs

def Value.scalarsOfAttributes : List Attribute → List (String × Value)
  | [] => []
  | ⟨name, v⟩ :: as => v.scalars name ++ Value.scalarsOfAttributes as

end

namespace Search

def notFinite? : Value → Option String
  | .float x => if x.isFinite then none else some (x.text ++ " has no JSON representation")
  | _ => none

mutual

theorem faultIn_jsonOf (holder : String) : ∀ v : Value,
    faultIn (QueryError.within holder (jsonOf v)) = blame? notFinite? (v.scalars holder)
  | .text _ | .integer _ | .boolean _ | .temporal _ | .bytes _ => rfl
  | .float x => by
    simp only [jsonOf, Value.scalars, blame?, List.findSome?_singleton, notFinite?]
    split <;> rfl
  | .sequence items => by
    rw [jsonOf, Value.scalars, faultIn_within, faultIn_map, ← faultIn_within]
    exact faultIn_jsonOfItems holder items
  | .entity ⟨_, as⟩ => by
    -- the errors of attributes have names, so the holder of the entity adds nothing
    rw [jsonOf, Value.scalars, faultIn_within, faultIn_map, faultIn_jsonOfAttributes as,
      forAttribute_blame?]

theorem faultIn_jsonOfItems (holder : String) : ∀ vs : List Value,
    faultIn (QueryError.within holder (jsonOfItems vs)) =
      blame? notFinite? (Value.scalarsOfItems holder vs)
  | [] => rfl
  | v :: vs => by
    rw [jsonOfItems, Value.scalarsOfItems, blame?_append, ← faultIn_jsonOf holder v,
      ← faultIn_jsonOfItems holder vs]
    simp only [faultIn_within, faultIn_both, Option.map_or]

theorem faultIn_jsonOfAttributes : ∀ as : List Attribute,
    faultIn (jsonOfAttributes as) = blame? notFinite? (Value.scalarsOfAttributes as)
  | [] => rfl
  | ⟨name, v⟩ :: as => by
    rw [jsonOfAttributes, Value.scalarsOfAttributes, blame?_append, faultIn_both,
      faultIn_jsonOf name v, faultIn_jsonOfAttributes as]

end

section Entities

variable {e : Entity}

/-- The identifier is a text, so it does not matter that it is converted apart from the others. -/
theorem blame?_others {as : List Attribute} (h : ∀ a ∈ as, a.name = idField → ∃ s, a.value = .text s) :
    blame? notFinite? (Value.scalarsOfAttributes (as.filter fun a => a.name ≠ idField)) =
      blame? notFinite? (Value.scalarsOfAttributes as) := by
  induction as with
  | nil => rfl
  | cons a as ih =>
    rw [List.forall_mem_cons] at h
    obtain ⟨name, v⟩ := a
    by_cases hname : name = idField
    · obtain ⟨s, rfl⟩ : ∃ s, v = .text s := h.1 hname
      rw [List.filter_cons_of_neg (by simpa using hname), ih h.2]
      rfl
    · rw [List.filter_cons_of_pos (by simpa using hname)]
      simp only [Value.scalarsOfAttributes, blame?_append, ih h.2]

theorem pinpoints_ofEntity (hvalid : e.Valid) (hid : ∃ id, Hit.idOf e = .ok id) :
    Pinpoints notFinite? (Value.scalarsOfAttributes e.attributes) (Hit.ofEntity e) := by
  have htext : ∀ a ∈ e.attributes, a.name = idField → ∃ s, a.value = .text s := by
    intro a ha hname
    have hget : e.get? idField = some a.value := by
      rw [← hname]
      exact congrArg (Option.map Attribute.value) (find?_of_mem hvalid.distinct ha)
    exact exists_idOf_iff.mp hid a.value hget
  apply pinpoints_of_faultIn
  obtain ⟨id, hid⟩ := hid
  rw [← blame?_others htext, ← faultIn_jsonOfAttributes, Hit.ofEntity, hid, ok_bind]
  exact faultIn_map _ _

end Entities

section Operands

/-- A comparison whose operand has the shape that its operator asks for. -/
def Shaped (c : Comparison) : Prop :=
  (c.operator = .between → c.bounds?.isSome) ∧ (c.operator = .like → c.operand.text?.isSome)

def operandScalars (c : Comparison) : List (String × Value) := c.operand.scalars c.subject

theorem faultIn_comparisonClause {c : Comparison} (h : Shaped c) :
    faultIn (comparisonClause c) = blame? notFinite? (operandScalars c) := by
  obtain ⟨subject, operator, operand⟩ := c
  cases operator with
  | between =>
    obtain ⟨⟨lower, upper⟩, hbounds⟩ := Option.isSome_iff_exists.mp (h.1 rfl)
    obtain rfl := operand_of_bounds hbounds
    simp only [comparisonClause, Comparison.bounds?, faultIn_both, faultIn_jsonOf, operandScalars,
      Value.scalars, Value.scalarsOfItems, List.append_nil, blame?_append]
  | like =>
    obtain ⟨pattern, hpattern⟩ := Option.isSome_iff_exists.mp (h.2 rfl)
    cases operand with
    | text => rfl
    | _ => cases hpattern
  | _ => exact (faultIn_map _ _).trans (faultIn_jsonOf subject operand)

mutual

theorem faultIn_conditionClause : ∀ c : Condition, (∀ leaf ∈ c.leaves, Shaped leaf) →
    faultIn (conditionClause c) = blame? notFinite? (c.leaves.flatMap operandScalars)
  | .leaf c, h => by
    rw [Condition.leaves_leaf, List.forall_mem_singleton] at h
    rw [Condition.leaves_leaf, List.flatMap_singleton]
    exact faultIn_comparisonClause h
  | .composite _ cs, h => (faultIn_map _ _).trans (faultIn_conditionClauses cs h)

theorem faultIn_conditionClauses : ∀ cs : List Condition,
    (∀ leaf ∈ Condition.leavesOfAll cs, Shaped leaf) →
    faultIn (conditionClauses cs) =
      blame? notFinite? ((Condition.leavesOfAll cs).flatMap operandScalars)
  | [], _ => rfl
  | c :: cs, h => by
    rw [Condition.leavesOfAll, List.forall_mem_append] at h
    rw [conditionClauses, Condition.leavesOfAll, List.flatMap_append, blame?_append, faultIn_both,
      faultIn_conditionClause c h.1, faultIn_conditionClauses cs h.2]

end

theorem faultIn_scopedQuery {collection : String} {condition : Option Condition}
    (h : ∀ c ∈ condition, ∀ leaf ∈ c.leaves, Shaped leaf) :
    faultIn (scopedQuery collection condition) =
      blame? notFinite? ((condition.toList.flatMap Condition.leaves).flatMap operandScalars) := by
  cases condition with
  | none => rfl
  | some c =>
    rw [Option.toList_some, List.flatMap_singleton, ← faultIn_conditionClause c (h c rfl)]
    exact faultIn_map _ _

theorem pinpoints_search (i : Index) {q : Query} (cursor : Cursor) (w : Window)
    (h : ∀ c ∈ q.condition, ∀ leaf ∈ c.leaves, Shaped leaf) :
    Pinpoints notFinite? ((q.condition.toList.flatMap Condition.leaves).flatMap operandScalars)
      (i.search q cursor w) :=
  pinpoints_of_faultIn ((faultIn_map _ _).trans (faultIn_scopedQuery h))

theorem pinpoints_deletion (i : Index) {d : Deletion} (hentries : d.removesEntries = true)
    (h : ∀ c ∈ d.condition, ∀ leaf ∈ c.leaves, Shaped leaf) :
    Pinpoints notFinite? ((d.condition.toList.flatMap Condition.leaves).flatMap operandScalars)
      (i.deletion d) := by
  apply pinpoints_of_faultIn
  rw [Index.deletion, if_pos hentries]
  exact (faultIn_map _ _).trans (faultIn_scopedQuery h)

end Operands

end Search

end Documents

section Rows

namespace Cql

mutual

def Datum.scalars (holder : String) : Datum → List (String × Datum)
  | .list items => Datum.scalarsOfItems holder items
  | .udt fields => Datum.scalarsOfFields fields
  | d => [(holder, d)]

def Datum.scalarsOfItems (holder : String) : List Datum → List (String × Datum)
  | [] => []
  | d :: ds => d.scalars holder ++ Datum.scalarsOfItems holder ds

def Datum.scalarsOfFields : List (String × Datum) → List (String × Datum)
  | [] => []
  | (name, d) :: fields => d.scalars name ++ Datum.scalarsOfFields fields

end

def outOfRange? : Datum → Option String
  | .timestamp millis =>
    match Instant.ofMillis? millis.toInt with
    | some _ => none
    | none => some ("timestamp " ++ Decimal.ofInt millis.toInt ++ " out of range")
  | _ => none

def Datum.Named (d : Datum) : Prop :=
  ∀ fields, (Datum.udt fields).Within d → "" ∉ fields.map Prod.fst

theorem Datum.Named.part {d p : Datum} (h : d.Named) (hp : p ∈ d.parts) : p.Named :=
  fun fields hfields => h fields (.part hp hfields)

variable {d : Datum} {holder : String} {items : List Datum} {fields : List (String × Datum)}

theorem faultIn_readItems
    (h : ∀ d ∈ items, faultIn (QueryError.within holder (d.read holder)) =
      blame? outOfRange? (d.scalars holder)) :
    faultIn (QueryError.within holder (Datum.readItems holder items)) =
      blame? outOfRange? (Datum.scalarsOfItems holder items) := by
  induction items with
  | nil => rfl
  | cons d ds ih =>
    rw [List.forall_mem_cons] at h
    rw [Datum.readItems, Datum.scalarsOfItems, blame?_append, ← h.1, ← ih h.2]
    simp only [faultIn_within, faultIn_both, Option.map_or]

def FieldFails (f : String × Datum) : Prop :=
  f.1 ≠ "" ∧ faultIn (QueryError.within f.1 (f.2.read f.1)) = blame? outOfRange? (f.2.scalars f.1)

theorem faultIn_readFields (h : ∀ f ∈ fields, FieldFails f) :
    faultIn (Datum.readFields fields) = blame? outOfRange? (Datum.scalarsOfFields fields) := by
  induction fields with
  | nil => rfl
  | cons f fields ih =>
    rw [List.forall_mem_cons] at h
    obtain ⟨⟨hname, hfault⟩, hrest⟩ := h
    obtain ⟨name, d⟩ := f
    simp only [Datum.readFields, Attribute.of, if_neg hname, ok_bind]
    rw [Datum.scalarsOfFields, blame?_append, ← hfault, ← ih hrest, faultIn_both]

theorem faultIn_readColumns (h : ∀ f ∈ fields, FieldFails f) (e : Entity) :
    faultIn (Row.readColumns e fields) = blame? outOfRange? (Datum.scalarsOfFields fields) := by
  induction fields generalizing e with
  | nil => rfl
  | cons f fields ih =>
    rw [List.forall_mem_cons] at h
    obtain ⟨⟨hname, hfault⟩, hrest⟩ := h
    obtain ⟨name, d⟩ := f
    rw [Row.readColumns, Datum.scalarsOfFields, blame?_append, ← hfault]
    apply faultIn_bind
    intro v
    rw [Entity.set_eq, if_neg hname, ok_bind]
    exact ih hrest _

theorem fieldFails_of_named (hnamed : (Datum.udt fields).Named)
    (h : ∀ f ∈ fields, f.2.Named → f.1 ≠ "" →
      faultIn (QueryError.within f.1 (f.2.read f.1)) = blame? outOfRange? (f.2.scalars f.1)) :
    ∀ f ∈ fields, FieldFails f := by
  intro f hf
  have hname : f.1 ≠ "" := fun hempty => hnamed fields .self (hempty ▸ List.mem_map_of_mem hf)
  exact ⟨hname, h f hf (hnamed.part (List.mem_map_of_mem hf)) hname⟩

theorem faultIn_read (hnamed : d.Named) (hholder : holder ≠ "") :
    faultIn (QueryError.within holder (d.read holder)) = blame? outOfRange? (d.scalars holder) := by
  induction d using Datum.byParts generalizing holder with
  | whole d ih =>
    cases d with
    | timestamp millis =>
      simp only [Datum.read, Datum.scalars, blame?, List.findSome?_singleton, outOfRange?]
      cases Instant.ofMillis? millis.toInt <;> rfl
    | list items =>
      rw [Datum.read, Datum.scalars, faultIn_within, faultIn_map, ← faultIn_within]
      exact faultIn_readItems fun d hd => ih d hd (hnamed.part hd) hholder
    | udt fields =>
      have hfields := fieldFails_of_named hnamed fun f hf => ih f.2 (List.mem_map_of_mem hf)
      have hentity : ∀ as, faultIn (Entity.of holder as >>= fun e => pure (Value.entity e)) = none := by
        intro as
        rw [Entity.of, Entity.new_of_named hholder]
        rfl
      rw [Datum.read, Datum.scalars, faultIn_within, faultIn_bind hentity, Option.or_none,
        faultIn_readFields hfields, forAttribute_blame?]
    | _ => rfl

theorem pinpoints_toEntity {collection : String} {r : Row} (hcollection : collection ≠ "")
    (hnamed : (Datum.udt r.columns).Named) :
    Pinpoints outOfRange? (Datum.scalarsOfFields r.columns) (r.toEntity collection) := by
  apply pinpoints_of_faultIn
  rw [Row.toEntity, Entity.new_of_named hcollection, ok_bind]
  exact faultIn_readColumns (fieldFails_of_named hnamed fun f _ => faultIn_read) _

end Cql

end Rows

/-- An entity that is written, a row that is read and a comparison, search or removal that is compiled:
the error of each is about the first scalar at fault and names the attribute, column or field that holds
it most closely. -/
theorem failed_conversions_name_the_holder :
    (∀ e : Entity, e.Valid → (∃ id, Search.Hit.idOf e = .ok id) →
      Pinpoints Search.notFinite? (Value.scalarsOfAttributes e.attributes) (Search.Hit.ofEntity e)) ∧
    (∀ (collection : String) (r : Cql.Row), collection ≠ "" → (Cql.Datum.udt r.columns).Named →
      Pinpoints Cql.outOfRange? (Cql.Datum.scalarsOfFields r.columns) (r.toEntity collection)) ∧
    (∀ c : Comparison, Search.Shaped c →
      Pinpoints Search.notFinite? (Search.operandScalars c) (Search.comparisonClause c)) ∧
    (∀ (i : Search.Index) (q : Query) (cursor : Cursor) (w : Window),
      (∀ c ∈ q.condition, ∀ leaf ∈ c.leaves, Search.Shaped leaf) →
      Pinpoints Search.notFinite?
        ((q.condition.toList.flatMap Condition.leaves).flatMap Search.operandScalars)
        (i.search q cursor w)) ∧
    ∀ (i : Search.Index) (d : Deletion), d.removesEntries = true →
      (∀ c ∈ d.condition, ∀ leaf ∈ c.leaves, Search.Shaped leaf) →
      Pinpoints Search.notFinite?
        ((d.condition.toList.flatMap Condition.leaves).flatMap Search.operandScalars)
        (i.deletion d) := by
  refine ⟨?_, ?_, ?_, ?_, ?_⟩
  · intro e hvalid hid
    exact Search.pinpoints_ofEntity hvalid hid
  · intro collection r hcollection hnamed
    exact Cql.pinpoints_toEntity hcollection hnamed
  · intro c hshaped
    exact pinpoints_of_faultIn (Search.faultIn_comparisonClause hshaped)
  · intro i q cursor w hshaped
    exact Search.pinpoints_search i cursor w hshaped
  · intro i d hentries hshaped
    exact Search.pinpoints_deletion i hentries hshaped

/-- A NaN in an entity in a list, before one in the list itself, and a moment past the last instant in a
user-defined type. -/
theorem failed_conversions_name_the_inner_holder :
    let nan : Double := ⟨0x7FF8000000000000⟩
    let spot : Value := .sequence [.entity ⟨"spot", [⟨"lat", .float nan⟩]⟩, .float nan]
    let e : Entity := ⟨"place", [⟨"_id", .text "p1"⟩, ⟨"spot", spot⟩]⟩
    let late : Cql.Datum := .timestamp 9223372036854775807
    let r : Cql.Row := ⟨[("visits", .list [.udt [("at", late)], late])]⟩
    let c : Comparison := ⟨"spot", .between, spot⟩
    let reason := nan.text ++ " has no JSON representation"
    Search.Hit.ofEntity e = .error (.conversion (some "lat") reason) ∧
      r.toEntity "places" =
        .error (.conversion (some "at") "timestamp 9223372036854775807 out of range") ∧
      Search.comparisonClause c = .error (.conversion (some "lat") reason) ∧
      Search.Index.search ⟨"i"⟩ ⟨"places", some (.leaf c), [], 0, 0⟩ {} {} =
        .error (.conversion (some "lat") reason) ∧
      Search.Index.deletion ⟨"i"⟩ ⟨"places", some (.leaf c), []⟩ =
        .error (.conversion (some "lat") reason) := by
  intro nan spot e late r c reason
  obtain ⟨hentity, hrow, hcomparison, hsearch, hdeletion⟩ := failed_conversions_name_the_holder
  have hvalid : e.Valid := ⟨by decide, by decide, by decide⟩
  have hnamed : (Cql.Datum.udt r.columns).Named := by
    intro fields hfields
    have hscalar (d : Cql.Datum) : d.Within late ↔ d = late := Cql.Datum.within_of_scalar rfl
    have : fields = r.columns ∨ fields = [("at", late)] := by
      simpa [r, hscalar, late] using hfields
    rcases this with rfl | rfl <;> decide
  have hshaped : Search.Shaped c := ⟨fun _ => rfl, fun h => by cases h⟩
  have hleaf : ∀ d ∈ some (Condition.leaf c), ∀ leaf ∈ d.leaves, Search.Shaped leaf := by
    rintro d ⟨⟩ leaf hleaf
    rw [List.mem_singleton.mp hleaf]
    exact hshaped
  have hreason : Search.notFinite? (.float nan) = some reason := if_neg (by decide)
  have hlate : Cql.outOfRange? late = some "timestamp 9223372036854775807 out of range" := by decide
  have hid : ∀ s ∈ [("_id", Value.text "p1")], Search.notFinite? s.2 = none := by
    simp [Search.notFinite?]
  have hoperand : Search.operandScalars c = [] ++ ("lat", .float nan) :: [("spot", .float nan)] := rfl
  refine ⟨?_, ?_, ?_, ?_, ?_⟩
  · exact (hentity e hvalid ⟨"p1", by decide⟩).error_eq rfl hid hreason
  · exact (hrow "places" r (by decide) hnamed).error_eq rfl (List.forall_mem_nil _) hlate
  · exact (hcomparison c hshaped).error_eq hoperand (List.forall_mem_nil _) hreason
  · exact (hsearch _ ⟨"places", some (.leaf c), [], 0, 0⟩ {} {} hleaf).error_eq hoperand
      (List.forall_mem_nil _) hreason
  · exact (hdeletion _ ⟨"places", some (.leaf c), []⟩ rfl hleaf).error_eq hoperand
      (List.forall_mem_nil _) hreason

end StoreQuery
