import StoreQuery.MapStore.Predicate
import StoreQuery.Proofs.Condition.Meaning
import StoreQuery.Proofs.Text.Expression
import StoreQuery.Proofs.Verdict
/-!
Conditions as predicates on records. A condition compiles unless one of its comparisons has an operand
that records cannot hold, and then the predicate accepts the records on which the condition holds.
-/
namespace StoreQuery

namespace Value

mutual

def hasEntity : Value → Bool
  | .entity _ => true
  | .sequence items => anyHasEntity items
  | _ => false

def anyHasEntity : List Value → Bool
  | [] => false
  | v :: vs => v.hasEntity || anyHasEntity vs

end

def AtLeast (a b : Value) : Prop := a.compare? b = some .gt ∨ a.compare? b = some .eq

def AtMost (a b : Value) : Prop := a.compare? b = some .lt ∨ a.compare? b = some .eq

end Value

/-- How a comparison reads on a value of its attribute. Values that do not compare are in no order. -/
def Comparison.HoldsOf (c : Comparison) (v : Value) : Prop :=
  match c.operator with
  | .equal => v.compare? c.operand = some .eq
  | .greater => v.compare? c.operand = some .gt
  | .greaterEqual => v.AtLeast c.operand
  | .lesser => v.compare? c.operand = some .lt
  | .lesserEqual => v.AtMost c.operand
  | .between => ∃ low high, c.operand = .sequence [low, high] ∧ v.AtLeast low ∧ v.AtMost high
  | .oneOf => ∃ items, c.operand = .sequence items ∧ ∃ item ∈ items, v.compare? item = some .eq
  | .like => ∃ text pattern, v = .text text ∧ c.operand = .text pattern ∧
      LikePattern.Matches pattern.toList text.toList

namespace MapStore

def HoldsOn (r : Record) (c : Comparison) : Prop := ∃ v, r.value? c.subject = some v ∧ c.HoldsOf v

def entityFault (subject : String) (hasEntity : Bool) : Option QueryError :=
  if hasEntity then some (.unsupportedType backend subject .entity) else none

/-- What keeps an operand from being a pattern: it is no text, or its expression is refused. -/
def patternFault? [RegexEngine] (subject : String) (operand : Value) : Option QueryError :=
  match operand.text? with
  | none => some (lacksPattern subject)
  | some pattern => (RegexEngine.refusal? (Expression.ofPattern pattern)).map badPattern

def faultOf? [RegexEngine] (c : Comparison) : Option QueryError :=
  match c.operator with
  | .like => patternFault? c.subject c.operand
  | _ => entityFault c.subject c.operand.hasEntity

theorem entityFault_or (subject : String) (a b : Bool) :
    entityFault subject (a || b) = (entityFault subject a).or (entityFault subject b) := by
  cases a with
  | true => rfl
  | false => rfl

mutual

/-- A value is stored as it is, unless there is an entity in it. -/
theorem stored_value (name : String) : ∀ v : Value,
    Verdict (entityFault name v.hasEntity) (FieldValue.ofValue name v) fun f => f.toValue = v
  | .text _ => .accept rfl
  | .integer _ => .accept rfl
  | .float _ => .accept rfl
  | .boolean _ => .accept rfl
  | .temporal _ => .accept rfl
  | .bytes _ => .accept rfl
  | .entity _ => .refuse _
  | .sequence items => (stored_items name items).map fun _ h => congrArg Value.sequence h

theorem stored_items (name : String) : ∀ vs : List Value,
    Verdict (entityFault name (Value.anyHasEntity vs)) (FieldValue.ofItems name vs)
      fun fs => FieldValue.toItems fs = vs
  | [] => .accept rfl
  | v :: vs => by
    simp only [Value.anyHasEntity, entityFault_or, FieldValue.ofItems]
    apply (stored_value name v).bind
    intro f hf
    apply (stored_items name vs).map
    intro fs hfs
    simp only [FieldValue.toItems, hf, hfs]

end

section Leaf

variable {r : Record} {subject : String} {accepts : FieldValue → Bool} {holds : Value → Prop}

def CompareOp.Reads : CompareOp → Option Ordering → Prop
  | .equal, o => o = some .eq
  | .greater, o => o = some .gt
  | .greaterEqual, o => o = some .gt ∨ o = some .eq
  | .lesser, o => o = some .lt
  | .lesserEqual, o => o = some .lt ∨ o = some .eq

theorem holds_iff (op : CompareOp) (a b : FieldValue) :
    a.holds op b = true ↔ op.Reads (a.toValue.compare? b.toValue) := by
  simp only [FieldValue.holds]
  cases a.toValue.compare? b.toValue with
  | none => cases op <;> simp [CompareOp.Reads]
  | some o => cases op <;> cases o <;> simp [CompareOp.Reads, CompareOp.accepts]

theorem any_get?_iff (h : ∀ a : FieldValue, accepts a = true ↔ holds a.toValue) :
    (r.get? subject).any accepts = true ↔ ∃ v, r.value? subject = some v ∧ holds v := by
  simp only [Record.value?]
  cases r.get? subject with
  | none => simp
  | some a => simp [h]

theorem textAccepted_iff (pattern : String) (a : FieldValue) :
    textAccepted (LikePattern.ofText pattern) a = true ↔
      ∃ text, a.toValue = .text text ∧ LikePattern.Matches pattern.toList text.toList := by
  cases a with
  | text s => simp [textAccepted, FieldValue.toValue, LikePattern.accepts_ofText]
  | _ => simp [textAccepted, FieldValue.toValue]

theorem any_equal_iff {a : FieldValue} {fs : List FieldValue} :
    (fs.any fun f => a.holds .equal f) = true ↔
      ∃ item ∈ FieldValue.toItems fs, a.toValue.compare? item = some .eq := by
  induction fs with
  | nil => simp [FieldValue.toItems]
  | cons f fs ih => simp [FieldValue.toItems, holds_iff, CompareOp.Reads, ih]

/-- A comparison with one operand, whatever the orders that its operator accepts. -/
theorem verdict_compare (op : CompareOp) {c : Comparison}
    (h : ∀ v, c.HoldsOf v ↔ op.Reads (v.compare? c.operand)) :
    Verdict (entityFault c.subject c.operand.hasEntity)
      ((FieldValue.ofValue c.subject c.operand).map (Predicate.compare c.subject op))
      fun p => ∀ r, p.test r = true ↔ HoldsOn r c := by
  apply (stored_value c.subject c.operand).map
  intro f hf r
  simp only [Predicate.test, HoldsOn, h]
  apply any_get?_iff
  intro a
  rw [holds_iff, hf]

section Compiling

variable [RegexEngine]

theorem verdict_between {subject : String} {low high : Value} :
    Verdict (entityFault subject (Value.sequence [low, high]).hasEntity)
      (Predicate.ofComparison ⟨subject, .between, .sequence [low, high]⟩)
      fun p => ∀ r, p.test r = true ↔ HoldsOn r ⟨subject, .between, .sequence [low, high]⟩ := by
  simp only [Value.hasEntity, Value.anyHasEntity, Bool.or_false, entityFault_or,
    Predicate.ofComparison, Comparison.bounds?]
  apply (stored_value subject low).bind
  intro f hf
  apply (stored_value subject high).map
  intro g hg r
  simp only [Predicate.test, HoldsOn]
  apply any_get?_iff
  intro a
  rw [Bool.and_eq_true, holds_iff, holds_iff, hf, hg]
  constructor
  · rintro ⟨hlow, hhigh⟩
    exact ⟨low, high, rfl, hlow, hhigh⟩
  · rintro ⟨l, h, heq, hlow, hhigh⟩
    cases heq
    exact ⟨hlow, hhigh⟩

theorem verdict_oneOf {subject : String} {items : List Value} :
    Verdict (entityFault subject (Value.sequence items).hasEntity)
      (Predicate.ofComparison ⟨subject, .oneOf, .sequence items⟩)
      fun p => ∀ r, p.test r = true ↔ HoldsOn r ⟨subject, .oneOf, .sequence items⟩ := by
  apply (stored_items subject items).map
  intro fs hfs r
  simp only [Predicate.test, HoldsOn]
  apply any_get?_iff
  intro a
  rw [any_equal_iff, hfs]
  simp [Comparison.HoldsOf]

theorem verdict_like {subject : String} {operand : Value} :
    Verdict (faultOf? ⟨subject, .like, operand⟩)
      (Predicate.ofComparison ⟨subject, .like, operand⟩)
      fun p => ∀ r, p.test r = true ↔ HoldsOn r ⟨subject, .like, operand⟩ := by
  cases operand with
  | text pattern =>
    simp only [faultOf?, patternFault?, Predicate.ofComparison, Value.text?, Predicate.ofPattern]
    cases RegexEngine.refusal? (Expression.ofPattern pattern) with
    | some reason => exact .refuse _
    | none =>
      apply Verdict.accept
      intro r
      simp only [Predicate.test, HoldsOn]
      apply any_get?_iff
      intro a
      rw [textAccepted_iff]
      simp [Comparison.HoldsOf]
  | _ => exact .refuse _

theorem verdict_comparison {c : Comparison}
    (h : Condition.defect? c.subject c.operator c.operand = none) :
    Verdict (faultOf? c) (Predicate.ofComparison c)
      fun p => ∀ r, p.test r = true ↔ HoldsOn r c := by
  obtain ⟨subject, operator, operand⟩ := c
  cases operator with
  | equal => exact verdict_compare .equal fun _ => Iff.rfl
  | greater => exact verdict_compare .greater fun _ => Iff.rfl
  | greaterEqual => exact verdict_compare .greaterEqual fun _ => Iff.rfl
  | lesser => exact verdict_compare .lesser fun _ => Iff.rfl
  | lesserEqual => exact verdict_compare .lesserEqual fun _ => Iff.rfl
  | between =>
    obtain ⟨low, high, rfl⟩ := Condition.operand_of_between h
    exact verdict_between
  | oneOf =>
    obtain ⟨items, rfl⟩ := Condition.operand_of_oneOf h
    exact verdict_oneOf
  | like => exact verdict_like

end Compiling

end Leaf

section Tree

variable {c d : Condition} {cs : List Condition} {subject : String}

def Means (p : Predicate) (c : Condition) : Prop :=
  ∀ r, p.test r = true ↔ c.Holds (HoldsOn r)

theorem testAll_iff {ps : List Predicate} (h : List.Forall₂ (fun c p => Means p c) cs ps)
    (r : Record) : Predicate.testAll r ps = true ↔ ∀ c ∈ cs, c.Holds (HoldsOn r) := by
  induction h with
  | nil => simp [Predicate.testAll]
  | cons hp _ ih => simp [Predicate.testAll, hp r, ih]

theorem testAny_iff {ps : List Predicate} (h : List.Forall₂ (fun c p => Means p c) cs ps)
    (r : Record) : Predicate.testAny r ps = true ↔ ∃ c ∈ cs, c.Holds (HoldsOn r) := by
  induction h with
  | nil => simp [Predicate.testAny]
  | cons hp _ ih => simp [Predicate.testAny, hp r, ih]

theorem built_of_subject (hsubject : subject ≠ "") {operator : Operator} (operand : Value)
    (hbetween : operator ≠ .between) (honeOf : operator ≠ .oneOf) :
    Condition.Built (.leaf ⟨subject, operator, operand⟩) := by
  apply Condition.built_leaf
  cases operator with
  | between => exact (hbetween rfl).elim
  | oneOf => exact (honeOf rfl).elim
  | _ => simp [Condition.defect?, hsubject]

variable [RegexEngine]

def firstFault? (c : Condition) : Option QueryError := c.leaves.findSome? faultOf?

theorem firstFault?_leaf (c : Comparison) : firstFault? (.leaf c) = faultOf? c := by
  simp only [firstFault?, Condition.leaves_leaf, List.findSome?_singleton]

theorem firstFault?_composite (connective : Connective) (cs : List Condition) :
    firstFault? (.composite connective cs) = cs.findSome? firstFault? :=
  Condition.findSome?_leaves_composite faultOf? connective cs

theorem ofConditions_eq (cs : List Condition) :
    Predicate.ofConditions cs = cs.mapM Predicate.ofCondition := by
  induction cs with
  | nil => rfl
  | cons c cs ih =>
    rw [List.mapM_cons, ← ih]
    rfl

theorem verdict_composite (connective : Connective)
    (h : ∀ c ∈ cs, Verdict (firstFault? c) (Predicate.ofCondition c) (Means · c)) :
    Verdict (firstFault? (.composite connective cs)) (Predicate.ofConditions cs)
      (List.Forall₂ (fun c p => Means p c) cs) := by
  rw [firstFault?_composite, ofConditions_eq]
  exact Verdict.mapM h

theorem ofCondition_not (c : Condition) :
    Predicate.ofCondition (.composite .not [c]) = (Predicate.ofCondition c).map .not := by
  simp only [Predicate.ofCondition, Predicate.ofConditions]
  cases Predicate.ofCondition c <;> rfl

/-- A condition that was built compiles to a predicate of its meaning, or to the error of the first
comparison that is at fault. -/
theorem verdict_condition (h : c.Built) :
    Verdict (firstFault? c) (Predicate.ofCondition c) (Means · c) := by
  induction c, h using Condition.Built.byShape with
  | leaf c _ hdefect =>
    rw [firstFault?_leaf]
    exact verdict_comparison hdefect
  | and cs _ _ ih =>
    apply (verdict_composite .and fun d hd => (ih d hd).2).map
    intro ps hps r
    rw [Condition.holds_and]
    exact testAll_iff hps r
  | or cs _ _ ih =>
    apply (verdict_composite .or fun d hd => (ih d hd).2).map
    intro ps hps r
    rw [Condition.holds_or]
    exact testAny_iff hps r
  | not c _ _ ih =>
    have hsame : firstFault? (.composite .not [c]) = firstFault? c := by
      rw [firstFault?_composite, List.findSome?_singleton]
    rw [hsame, ofCondition_not]
    apply ih.map
    intro p hp r
    simp [Predicate.test, Condition.holds_not, ← hp r]

def selects? (c : Condition) : Except QueryError (Record → Bool) :=
  (Predicate.ofCondition c).map fun p r => p.test r

theorem selects?_congr (hc : c.Built) (hd : d.Built) (hfault : firstFault? c = firstFault? d)
    (hholds : ∀ r, c.Holds (HoldsOn r) ↔ d.Holds (HoldsOn r)) : selects? c = selects? d := by
  have hverdict := verdict_condition hc
  have hother := verdict_condition hd
  simp only [selects?]
  cases hnone : firstFault? c with
  | some e => rw [hverdict.error e hnone, hother.error e (hfault ▸ hnone)]
  | none =>
    obtain ⟨p, hp, hmeans⟩ := hverdict.ok hnone
    obtain ⟨q, hq, hmeans'⟩ := hother.ok (hfault ▸ hnone)
    rw [hp, hq]
    apply congrArg Except.ok
    funext r
    rw [Bool.eq_iff_iff, hmeans r, hmeans' r]
    exact hholds r

theorem selects?_negate (c : Condition) :
    selects? c.negate = (selects? c).map fun test r => !test r := by
  simp only [selects?, Condition.negate, ofCondition_not]
  cases Predicate.ofCondition c with
  | error e => rfl
  | ok p =>
    apply congrArg Except.ok
    funext r
    simp only [Predicate.test]

/-- A range is the conjunction of its two bounds. -/
theorem selects?_between (hsubject : subject ≠ "") (low high : Value) :
    selects? (.leaf ⟨subject, .between, .sequence [low, high]⟩) =
      selects? (.composite .and
        [.leaf ⟨subject, .greaterEqual, low⟩, .leaf ⟨subject, .lesserEqual, high⟩]) := by
  apply selects?_congr
  · apply Condition.built_leaf
    simp [Condition.defect?, hsubject, Value.items?]
  · apply Condition.built_and (List.cons_ne_nil _ _)
    rw [List.forall_mem_cons, List.forall_mem_singleton]
    exact ⟨built_of_subject hsubject low (by decide) (by decide),
      built_of_subject hsubject high (by decide) (by decide)⟩
  · rw [firstFault?_composite, Verdict.findSome?_cons_or, List.findSome?_singleton]
    simp only [firstFault?_leaf, faultOf?, Value.hasEntity, Value.anyHasEntity, Bool.or_false,
      entityFault_or]
  · intro r
    rw [Condition.holds_and, List.forall_mem_cons, List.forall_mem_singleton]
    constructor
    · rintro ⟨v, hv, l, h, heq, hlow, hhigh⟩
      cases heq
      exact ⟨⟨v, hv, hlow⟩, v, hv, hhigh⟩
    · rintro ⟨⟨v, hv, hlow⟩, w, hw, hhigh⟩
      cases hv.symm.trans hw
      exact ⟨v, hv, low, high, rfl, hlow, hhigh⟩

theorem findSome?_equalities (subject : String) (items : List Value) :
    (items.map fun item => Condition.leaf ⟨subject, .equal, item⟩).findSome? firstFault? =
      entityFault subject (Value.anyHasEntity items) := by
  induction items with
  | nil => rfl
  | cons item items ih =>
    rw [List.map_cons, Verdict.findSome?_cons_or, ih, firstFault?_leaf, Value.anyHasEntity,
      entityFault_or]
    rfl

/-- A membership test is the disjunction of the equalities. -/
theorem selects?_oneOf (hsubject : subject ≠ "") {items : List Value} (hitems : items ≠ []) :
    selects? (.leaf ⟨subject, .oneOf, .sequence items⟩) =
      selects? (.composite .or (items.map fun item => .leaf ⟨subject, .equal, item⟩)) := by
  apply selects?_congr
  · apply Condition.built_leaf
    cases items with
    | nil => exact (hitems rfl).elim
    | cons item items => simp [Condition.defect?, hsubject, Value.items?]
  · apply Condition.built_or (by simpa using hitems)
    intro d hd
    obtain ⟨item, _, rfl⟩ := List.mem_map.mp hd
    exact built_of_subject hsubject item (by decide) (by decide)
  · rw [firstFault?_composite, findSome?_equalities, firstFault?_leaf]
    rfl
  · intro r
    simp only [Condition.holds_or, Condition.holds_leaf, List.mem_map]
    constructor
    · rintro ⟨v, hv, _, heq, item, hitem, hequal⟩
      cases heq
      exact ⟨_, ⟨item, hitem, rfl⟩, v, hv, hequal⟩
    · rintro ⟨_, ⟨item, hitem, rfl⟩, v, hv, hequal⟩
      exact ⟨v, hv, items, rfl, item, hitem, hequal⟩

/-- A pattern has to be text; what else is compared has no entity in it. -/
def Storable (c : Comparison) : Prop :=
  if c.operator = .like then ∃ pattern, c.operand = .text pattern else c.operand.hasEntity = false

def PatternAccepted (c : Comparison) : Prop :=
  ∀ pattern, c.operator = .like → c.operand = .text pattern →
    RegexEngine.refusal? (Expression.ofPattern pattern) = none

theorem faultOf?_eq_none_iff {c : Comparison} :
    faultOf? c = none ↔ Storable c ∧ PatternAccepted c := by
  obtain ⟨subject, operator, operand⟩ := c
  have hentity : entityFault subject operand.hasEntity = none ↔ operand.hasEntity = false := by
    cases operand.hasEntity <;> simp [entityFault]
  cases operator with
  | like =>
    cases operand <;> simp [faultOf?, patternFault?, Storable, PatternAccepted, Value.text?]
  | _ => simpa [faultOf?, Storable, PatternAccepted] using hentity

/-- What a condition keeps when it compiles to a predicate. -/
structure KeepsMeaning (c : Condition) : Prop where
  compiles : (∃ p, Predicate.ofCondition c = .ok p) ↔
    ∀ leaf ∈ c.leaves, Storable leaf ∧ PatternAccepted leaf
  /-- The error is that of the first comparison at fault. -/
  fails : ∀ e, Predicate.ofCondition c = .error e ↔ c.leaves.findSome? faultOf? = some e
  tests : ∀ p, Predicate.ofCondition c = .ok p → ∀ r, p.test r = true ↔ c.Holds (HoldsOn r)
  /-- Every record is selected by the condition or by its negation, and none by both. -/
  complement : selects? c.negate = (selects? c).map fun test r => !test r

/-- Every condition that can be made keeps its meaning as a predicate on records. A range selects what
its two bounds select together, and a membership test what any of the equalities selects. -/
theorem built_condition_keeps_meaning (h : c.Built) :
    KeepsMeaning c ∧ ∀ subject, subject ≠ "" →
      (∀ low high, selects? (.leaf ⟨subject, .between, .sequence [low, high]⟩) =
        selects? (.composite .and
          [.leaf ⟨subject, .greaterEqual, low⟩, .leaf ⟨subject, .lesserEqual, high⟩])) ∧
      ∀ items, items ≠ [] → selects? (.leaf ⟨subject, .oneOf, .sequence items⟩) =
        selects? (.composite .or (items.map fun item => .leaf ⟨subject, .equal, item⟩)) := by
  have hverdict := verdict_condition h
  refine ⟨?_, ?_⟩
  · constructor
    · rw [hverdict.ok_iff, firstFault?, List.findSome?_eq_none_iff]
      simp only [faultOf?_eq_none_iff]
    · intro e
      exact hverdict.error_iff
    · intro p hp
      exact hverdict.good_of_ok hp
    · exact selects?_negate c
  · intro subject hsubject
    exact ⟨selects?_between hsubject, fun items => selects?_oneOf hsubject⟩

end Tree

def singles (n : Nat) : String := String.ofList (List.replicate n '_')

theorem toList_ofPattern_singles (n : Nat) :
    (Expression.ofPattern (singles n)).toList =
      "(?s)^".toList ++ (List.replicate n '.' ++ ['$']) := by
  have hdots : (List.replicate n '_').flatMap Expression.unit = List.replicate n '.' := by
    induction n with
    | zero => rfl
    | succ n ih =>
      rw [List.replicate_succ, List.flatMap_cons, ih]
      rfl
  simp only [Expression.ofPattern, singles, String.toList_ofList, Expression.write_eq, hdots]
  rfl

theorem totalCost_append (cs ds : List Char) :
    RegexEngine.totalCost (cs ++ ds) = RegexEngine.totalCost cs + RegexEngine.totalCost ds := by
  induction cs with
  | nil => exact (Nat.zero_add _).symm
  | cons c cs ih => rw [List.cons_append, RegexEngine.totalCost, RegexEngine.totalCost, ih, Nat.add_assoc]

theorem totalCost_dots (n : Nat) : RegexEngine.totalCost (List.replicate n '.') = 376 * n := by
  induction n with
  | zero => rfl
  | succ n ih =>
    have hdot : RegexEngine.cost '.' = 376 := rfl
    rw [List.replicate_succ, RegexEngine.totalCost, ih, hdot]
    omega

/-- The expression of many wildcards takes more than an engine with a limit allows. -/
theorem refusal?_singles {n : Nat} (h : RegexEngine.sizeLimit < 376 * n) :
    RegexEngine.limited.refusal? (Expression.ofPattern (singles n)) =
      some "Compiled regex exceeds size limit of 10485760 bytes." := by
  have hsize : ¬ RegexEngine.totalCost (Expression.ofPattern (singles n)).toList ≤
      RegexEngine.sizeLimit := by
    rw [toList_ofPattern_singles, totalCost_append, totalCost_append, totalCost_dots]
    omega
  rw [RegexEngine.limited]
  exact if_neg hsize

theorem ofCondition_singles {subject : String} {n : Nat} (h : RegexEngine.sizeLimit < 376 * n) :
    Predicate.ofCondition (.leaf ⟨subject, .like, .text (singles n)⟩) =
      .error (badPattern "Compiled regex exceeds size limit of 10485760 bytes.") := by
  have hpattern : Predicate.ofCondition (.leaf ⟨subject, .like, .text (singles n)⟩) =
      Predicate.ofPattern subject (singles n) := rfl
  rw [hpattern, Predicate.ofPattern, refusal?_singles h]

/-- A pattern may be text and still not compile, if it is long enough. -/
theorem long_pattern_refused :
    let c := Condition.leaf ⟨"name", .like, .text (singles 100000)⟩
    c.Built ∧ (∀ leaf ∈ c.leaves, Storable leaf) ∧
      Predicate.ofCondition c =
        .error (badPattern "Compiled regex exceeds size limit of 10485760 bytes.") := by
  intro c
  refine ⟨built_of_subject (by decide) _ (by decide) (by decide), ?_, ?_⟩
  · intro leaf hleaf
    obtain rfl := List.mem_singleton.mp hleaf
    exact ⟨_, rfl⟩
  · exact ofCondition_singles (by decide)

/-- A negation over a conjunction of a range and a pattern. -/
theorem built_negation_keeps_meaning :
    let c := Condition.negate (.composite .and
      [.leaf ⟨"rank", .between, .sequence [.integer 1, .integer 5]⟩,
        .leaf ⟨"name", .like, .text "a%"⟩])
    c.Built ∧ KeepsMeaning c ∧ ∀ subject, subject ≠ "" →
      (∀ low high, selects? (.leaf ⟨subject, .between, .sequence [low, high]⟩) =
        selects? (.composite .and
          [.leaf ⟨subject, .greaterEqual, low⟩, .leaf ⟨subject, .lesserEqual, high⟩])) ∧
      ∀ items, items ≠ [] → selects? (.leaf ⟨subject, .oneOf, .sequence items⟩) =
        selects? (.composite .or (items.map fun item => .leaf ⟨subject, .equal, item⟩)) := by
  intro c
  have hbuilt : c.Built := by
    apply Condition.Built.negate
    apply Condition.built_and (List.cons_ne_nil _ _)
    rw [List.forall_mem_cons, List.forall_mem_singleton]
    exact ⟨Condition.built_leaf (by decide), Condition.built_leaf (by decide)⟩
  exact ⟨hbuilt, built_condition_keeps_meaning hbuilt⟩

end MapStore

end StoreQuery
