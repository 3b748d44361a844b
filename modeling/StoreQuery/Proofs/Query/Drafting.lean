import Mathlib.Data.List.Induction
import StoreQuery.Proofs.Condition.Meaning
import StoreQuery.Proofs.MapStore.Compilation
import StoreQuery.Query.Draft
/-!
Drafts as they are written, step by step. A draft builds the query that its steps read as from left to
right, or reports the first clause that is malformed, whatever is written after it.
-/
namespace StoreQuery

/-- What a clause that ends with a test asks of the value of its attribute. -/
def Test.Asks (v : Value) : Test → Prop
  | .equal w => v.compare? w = some .eq
  | .greater w => v.compare? w = some .gt
  | .greaterEqual w => v.compare? w = some .gt ∨ v.compare? w = some .eq
  | .lesser w => v.compare? w = some .lt
  | .lesserEqual w => v.compare? w = some .lt ∨ v.compare? w = some .eq
  | .between lower upper => v.AtLeast lower ∧ v.AtMost upper
  | .oneOf items => ∃ item ∈ items, v.compare? item = some .eq
  | .like pattern => ∃ text, v = .text text ∧ LikePattern.Matches pattern.toList text.toList

namespace Phrase

variable {truth : Comparison → Prop}

def leaf (p : Phrase) : Comparison := ⟨p.subject, p.test.operator, p.test.operand⟩

/-- The operator and the operand of a clause say what its ending asks. -/
theorem holdsOf_leaf (p : Phrase) (v : Value) : p.leaf.HoldsOf v ↔ p.test.Asks v := by
  obtain ⟨opening, subject, nots, test⟩ := p
  cases test with
  | between lower upper =>
    constructor
    · rintro ⟨low, high, hoperand, hlow, hhigh⟩
      cases hoperand
      exact ⟨hlow, hhigh⟩
    · rintro ⟨hlow, hhigh⟩
      exact ⟨lower, upper, rfl, hlow, hhigh⟩
  | oneOf items =>
    constructor
    · rintro ⟨others, hoperand, hitem⟩
      cases hoperand
      exact hitem
    · intro hitem
      exact ⟨items, rfl, hitem⟩
  | like pattern =>
    constructor
    · rintro ⟨text, other, hv, hoperand, hmatches⟩
      cases hoperand
      exact ⟨text, hv, hmatches⟩
    · rintro ⟨text, hv, hmatches⟩
      exact ⟨text, pattern, hv, rfl, hmatches⟩
  | _ => exact Iff.rfl

/-- An attribute has to be named, and a membership test needs something to be a member of. -/
def fault? (p : Phrase) : Option QueryError :=
  if p.subject = "" then some Condition.missingSubject
  else match p.test with
    | .oneOf [] => some (Condition.noItems p.subject)
    | _ => none

/-- Negations cancel in pairs. -/
def Holds (truth : Comparison → Prop) (p : Phrase) : Prop :=
  if p.nots % 2 = 1 then ¬ truth p.leaf else truth p.leaf

def Joins (truth : Comparison → Prop) (read : Prop) (p : Phrase) : Prop :=
  match p.opening with
  | .filter => read ∧ p.Holds truth
  | .and => read ∧ p.Holds truth
  | .or => read ∨ p.Holds truth

def tree (p : Phrase) : Condition :=
  if p.nots % 2 = 1 then (Condition.leaf p.leaf).negate else .leaf p.leaf

theorem repeat_not (n : Nat) (c : Clause) :
    Nat.repeat Clause.not n c = { c with negated := c.negated ^^ decide (n % 2 = 1) } := by
  induction n with
  | zero => simp [Nat.repeat]
  | succ n ih =>
    rw [Nat.repeat, ih]
    rcases Nat.mod_two_eq_zero_or_one n with h | h
    · have hs : (n + 1) % 2 = 1 := by omega
      simp [Clause.not, h, hs]
    · have hs : (n + 1) % 2 = 0 := by omega
      simp [Clause.not, h, hs]

theorem clause_eq (p : Phrase) : p.clause =
    ⟨p.opening.connective, p.subject, decide (p.nots % 2 = 1), p.test.operator, p.test.operand⟩ := by
  rw [clause, repeat_not, Bool.false_xor]

theorem defect?_eq (p : Phrase) :
    Condition.defect? p.subject p.test.operator p.test.operand = p.fault? := by
  obtain ⟨opening, subject, nots, test⟩ := p
  simp only [Condition.defect?, fault?]
  by_cases hs : subject = ""
  · rw [if_pos hs, if_pos hs]
  · rw [if_neg hs, if_neg hs]
    cases test with
    | oneOf items => cases items <;> rfl
    | _ => rfl

theorem condition_clause (p : Phrase) :
    p.clause.condition = match p.fault? with
      | some e => .error e
      | none => .ok p.tree := by
  rw [clause_eq]
  simp only [Clause.condition, Condition.compare, defect?_eq]
  cases p.fault? with
  | some e => rfl
  | none =>
    simp only [Except.map, tree, decide_eq_true_eq]
    rfl

theorem holds_tree (p : Phrase) : p.tree.Holds truth ↔ p.Holds truth := by
  simp only [tree, Holds]
  by_cases h : p.nots % 2 = 1
  · rw [if_pos h, if_pos h, Condition.negate, Condition.holds_not, List.forall_mem_singleton,
      Condition.holds_leaf]
  · rw [if_neg h, if_neg h, Condition.holds_leaf]

theorem leaves_tree (p : Phrase) : p.tree.leaves = [p.leaf] := by
  simp only [tree]
  split <;> rfl

end Phrase

namespace Condition

variable {truth : Comparison → Prop}

/-- Whether the other condition is taken in or stands beside, both are joined. -/
theorem holds_combine_and (current other : Condition) :
    (current.combine .and other).Holds truth ↔ current.Holds truth ∧ other.Holds truth := by
  cases current with
  | leaf c => simp [combine]
  | composite connective children =>
    cases connective with
    | and => simp [combine, or_imp, forall_and]
    | or => simp [combine]
    | not => simp [combine]

theorem holds_combine_or (current other : Condition) :
    (current.combine .or other).Holds truth ↔ current.Holds truth ∨ other.Holds truth := by
  cases current with
  | leaf c => simp [combine]
  | composite connective children =>
    cases connective with
    | and => simp [combine]
    | or => simp [combine, or_and_right, exists_or]
    | not => simp [combine]

theorem leaves_combine (current : Condition) (connective : Connective) (other : Condition) :
    (current.combine connective other).leaves = current.leaves ++ other.leaves := by
  cases current with
  | leaf c => simp [combine]
  | composite c children =>
    simp only [combine]
    split <;> simp

end Condition

inductive FilterStep where
  | clause (p : Phrase)
  | matching (c : Condition)

namespace FilterStep

def fault? : FilterStep → Option QueryError
  | .clause p => p.fault?
  | .matching _ => none

def firstFault? (steps : List FilterStep) : Option QueryError := steps.findSome? fault?

def apply (f : Filter) : FilterStep → Filter
  | .clause p => f.add p.clause
  | .matching c => f.replace c

def extend (d : DeletionDraft) : FilterStep → DeletionDraft
  | .clause p => d.add p.clause
  | .matching c => d.matching c

theorem foldl_extend (steps : List FilterStep) (d : DeletionDraft) :
    steps.foldl extend d = { d with filter := steps.foldl apply d.filter } := by
  induction steps generalizing d with
  | nil => rfl
  | cons step steps ih =>
    rw [List.foldl_cons, ih]
    cases step <;> rfl

end FilterStep

/-- The whole condition that was put in place last, if there is one, and the phrases after it. -/
structure Reading where
  tree : Option Condition := none
  phrases : List Phrase := []

namespace Reading

variable {truth : Comparison → Prop}

def next (r : Reading) : FilterStep → Reading
  | .clause p => { r with phrases := r.phrases ++ [p] }
  | .matching c => ⟨some c, []⟩

def ofSteps (steps : List FilterStep) : Reading := steps.foldl next {}

theorem ofSteps_concat (steps : List FilterStep) (step : FilterStep) :
    ofSteps (steps ++ [step]) = (ofSteps steps).next step := by
  rw [ofSteps, List.foldl_append]
  rfl

def Holds (truth : Comparison → Prop) (r : Reading) : Prop :=
  match r.tree, r.phrases with
  | some c, ps => ps.foldl (Phrase.Joins truth) (c.Holds truth)
  | none, p :: ps => ps.foldl (Phrase.Joins truth) (p.Holds truth)
  | none, [] => True

def leaves (r : Reading) : List Comparison :=
  r.tree.toList.flatMap Condition.leaves ++ r.phrases.map Phrase.leaf

/-- A condition says what was read, and there is none as long as nothing was. -/
structure SaidBy (r : Reading) (condition : Option Condition) : Prop where
  none_iff : condition = none ↔ r.tree = none ∧ r.phrases = []
  holds : ∀ c, condition = some c → ∀ truth, c.Holds truth ↔ r.Holds truth
  leaves : ∀ c, condition = some c → c.leaves = r.leaves

theorem holds_concat (r : Reading) (h : r.tree ≠ none ∨ r.phrases ≠ []) (p : Phrase) :
    (r.next (.clause p)).Holds truth ↔ Phrase.Joins truth (r.Holds truth) p := by
  obtain ⟨tree, phrases⟩ := r
  cases tree with
  | some c => simp [next, Holds]
  | none =>
    cases phrases with
    | nil => simp at h
    | cons q qs => simp [next, Holds]

theorem holds_combine (p : Phrase) (current : Condition) :
    (current.combine p.opening.connective p.tree).Holds truth ↔
      Phrase.Joins truth (current.Holds truth) p := by
  obtain ⟨opening, subject, nots, test⟩ := p
  cases opening with
  | filter | and =>
    rw [Opening.connective, Condition.holds_combine_and, Phrase.holds_tree, Phrase.Joins]
  | or => rw [Opening.connective, Condition.holds_combine_or, Phrase.holds_tree, Phrase.Joins]

/-- A well-formed phrase is joined to the condition so far, or starts it. -/
theorem SaidBy.clause {r : Reading} {condition : Option Condition} (h : r.SaidBy condition)
    (p : Phrase) :
    (r.next (.clause p)).SaidBy
      (Filter.push ⟨condition, none⟩ p.opening.connective (.ok p.tree)).condition := by
  cases condition with
  | none =>
    obtain ⟨htree, hphrases⟩ := h.none_iff.mp rfl
    obtain ⟨tree, phrases⟩ := r
    subst htree hphrases
    constructor
    · simp [next, Filter.push]
    · rintro c hc truth
      cases hc
      exact p.holds_tree
    · rintro c hc
      cases hc
      exact p.leaves_tree
  | some current =>
    have hread : r.tree ≠ none ∨ r.phrases ≠ [] := by
      rw [← not_and_or, ← h.none_iff]
      exact Option.some_ne_none current
    constructor
    · simp [next, Filter.push]
    · rintro c hc truth
      cases hc
      rw [holds_combine, holds_concat r hread]
      have hsame : current.Holds truth = r.Holds truth := propext (h.holds current rfl truth)
      rw [hsame]
    · rintro c hc
      cases hc
      rw [Condition.leaves_combine, h.leaves current rfl, Phrase.leaves_tree]
      simp [next, Reading.leaves]

theorem saidBy_matching (r : Reading) (c : Condition) : (r.next (.matching c)).SaidBy (some c) := by
  constructor
  · simp [next]
  · rintro d hd truth
    cases hd
    rfl
  · rintro d hd
    cases hd
    simp [next, Reading.leaves]

end Reading

namespace Filter

structure After (steps : List FilterStep) (f : Filter) : Prop where
  error : f.error = FilterStep.firstFault? steps
  said : f.error = none → (Reading.ofSteps steps).SaidBy f.condition

theorem after_nil : After [] {} := by
  constructor
  · rfl
  · intro _
    exact ⟨by simp [Reading.ofSteps], nofun, nofun⟩

/-- One more step keeps the first error, or adds to what was read. -/
theorem After.step {steps : List FilterStep} {f : Filter} (h : After steps f) (step : FilterStep) :
    After (steps ++ [step]) (step.apply f) := by
  have hread := Reading.ofSteps_concat steps step
  have hfault : FilterStep.firstFault? (steps ++ [step]) = f.error.or step.fault? := by
    rw [h.error, FilterStep.firstFault?, List.findSome?_append, List.findSome?_singleton]
    rfl
  obtain ⟨condition, error⟩ := f
  cases step with
  | matching c =>
    constructor
    · rw [hfault]
      exact Option.or_none.symm
    · intro _
      rw [hread]
      exact Reading.saidBy_matching _ c
  | clause p =>
    have hpush : (FilterStep.clause p).apply ⟨condition, error⟩ =
        Filter.push ⟨condition, error⟩ p.opening.connective (match p.fault? with
          | some e => .error e
          | none => .ok p.tree) := by
      rw [FilterStep.apply, Filter.add, Phrase.condition_clause, Phrase.clause_eq]
    rw [hpush]
    cases error with
    | some e =>
      constructor
      · rw [hfault]
        rfl
      · nofun
    | none =>
      cases hp : p.fault? with
      | some e =>
        constructor
        · rw [hfault, FilterStep.fault?, hp]
          rfl
        · nofun
      | none =>
        constructor
        · rw [hfault, FilterStep.fault?, hp]
          rfl
        · intro _
          rw [hread]
          exact (h.said rfl).clause p

theorem after_steps (steps : List FilterStep) : After steps (steps.foldl FilterStep.apply {}) := by
  induction steps using List.reverseRecOn with
  | nil => exact after_nil
  | append_singleton steps step ih =>
    rw [List.foldl_append]
    exact ih.step step

end Filter

inductive QueryStep where
  | filter (step : FilterStep)
  | sort (key : SortKey)
  | skip (n : Nat)
  | limit (n : Nat)

namespace QueryStep

def apply (d : QueryDraft) : QueryStep → QueryDraft
  | .filter (.clause p) => d.add p.clause
  | .filter (.matching c) => d.matching c
  | .sort key => d.sort key
  | .skip n => d.skipping n
  | .limit n => d.limiting n

def filter? : QueryStep → Option FilterStep
  | .filter step => some step
  | _ => none

def filters (steps : List QueryStep) : List FilterStep := steps.filterMap filter?

def sort? : QueryStep → Option SortKey
  | .sort key => some key
  | _ => none

def skip? : QueryStep → Option Nat
  | .skip n => some n
  | _ => none

def limit? : QueryStep → Option Nat
  | .limit n => some n
  | _ => none

/-- Each kind of step has its own part of the draft. -/
theorem foldl_apply (steps : List QueryStep) (d : QueryDraft) :
    steps.foldl apply d =
      { collection := d.collection
        filter := (filters steps).foldl FilterStep.apply d.filter
        sorts := d.sorts ++ steps.filterMap sort?
        skip := (steps.filterMap skip?).getLastD d.skip
        limit := (steps.filterMap limit?).getLastD d.limit } := by
  simp only [filters]
  induction steps generalizing d with
  | nil => simp
  | cons step steps ih =>
    rw [List.foldl_cons, ih]
    rcases step with (p | c) | key | n | n
    · rfl
    · rfl
    · simp [apply, QueryDraft.sort, List.filterMap_cons, filter?, sort?, skip?, limit?]
    · simp only [apply, QueryDraft.skipping, List.filterMap_cons, filter?, sort?, skip?, limit?,
        List.getLastD_cons]
    · simp only [apply, QueryDraft.limiting, List.filterMap_cons, filter?, sort?, skip?, limit?,
        List.getLastD_cons]

end QueryStep

structure QueryReads (collection : String) (steps : List QueryStep) (q : Query) : Prop where
  collection : q.collection = collection
  sorts : q.sorts = steps.filterMap QueryStep.sort?
  skip : q.skip = (steps.filterMap QueryStep.skip?).getLastD 0
  limit : q.limit = (steps.filterMap QueryStep.limit?).getLastD 0
  condition : (Reading.ofSteps (QueryStep.filters steps)).SaidBy q.condition

/-- What comes of the steps: the first mistake in the order of the fields, or a query. -/
structure QueryDrafted (collection : String) (steps : List QueryStep)
    (result : Except QueryError Query) : Prop where
  malformed : ∀ e, FilterStep.firstFault? (QueryStep.filters steps) = some e →
    result = .error e
  nameless : FilterStep.firstFault? (QueryStep.filters steps) = none →
    collection = "" → result = .error (.invalidArgument "query collection name must not be empty")
  unsorted : FilterStep.firstFault? (QueryStep.filters steps) = none →
    collection ≠ "" → ∀ key, (steps.filterMap QueryStep.sort?).find? (·.subject = "") = some key →
      result = .error (QueryDraft.unnamedSort key.direction)
  built : FilterStep.firstFault? (QueryStep.filters steps) = none →
    collection ≠ "" → (∀ key ∈ steps.filterMap QueryStep.sort?, key.subject ≠ "") →
      ∃ q, result = .ok q ∧ QueryReads collection steps q

structure DeletionReads (collection : String) (attributes : List String) (steps : List FilterStep)
    (d : Deletion) : Prop where
  collection : d.collection = collection
  attributes : d.attributes = attributes
  condition : (Reading.ofSteps steps).SaidBy d.condition

structure DeletionDrafted (collection : String) (attributes : List String) (steps : List FilterStep)
    (result : Except QueryError Deletion) : Prop where
  malformed : ∀ e, FilterStep.firstFault? steps = some e → result = .error e
  nameless : FilterStep.firstFault? steps = none → collection = "" →
    result = .error (.invalidArgument "delete collection name must not be empty")
  unattributed : FilterStep.firstFault? steps = none → collection ≠ "" → "" ∈ attributes →
    result = .error (.invalidArgument "delete attribute names must not be empty")
  built : FilterStep.firstFault? steps = none → collection ≠ "" → "" ∉ attributes →
    ∃ d, result = .ok d ∧ DeletionReads collection attributes steps d

theorem queryDrafted (collection : String) (steps : List QueryStep) :
    QueryDrafted collection steps (steps.foldl QueryStep.apply { collection := collection }).build := by
  have hafter := Filter.after_steps (QueryStep.filters steps)
  rw [QueryStep.foldl_apply, List.nil_append]
  generalize (QueryStep.filters steps).foldl FilterStep.apply {} = f at hafter ⊢
  simp only [QueryDraft.build]
  constructor
  · intro e he
    rw [hafter.error.trans he]
  · rintro hnone rfl
    rw [hafter.error.trans hnone]
    rfl
  · intro hnone hnamed key hkey
    rw [hafter.error.trans hnone]
    simp only [if_neg hnamed, hkey]
  · intro hnone hnamed hkeys
    have herror := hafter.error.trans hnone
    have hkey : (steps.filterMap QueryStep.sort?).find? (·.subject = "") = none := by
      rw [List.find?_eq_none]
      intro key hkey
      simpa using hkeys key hkey
    rw [herror]
    simp only [if_neg hnamed, hkey]
    exact ⟨_, rfl, rfl, rfl, rfl, rfl, hafter.said herror⟩

theorem deletionDrafted (collection : String) (attributes : List String) (steps : List FilterStep) :
    DeletionDrafted collection attributes steps
      (steps.foldl FilterStep.extend ⟨collection, attributes, {}⟩).build := by
  have hafter := Filter.after_steps steps
  rw [FilterStep.foldl_extend]
  generalize steps.foldl FilterStep.apply {} = f at hafter ⊢
  simp only [DeletionDraft.build, Deletion.of]
  constructor
  · intro e he
    rw [hafter.error.trans he]
  · rintro hnone rfl
    rw [hafter.error.trans hnone]
    rfl
  · intro hnone hnamed hempty
    rw [hafter.error.trans hnone]
    simp only [if_neg hnamed, if_pos hempty]
  · intro hnone hnamed hattributes
    have herror := hafter.error.trans hnone
    rw [herror]
    simp only [if_neg hnamed, if_neg hattributes]
    exact ⟨_, rfl, rfl, rfl, hafter.said herror⟩

/-- Every sequence of steps builds what it reads as, unless it holds a mistake; then the error of the
first malformed clause comes before all others, whatever is written after it. The leaf of a clause asks what
the clause ends with. -/
theorem drafts_read_as_written (collection : String) :
    (∀ (p : Phrase) (v : Value), p.leaf.subject = p.subject ∧ (p.leaf.HoldsOf v ↔ p.test.Asks v)) ∧
    (∀ steps : List QueryStep, QueryDrafted collection steps
      (steps.foldl QueryStep.apply { collection := collection }).build) ∧
    ∀ (attributes : List String) (steps : List FilterStep),
      DeletionDrafted collection attributes steps
        (steps.foldl FilterStep.extend ⟨collection, attributes, {}⟩).build :=
  ⟨fun p v => ⟨rfl, p.holdsOf_leaf v⟩, queryDrafted collection, deletionDrafted collection⟩

end StoreQuery
