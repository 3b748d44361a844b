import StoreQuery.Proofs.Condition.Compilers
import StoreQuery.Proofs.Query.Drafting
/-!
Conditions as they can be made, by the constructors and in drafts, one inside the other. Each comparison
in them is fit to be compiled and each connective joins something. A negation denies one condition, unless
a condition was pushed under NOT; then the stores no longer read it alike.
-/
namespace StoreQuery

open MapStore (Predicate HoldsOn Record)
open Search (conditionClause clauseTruth Answered)

mutual

/-- What can be made where conditions are pushed under some connectives only. -/
inductive Condition.Made (allowed : Connective → Prop) : Condition → Prop where
  | compare {subject : String} {operator : Operator} {operand : Value} {c : Condition} :
      Condition.compare subject operator operand = .ok c → Condition.Made allowed c
  | all {cs : List Condition} {c : Condition} :
      (∀ d ∈ cs, Condition.Made allowed d) → Condition.all cs = .ok c → Condition.Made allowed c
  | any {cs : List Condition} {c : Condition} :
      (∀ d ∈ cs, Condition.Made allowed d) → Condition.any cs = .ok c → Condition.Made allowed c
  | negate {c : Condition} : Condition.Made allowed c → Condition.Made allowed c.negate
  | drafted {f : Filter} {c : Condition} :
      Filter.Drafted allowed f → f.condition = some c → Condition.Made allowed c

inductive Filter.Drafted (allowed : Connective → Prop) : Filter → Prop where
  | start : Filter.Drafted allowed {}
  | clause {f : Filter} (p : Phrase) : Filter.Drafted allowed f → Filter.Drafted allowed (f.add p.clause)
  | matching {f : Filter} {c : Condition} :
      Filter.Drafted allowed f → Condition.Made allowed c → Filter.Drafted allowed (f.replace c)
  | push {f : Filter} {connective : Connective} {next : Except QueryError Condition} :
      Filter.Drafted allowed f → allowed connective →
      (∀ c, next = .ok c → Condition.Made allowed c) →
      Filter.Drafted allowed (f.push connective next)

end

variable {allowed : Connective → Prop} {motive : Condition → Prop} {c d : Condition} {f : Filter}
  {cs : List Condition} {connective : Connective} {next : Except QueryError Condition}

/-- What is pushed is joined to what is there, or stands alone. -/
theorem Filter.condition_push (h : (f.push connective next).condition = some c) :
    f.condition = some c ∨ next = .ok c ∨
      ∃ current d, f.condition = some current ∧ next = .ok d ∧ c = current.combine connective d := by
  simp only [push] at h
  split at h
  · exact .inl h
  · exact .inl h
  · rename_i d _
    cases hf : f.condition with
    | none =>
      rw [hf] at h
      cases h
      exact .inr (.inl rfl)
    | some current =>
      rw [hf] at h
      cases h
      exact .inr (.inr ⟨current, d, rfl, rfl, rfl⟩)

/-- What the compilers rely on in a comparison. -/
structure Comparison.Fit (c : Comparison) : Prop where
  named : c.subject ≠ ""
  bounds : c.operator = .between → ∃ lower upper, c.operand = .sequence [lower, upper]
  items : c.operator = .oneOf → ∃ item items, c.operand = .sequence (item :: items)

theorem Comparison.fit_iff {c : Comparison} :
    c.Fit ↔ Condition.defect? c.subject c.operator c.operand = none := by
  obtain ⟨subject, operator, operand⟩ := c
  constructor
  · rintro ⟨hnamed, hbounds, hitems⟩
    change subject ≠ "" at hnamed
    cases operator with
    | between =>
      obtain ⟨lower, upper, rfl⟩ := hbounds rfl
      simp [Condition.defect?, hnamed, Value.items?]
    | oneOf =>
      obtain ⟨item, items, rfl⟩ := hitems rfl
      simp [Condition.defect?, hnamed, Value.items?]
    | _ => simp [Condition.defect?, hnamed]
  · intro h
    refine ⟨Condition.subject_ne_empty h, ?_, ?_⟩
    · rintro rfl
      exact Condition.operand_of_between h
    · rintro rfl
      obtain ⟨items, rfl⟩ := Condition.operand_of_oneOf h
      cases items with
      | nil => simp [Condition.defect?, Condition.subject_ne_empty h, Value.items?] at h
      | cons item items => exact ⟨item, items, rfl⟩

namespace Condition

structure Kept (allowed : Connective → Prop) (motive : Condition → Prop) : Prop where
  leaf : ∀ c : Comparison, c.Fit → motive (.leaf c)
  join : ∀ connective cs, connective ≠ .not → cs ≠ [] → (∀ d ∈ cs, motive d) →
    motive (.composite connective cs)
  negate : ∀ c, motive c → motive c.negate
  combine : ∀ c connective d, allowed connective ∨ connective ≠ .not → motive c → motive d →
    motive (c.combine connective d)

theorem Kept.phrase (h : Kept allowed motive) {p : Phrase} (hc : p.clause.condition = .ok c) :
    motive c := by
  rw [p.condition_clause] at hc
  split at hc
  · cases hc
  · rename_i hfault
    cases hc
    have hleaf : motive (.leaf p.leaf) := h.leaf _ (Comparison.fit_iff.mpr (p.defect?_eq.trans hfault))
    rw [Phrase.tree]
    split
    · exact h.negate _ hleaf
    · exact hleaf

mutual

theorem Made.kept (h : Kept allowed motive) : ∀ {c : Condition}, c.Made allowed → motive c
  | _, .compare hc => by
    obtain ⟨hdefect, rfl⟩ := compare_eq_ok hc
    exact h.leaf _ (Comparison.fit_iff.mpr hdefect)
  | _, .all hcs hc => by
    have hkept := fun d hd => (hcs d hd).kept h
    obtain ⟨hne, rfl⟩ := join_eq_ok hc
    exact h.join _ _ nofun hne hkept
  | _, .any hcs hc => by
    have hkept := fun d hd => (hcs d hd).kept h
    obtain ⟨hne, rfl⟩ := join_eq_ok hc
    exact h.join _ _ nofun hne hkept
  | _, .negate hc => h.negate _ (hc.kept h)
  | _, .drafted hf hc => drafted_kept h hf hc

theorem drafted_kept (h : Kept allowed motive) : ∀ {f : Filter} {c : Condition},
    f.Drafted allowed → f.condition = some c → motive c
  | _, _, .start, hc => nomatch hc
  | _, _, .clause p hf, hc => by
    rcases Filter.condition_push hc with hold | hnew | ⟨current, d, hold, hnew, rfl⟩
    · exact drafted_kept h hf hold
    · exact h.phrase hnew
    · refine h.combine _ _ _ (.inr ?_) (drafted_kept h hf hold) (h.phrase hnew)
      rw [p.clause_eq]
      cases p.opening <;> exact nofun
  | _, _, .matching _ hmade, hc => by
    have hkept := hmade.kept h
    obtain rfl := Option.some.inj hc
    exact hkept
  | _, _, .push hf hallowed hnext, hc => by
    rcases Filter.condition_push hc with hold | hnew | ⟨current, d, hold, hnew, rfl⟩
    · exact drafted_kept h hf hold
    · exact (hnext _ hnew).kept h
    · exact h.combine _ _ _ (.inl hallowed) (drafted_kept h hf hold) ((hnext _ hnew).kept h)

end

/-- What joining two conditions keeps, of what holds of a composite as of its children. -/
theorem combine_keeps
    (join : ∀ cs, cs ≠ [] → (∀ d ∈ cs, motive d) → motive (.composite connective cs))
    (children : ∀ cs, motive (.composite connective cs) → ∀ d ∈ cs, motive d)
    (hc : motive c) (hd : motive d) : motive (c.combine connective d) := by
  have hbeside : motive (.composite connective [c, d]) := by
    apply join _ (List.cons_ne_nil _ _)
    rw [List.forall_mem_cons, List.forall_mem_singleton]
    exact ⟨hc, hd⟩
  cases c with
  | leaf c => exact hbeside
  | composite existing cs =>
    rw [combine]
    split
    · rename_i hsame
      subst hsame
      apply join _ (List.append_ne_nil_of_right_ne_nil cs (List.cons_ne_nil d []))
      rw [List.forall_mem_append, List.forall_mem_singleton]
      exact ⟨children cs hc, hd⟩
    · exact hbeside

theorem within_composite :
    c.Within (.composite connective cs) ↔ c = .composite connective cs ∨ ∃ d ∈ cs, c.Within d :=
  within_iff

section WellFormed

structure WellFormed (c : Condition) : Prop where
  fit : ∀ leaf, (Condition.leaf leaf).Within c → leaf.Fit
  joined : ∀ connective cs, (Condition.composite connective cs).Within c → cs ≠ []

theorem wellFormed_leaf {c : Comparison} (h : c.Fit) : WellFormed (.leaf c) := by
  have hsame : ∀ d : Condition, d.Within (.leaf c) ↔ d = .leaf c := fun _ => within_of_no_parts rfl
  constructor
  · intro leaf hleaf
    obtain rfl := Condition.leaf.inj ((hsame _).mp hleaf)
    exact h
  · intro connective cs hcs
    cases (hsame _).mp hcs

theorem wellFormed_composite (hne : cs ≠ []) (h : ∀ d ∈ cs, WellFormed d) :
    WellFormed (.composite connective cs) := by
  constructor
  · intro leaf hleaf
    rcases within_composite.mp hleaf with heq | ⟨d, hd, hleaf⟩
    · cases heq
    · exact (h d hd).fit leaf hleaf
  · intro other ds hds
    rcases within_composite.mp hds with heq | ⟨d, hd, hds⟩
    · cases heq
      exact hne
    · exact (h d hd).joined other ds hds

theorem WellFormed.child (h : WellFormed (.composite connective cs)) (hd : d ∈ cs) : d.WellFormed where
  fit leaf hleaf := h.fit leaf (.part hd hleaf)
  joined other ds hds := h.joined other ds (.part hd hds)

/-- Whatever is pushed, comparisons stay fit and connectives join something. -/
theorem kept_wellFormed (allowed : Connective → Prop) : Kept allowed WellFormed where
  leaf _ := wellFormed_leaf
  join _ _ _ := wellFormed_composite
  negate c hc := wellFormed_composite (List.cons_ne_nil c []) (List.forall_mem_singleton.mpr hc)
  combine _ _ _ _ := combine_keeps (fun _ => wellFormed_composite) fun _ h _ => h.child

theorem within_of_mem_leaves {l : Comparison} (h : l ∈ c.leaves) : (Condition.leaf l).Within c := by
  induction c using Condition.byParts with
  | leaf c =>
    obtain rfl := List.mem_singleton.mp h
    exact .self
  | composite connective cs ih =>
    rw [leaves_composite, List.mem_flatMap] at h
    obtain ⟨d, hd, hl⟩ := h
    exact .part hd (ih d hd hl)

end WellFormed

section Negations

/-- What a composite can have been made of. -/
theorem Built.children (h : Built (.composite connective cs)) :
    (∀ d ∈ cs, d.Built) ∧ (connective = .not → ∃ d, cs = [d]) := by
  generalize hc : Condition.composite connective cs = c at h
  cases h with
  | compare hcompare =>
    obtain ⟨-, rfl⟩ := compare_eq_ok hcompare
    cases hc
  | all hcs hjoin =>
    obtain ⟨-, rfl⟩ := join_eq_ok hjoin
    cases hc
    exact ⟨hcs, nofun⟩
  | any hcs hjoin =>
    obtain ⟨-, rfl⟩ := join_eq_ok hjoin
    cases hc
    exact ⟨hcs, nofun⟩
  | negate hbuilt =>
    cases hc
    exact ⟨List.forall_mem_singleton.mpr hbuilt, fun _ => ⟨_, rfl⟩⟩

theorem Built.within (h : c.Built) (hd : d.Within c) : d.Built := by
  induction hd with
  | self => exact h
  | @part c p hp _ ih =>
    cases c with
    | leaf c => cases hp
    | composite connective cs => exact ih (h.children.1 p hp)

/-- Without NOT among the connectives that are pushed, drafts make nothing that the constructors do not. -/
theorem kept_built (h : ∀ connective, allowed connective → connective ≠ .not) : Kept allowed Built where
  leaf _ hfit := built_leaf (Comparison.fit_iff.mp hfit)
  join connective cs hne := by
    cases connective with
    | and => exact built_and
    | or => exact built_or
    | not => exact (hne rfl).elim
  negate _ := .negate
  combine _ connective _ hconnective := by
    refine combine_keeps ?_ fun _ hcs => hcs.children.1
    cases connective with
    | and => exact fun _ => built_and
    | or => exact fun _ => built_or
    | not => exact (hconnective.elim (h .not) id rfl).elim

/-- Conditions are read alike where their comparisons are. -/
theorem holds_congr {truth other : Comparison → Prop} (h : ∀ l ∈ c.leaves, (truth l ↔ other l)) :
    c.Holds truth ↔ c.Holds other := by
  induction c using Condition.byParts with
  | leaf c => exact h c (List.mem_singleton_self c)
  | composite connective cs ih =>
    rw [leaves_composite, List.forall_mem_flatMap] at h
    have hcs : ∀ d ∈ cs, (d.Holds truth ↔ d.Holds other) := fun d hd => ih d hd (h d hd)
    cases connective with
    | and => rw [holds_and, holds_and, forall₂_congr hcs]
    | or =>
      rw [holds_or, holds_or]
      exact exists_congr fun d => and_congr_right fun hd => hcs d hd
    | not => rw [holds_not, holds_not, forall₂_congr hcs]

end Negations

end Condition

section Shapes

def QueryError.IsShape (e : QueryError) : Prop :=
  ∃ subject, e = MapStore.lacksBounds subject ∨ e = MapStore.lacksItems subject ∨
    e = Search.lacksBounds subject ∨ e = Cql.lacksBounds subject

/-- What is wrong with the shape of an operand begins with the name of BETWEEN or of IN. -/
theorem first_of_isShape {text : String} (h : (QueryError.invalidArgument text).IsShape) :
    text.toList.head? = some 'B' ∨ text.toList.head? = some 'I' := by
  obtain ⟨subject, h | h | h | h⟩ := h
  · exact .inl (by simp [QueryError.invalidArgument.inj h, String.toList_append])
  · exact .inr (by simp [QueryError.invalidArgument.inj h, String.toList_append])
  · exact .inl (by simp [QueryError.invalidArgument.inj h, String.toList_append])
  · exact .inl (by simp [QueryError.invalidArgument.inj h, String.toList_append])

theorem not_isShape_lacksPattern (subject : String) : ¬ (MapStore.lacksPattern subject).IsShape := by
  intro h
  simpa [String.toList_append] using first_of_isShape h

theorem not_isShape_badPattern (reason : String) : ¬ (MapStore.badPattern reason).IsShape := by
  intro h
  simpa [String.toList_append] using first_of_isShape h

section Predicates

variable [RegexEngine]

theorem failsAs_predicate {c : Comparison} (h : c.Fit) :
    FailsAs (¬ ·.IsShape) (Predicate.ofComparison c) := by
  intro e he
  have hfault := (MapStore.verdict_comparison (Comparison.fit_iff.mp h)).error_iff.mp he
  have hentity : ∀ {b : Bool}, MapStore.entityFault c.subject b = some e → ¬ e.IsShape := by
    intro b hb
    rw [MapStore.entityFault] at hb
    split at hb
    · cases hb
      rintro ⟨subject, h | h | h | h⟩ <;> cases h
    · cases hb
  obtain ⟨subject, operator, operand⟩ := c
  cases operator with
  | like =>
    simp only [MapStore.faultOf?, MapStore.patternFault?] at hfault
    split at hfault
    · cases hfault
      exact not_isShape_lacksPattern subject
    · obtain ⟨reason, -, rfl⟩ := Option.map_eq_some_iff.mp hfault
      exact not_isShape_badPattern reason
  | _ => exact hentity hfault

end Predicates

theorem failsAs_operand (name : String) (v : Value) :
    FailsAs (¬ ·.IsShape) (QueryError.within name (Search.jsonOf v)) := by
  have hconversion := (Search.failsAs_jsonOf v).within fun _ => isConversion_forAttribute name
  refine hconversion.imp ?_
  rintro e ⟨old, reason, rfl⟩ ⟨subject, h | h | h | h⟩ <;> cases h

theorem failsAs_clause {c : Comparison} (h : c.Fit) :
    FailsAs (¬ ·.IsShape) (Search.comparisonClause c) := by
  obtain ⟨subject, operator, operand⟩ := c
  cases operator with
  | between =>
    obtain ⟨lower, upper, rfl⟩ := h.bounds rfl
    exact (failsAs_operand subject lower).bind fun _ => (failsAs_operand subject upper).bind fun _ => .ok _
  | like =>
    simp only [Search.comparisonClause]
    split
    · exact .error (not_isShape_lacksPattern subject)
    · exact .ok _
  | _ => exact (failsAs_operand subject operand).map

theorem failsAs_group {c : Comparison} (h : c.Fit) :
    FailsAs (¬ ·.IsShape) (Cql.comparisonRelations c) := by
  obtain ⟨group, hgroup, -⟩ := Cql.exists_comparisonRelations (Comparison.fit_iff.mp h)
  rw [hgroup]
  exact .ok group

end Shapes

/-- Whatever can be made is well formed, and compiles or fails for something else than the shape of an
operand. If nothing is pushed under NOT, each negation denies one condition, and a record is selected by
the predicate just when a document on which the comparisons hold alike is by the clause. -/
theorem made_conditions_well_formed [RegexEngine] (h : c.Made allowed) :
    c.WellFormed ∧
    (FailsAs (¬ ·.IsShape) (Predicate.ofCondition c) ∧ FailsAs (¬ ·.IsShape) (conditionClause c) ∧
      FailsAs (¬ ·.IsShape) (Cql.relations c)) ∧
    ((∀ connective, allowed connective → connective ≠ .not) →
      (∀ cs, (Condition.composite .not cs).Within c → ∃ d, cs = [d]) ∧
      ∀ p clause, Predicate.ofCondition c = .ok p → conditionClause c = .ok clause →
        ∀ (r : Record) oracle, (∀ l ∈ c.leaves, (HoldsOn r l ↔ Answered oracle l)) →
          p.test r = clauseTruth oracle clause) := by
  have hformed : c.WellFormed := h.kept (Condition.kept_wellFormed allowed)
  have hfit : ∀ l ∈ c.leaves, l.Fit := fun l hl => hformed.fit l (Condition.within_of_mem_leaves hl)
  have hforeign : ∀ connective, ¬ (Cql.noConnective connective).IsShape := by
    rintro connective ⟨subject, h | h | h | h⟩ <;> cases h
  refine ⟨hformed, ⟨?_, ?_, ?_⟩, ?_⟩
  · exact failsAs_ofCondition fun l hl => failsAs_predicate (hfit l hl)
  · exact failsAs_conditionClause fun l hl => failsAs_clause (hfit l hl)
  · exact failsAs_relations hforeign fun l hl => failsAs_group (hfit l hl)
  · intro hallowed
    have hbuilt : c.Built := h.kept (Condition.kept_built hallowed)
    refine ⟨fun cs hcs => (hbuilt.within hcs).children.2 rfl, ?_⟩
    intro p clause hp hclause r oracle hagree
    have hmeans := (MapStore.verdict_condition hbuilt).good_of_ok hp r
    have hsays := (Search.verdict_clause hbuilt).good_of_ok hclause oracle
    rw [Bool.eq_iff_iff, hmeans, hsays]
    exact Condition.holds_congr hagree

/-- A draft that denies one comparison and pushes a range beside it. -/
theorem made_conditions_well_formed_of_draft :
    let f := (({} : Filter).add (Phrase.clause ⟨.filter, "a", 1, .equal (.integer 1)⟩)).push .or
      (Condition.range "b" (.integer 1) (.integer 2))
    let a : Comparison := ⟨"a", .equal, .integer 1⟩
    let b : Comparison := ⟨"b", .between, .sequence [.integer 1, .integer 2]⟩
    let c : Condition := .composite .or [.composite .not [.leaf a], .leaf b]
    let r : Record := ⟨"k", [("a", .long 2), ("b", .long 5)]⟩
    f.condition = some c ∧ c.Made (· ≠ .not) ∧ c.WellFormed ∧
      (∀ cs, (Condition.composite .not cs).Within c → ∃ d, cs = [d]) ∧
      ∃ p clause, Predicate.ofCondition c = .ok p ∧ conditionClause c = .ok clause ∧
        p.test r = clauseTruth (fun _ => false) clause := by
  intro f a b c r
  have hrange : ∀ d, Condition.range "b" (.integer 1) (.integer 2) = .ok d → d.Made (· ≠ .not) :=
    fun d hd => .compare hd
  have hdrafted : f.Drafted (· ≠ .not) := .push (.clause _ .start) nofun hrange
  have hmade : c.Made (· ≠ .not) := .drafted hdrafted rfl
  obtain ⟨hformed, -, hnegations⟩ := made_conditions_well_formed hmade
  obtain ⟨hsole, hagree⟩ := hnegations fun _ => id
  refine ⟨rfl, hmade, hformed, hsole, _, _, rfl, rfl, hagree _ _ rfl rfl r _ ?_⟩
  have hanswered : ∀ l, ¬ Answered (fun _ => false) l := by
    rintro l ⟨clause, -, hclause⟩
    cases hclause
  have ha : ¬ HoldsOn r a := by
    rintro ⟨v, hv, hholds⟩
    cases hv
    cases hholds
  have hb : ¬ HoldsOn r b := by
    rintro ⟨v, hv, low, high, hbounds, -, hhigh⟩
    cases hv
    cases hbounds
    rcases hhigh with hhigh | hhigh <;> cases hhigh
  intro l hl
  rcases List.mem_cons.mp hl with rfl | hl
  · exact iff_of_false ha (hanswered a)
  · obtain rfl := List.mem_singleton.mp hl
    exact iff_of_false hb (hanswered b)

/-- A condition that is pushed under NOT becomes the second one of a negation. A record is selected where
not both hold, and a document where neither does. -/
theorem negation_of_two_read_differently :
    let f := (({} : Filter).add (Phrase.clause ⟨.filter, "a", 0, .equal (.integer 1)⟩)).push .not
      (Condition.compare "b" .equal (.integer 2))
    let a : Comparison := ⟨"a", .equal, .integer 1⟩
    let b : Comparison := ⟨"b", .equal, .integer 2⟩
    let c : Condition := .composite .not [.leaf a, .leaf b]
    let r : Record := ⟨"k", [("a", .long 1), ("b", .long 3)]⟩
    let oracle : Json → Bool := fun
      | .object [("term", .object [("a", _)])] => true
      | _ => false
    f.condition = some c ∧ c.Made (fun _ => True) ∧ (∀ l ∈ c.leaves, (HoldsOn r l ↔ Answered oracle l)) ∧
      ∃ p clause, Predicate.ofCondition c = .ok p ∧ conditionClause c = .ok clause ∧
        p.test r = true ∧ clauseTruth oracle clause = false := by
  intro f a b c r oracle
  have hpushed : ∀ d, Condition.compare "b" .equal (.integer 2) = .ok d → d.Made (fun _ => True) :=
    fun d hd => .compare hd
  have hdrafted : f.Drafted fun _ => True := .push (.clause _ .start) trivial hpushed
  refine ⟨rfl, .drafted hdrafted rfl, ?_, _, _, rfl, rfl, rfl, rfl⟩
  have ha : HoldsOn r a := ⟨.integer 1, rfl, rfl⟩
  have hb : ¬ HoldsOn r b := by
    rintro ⟨v, hv, hholds⟩
    cases hv
    cases hholds
  have hanswered : Answered oracle a := ⟨_, .equal rfl, rfl⟩
  have hdenied : ¬ Answered oracle b := by
    rintro ⟨clause, hclause, hanswer⟩
    rw [Search.clauseOf_iff] at hclause
    cases hclause
    cases hanswer
  intro l hl
  rcases List.mem_cons.mp hl with rfl | hl
  · exact iff_of_true ha hanswered
  · obtain rfl := List.mem_singleton.mp hl
    exact iff_of_false hb hdenied

end StoreQuery
