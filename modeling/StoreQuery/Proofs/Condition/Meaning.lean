import StoreQuery.Condition
/-!
What conditions mean. The truth of a condition follows from that of its comparisons; its comparisons and
its connectives stand in the order in which they are read.
-/
namespace StoreQuery.Condition

mutual

def Holds (truth : Comparison → Prop) : Condition → Prop
  | .leaf c => truth c
  | .composite .and children => AllHold truth children
  | .composite .or children => AnyHolds truth children
  | .composite .not children => ¬ AllHold truth children

def AllHold (truth : Comparison → Prop) : List Condition → Prop
  | [] => True
  | c :: cs => Holds truth c ∧ AllHold truth cs

def AnyHolds (truth : Comparison → Prop) : List Condition → Prop
  | [] => False
  | c :: cs => Holds truth c ∨ AnyHolds truth cs

end

mutual

def leaves : Condition → List Comparison
  | .leaf c => [c]
  | .composite _ children => leavesOfAll children

def leavesOfAll : List Condition → List Comparison
  | [] => []
  | c :: cs => leaves c ++ leavesOfAll cs

end

mutual

/-- The connectives of a condition, each before those under it. -/
def connectives : Condition → List Connective
  | .leaf _ => []
  | .composite connective children => connective :: connectivesOfAll children

def connectivesOfAll : List Condition → List Connective
  | [] => []
  | c :: cs => connectives c ++ connectivesOfAll cs

end

variable {truth : Comparison → Prop} {c : Condition} {cs : List Condition}

theorem allHold_iff : AllHold truth cs ↔ ∀ c ∈ cs, Holds truth c := by
  induction cs with
  | nil => simp [AllHold]
  | cons c cs ih => simp [AllHold, ih]

theorem anyHolds_iff : AnyHolds truth cs ↔ ∃ c ∈ cs, Holds truth c := by
  induction cs with
  | nil => simp [AnyHolds]
  | cons c cs ih => simp [AnyHolds, ih]

@[simp]
theorem holds_leaf {c : Comparison} : Holds truth (.leaf c) ↔ truth c := Iff.rfl

@[simp]
theorem holds_and : Holds truth (.composite .and cs) ↔ ∀ c ∈ cs, Holds truth c := allHold_iff

@[simp]
theorem holds_or : Holds truth (.composite .or cs) ↔ ∃ c ∈ cs, Holds truth c := anyHolds_iff

theorem holds_not : Holds truth (.composite .not cs) ↔ ¬ ∀ c ∈ cs, Holds truth c :=
  not_congr allHold_iff

theorem leavesOfAll_eq (cs : List Condition) : leavesOfAll cs = cs.flatMap leaves := by
  induction cs with
  | nil => rfl
  | cons c cs ih => simp [leavesOfAll, ih]

@[simp]
theorem leaves_leaf (c : Comparison) : leaves (.leaf c) = [c] := rfl

@[simp]
theorem leaves_composite (connective : Connective) (cs : List Condition) :
    leaves (.composite connective cs) = cs.flatMap leaves := leavesOfAll_eq cs

theorem findSome?_leaves_composite {α : Type} (f : Comparison → Option α) (connective : Connective)
    (cs : List Condition) :
    (composite connective cs).leaves.findSome? f = cs.findSome? fun c => c.leaves.findSome? f := by
  rw [leaves_composite]
  induction cs with
  | nil => rfl
  | cons c cs ih =>
    rw [List.flatMap_cons, List.findSome?_append, ih, List.findSome?_cons]
    cases c.leaves.findSome? f <;> rfl

theorem connectivesOfAll_eq (cs : List Condition) :
    connectivesOfAll cs = cs.flatMap connectives := by
  induction cs with
  | nil => rfl
  | cons c cs ih => simp [connectivesOfAll, ih]

@[simp]
theorem connectives_composite (connective : Connective) (cs : List Condition) :
    connectives (.composite connective cs) = connective :: cs.flatMap connectives :=
  congrArg (connective :: ·) (connectivesOfAll_eq cs)

/-- The conditions that can be made: comparisons without a defect, joins of at least one condition, and
negations. -/
inductive Built : Condition → Prop where
  | compare {subject : String} {operator : Operator} {operand : Value} {c : Condition} :
      Condition.compare subject operator operand = .ok c → Built c
  | all {cs : List Condition} {c : Condition} :
      (∀ d ∈ cs, Built d) → Condition.all cs = .ok c → Built c
  | any {cs : List Condition} {c : Condition} :
      (∀ d ∈ cs, Built d) → Condition.any cs = .ok c → Built c
  | negate {c : Condition} : Built c → Built c.negate

theorem compare_eq_ok {subject : String} {operator : Operator} {operand : Value}
    (h : Condition.compare subject operator operand = .ok c) :
    defect? subject operator operand = none ∧ c = .leaf ⟨subject, operator, operand⟩ := by
  simp only [Condition.compare] at h
  split at h
  · cases h
  · rename_i hdefect
    cases h
    exact ⟨hdefect, rfl⟩

theorem subject_ne_empty {subject : String} {operator : Operator} {operand : Value}
    (h : defect? subject operator operand = none) : subject ≠ "" := by
  rintro rfl
  cases h

theorem operand_of_between {subject : String} {operand : Value}
    (h : defect? subject .between operand = none) : ∃ low high, operand = .sequence [low, high] := by
  have hsubject := subject_ne_empty h
  cases operand with
  | sequence items =>
    match items with
    | [low, high] => exact ⟨low, high, rfl⟩
    | [] | [_] | _ :: _ :: _ :: _ => simp [defect?, Value.items?, hsubject] at h
  | _ => simp [defect?, Value.items?, hsubject] at h

theorem operand_of_oneOf {subject : String} {operand : Value}
    (h : defect? subject .oneOf operand = none) : ∃ items, operand = .sequence items := by
  have hsubject := subject_ne_empty h
  cases operand with
  | sequence items => exact ⟨items, rfl⟩
  | _ => simp [defect?, Value.items?, hsubject] at h

theorem join_eq_ok {connective : Connective} (h : join connective cs = .ok c) :
    cs ≠ [] ∧ c = .composite connective cs := by
  cases cs with
  | nil => cases h
  | cons d ds =>
    cases h
    exact ⟨List.cons_ne_nil d ds, rfl⟩

theorem built_leaf {c : Comparison} (h : defect? c.subject c.operator c.operand = none) :
    Built (.leaf c) := by
  have hc : Condition.compare c.subject c.operator c.operand = .ok (.leaf c) := by
    simp only [Condition.compare, h]
  exact .compare hc

theorem join_of_ne_nil (connective : Connective) (h : cs ≠ []) :
    join connective cs = .ok (.composite connective cs) := by
  cases cs with
  | nil => exact (h rfl).elim
  | cons c cs => rfl

theorem built_and (hne : cs ≠ []) (h : ∀ c ∈ cs, Built c) : Built (.composite .and cs) :=
  .all h (join_of_ne_nil .and hne)

theorem built_or (hne : cs ≠ []) (h : ∀ c ∈ cs, Built c) : Built (.composite .or cs) :=
  .any h (join_of_ne_nil .or hne)

/-- Induction over what can be made, by the shape that it has. -/
theorem Built.byShape {motive : (c : Condition) → c.Built → Prop}
    (leaf : ∀ c h, defect? c.subject c.operator c.operand = none → motive (.leaf c) h)
    (and : ∀ cs h, cs ≠ [] → (∀ c ∈ cs, ∃ hc, motive c hc) → motive (.composite .and cs) h)
    (or : ∀ cs h, cs ≠ [] → (∀ c ∈ cs, ∃ hc, motive c hc) → motive (.composite .or cs) h)
    (not : ∀ c hc h, motive c hc → motive (.composite .not [c]) h)
    (c : Condition) (h : c.Built) : motive c h := by
  induction h with
  | compare hc =>
    obtain ⟨hdefect, rfl⟩ := compare_eq_ok hc
    exact leaf _ _ hdefect
  | all hchildren hc ih =>
    obtain ⟨hne, rfl⟩ := join_eq_ok hc
    exact and _ _ hne fun d hd => ⟨hchildren d hd, ih d hd⟩
  | any hchildren hc ih =>
    obtain ⟨hne, rfl⟩ := join_eq_ok hc
    exact or _ _ hne fun d hd => ⟨hchildren d hd, ih d hd⟩
  | negate hc ih => exact not _ hc _ ih

theorem leaves_ne_nil (h : c.Built) : c.leaves ≠ [] := by
  induction c, h using Built.byShape with
  | leaf c => exact List.cons_ne_nil _ _
  | and cs _ hne ih | or cs _ hne ih =>
    obtain ⟨d, ds, rfl⟩ := List.exists_cons_of_ne_nil hne
    rw [leaves_composite, List.flatMap_cons]
    exact List.append_ne_nil_of_left_ne_nil (ih d List.mem_cons_self).2 _
  | not c _ _ ih =>
    rw [leaves_composite, List.flatMap_singleton]
    exact ih

/-- A condition of nothing but conjunctions holds where all of its comparisons do. -/
theorem holds_of_conjunctive (h : c.Built) (hall : ∀ connective ∈ c.connectives, connective = .and) :
    Holds truth c ↔ ∀ leaf ∈ c.leaves, truth leaf := by
  induction c, h using Built.byShape with
  | leaf c => rw [holds_leaf, leaves_leaf, List.forall_mem_singleton]
  | and cs _ _ ih =>
    rw [connectives_composite, List.forall_mem_cons, List.forall_mem_flatMap] at hall
    rw [holds_and, leaves_composite, List.forall_mem_flatMap]
    apply forall₂_congr
    intro d hd
    exact (ih d hd).2 (hall.2 d hd)
  | or cs => cases hall .or (by simp)
  | not c => cases hall .not (by simp)

end StoreQuery.Condition
