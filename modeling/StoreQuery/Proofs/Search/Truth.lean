import StoreQuery.Proofs.Condition.Meaning
import StoreQuery.Proofs.Json.Fields
import StoreQuery.Search.Body
/-!
What search clauses say of a document. The truth of a bool clause follows from that of the clauses in
its sections; every other clause is put to an oracle, which knows the document.
-/
namespace StoreQuery.Search

/-- How many of the clauses that should hold are needed; without a word on it one is, unless others must
hold already. -/
def minimumShouldMatch (sections : Json.Fields) : Nat :=
  match sections.get? "minimum_should_match", sections.get? "must", sections.get? "filter" with
  | some (.integer n), _, _ => n.toNat
  | _, none, none => if (sections.get? "should").isSome then 1 else 0
  | _, _, _ => 0

def boolTruth (needed : Nat) (truths : List (String × List Bool)) : Bool :=
  let of (name : String) : List Bool := (truths.lookup name).getD []
  (of "filter").all id && (of "must").all id && !(of "must_not").any id &&
    needed ≤ (of "should").count true

mutual

/-- Whether the document that an oracle knows satisfies a clause. -/
def clauseTruth (oracle : Json → Bool) : Json → Bool
  | .object [("bool", .object sections)] =>
    boolTruth (minimumShouldMatch sections) (sectionTruths oracle sections)
  | clause => oracle clause

def sectionTruths (oracle : Json → Bool) : Json.Fields → List (String × List Bool)
  | [] => []
  | (name, .array clauses) :: sections =>
    (name, clauseTruths oracle clauses) :: sectionTruths oracle sections
  | (name, clause) :: sections => (name, [clauseTruth oracle clause]) :: sectionTruths oracle sections

def clauseTruths (oracle : Json → Bool) : List Json → List Bool
  | [] => []
  | clause :: clauses => clauseTruth oracle clause :: clauseTruths oracle clauses

end

def sectionClauses (sections : Json.Fields) (name : String) : List Json :=
  match sections.get? name with
  | some (.array clauses) => clauses
  | some clause => [clause]
  | none => []

variable {oracle : Json → Bool} {sections : Json.Fields} {clauses : List Json} {name : String}

theorem clauseTruths_eq (oracle : Json → Bool) (clauses : List Json) :
    clauseTruths oracle clauses = clauses.map (clauseTruth oracle) := by
  induction clauses with
  | nil => rfl
  | cons clause clauses ih => rw [clauseTruths, ih, List.map_cons]

theorem lookup_sectionTruths (oracle : Json → Bool) (sections : Json.Fields) (name : String) :
    ((sectionTruths oracle sections).lookup name).getD [] =
      (sectionClauses sections name).map (clauseTruth oracle) := by
  induction sections with
  | nil => rfl
  | cons f sections ih =>
    obtain ⟨n, clause⟩ := f
    -- A single clause counts as an array of one.
    have hcons : sectionTruths oracle ((n, clause) :: sections) =
        (n, (sectionClauses [(n, clause)] n).map (clauseTruth oracle)) ::
          sectionTruths oracle sections := by
      cases clause <;>
        simp [sectionTruths, sectionClauses, Json.Fields.get?_cons, clauseTruths_eq]
    rw [hcons]
    by_cases h : name = n
    · subst h
      simp [sectionClauses, Json.Fields.get?_cons]
    · have hbeq : (name == n) = false := beq_false_of_ne h
      simp only [sectionClauses] at ih
      simp only [List.lookup_cons, hbeq, sectionClauses, Json.Fields.get?_cons, if_neg h]
      exact ih

/-- What a bool clause says: all of the filters and of what must hold, none of what must not, and as
many as are needed of what should. -/
theorem clauseTruth_bool :
    clauseTruth oracle (single "bool" (.object sections)) = true ↔
      (∀ j ∈ sectionClauses sections "filter", clauseTruth oracle j = true) ∧
      (∀ j ∈ sectionClauses sections "must", clauseTruth oracle j = true) ∧
      (∀ j ∈ sectionClauses sections "must_not", clauseTruth oracle j = false) ∧
      minimumShouldMatch sections ≤
        (sectionClauses sections "should").countP (clauseTruth oracle) := by
  simp only [single, clauseTruth, boolTruth, lookup_sectionTruths]
  simp [and_assoc, List.count, List.countP_map, Function.comp_def]

-- Beside a filter nothing that should hold is needed, unless it is asked for.
example : clauseTruth (fun _ => false)
    (single "bool" (.object [("filter", .array []), ("should", .array [.null])])) = true := by
  decide

theorem clauseTruth_other (h : name ≠ "bool") (j : Json) :
    clauseTruth oracle (single name j) = oracle (single name j) := by
  rw [single, clauseTruth]
  rintro sections heq
  cases heq
  exact h rfl

theorem clauseTruth_and :
    clauseTruth oracle (boolClause .and clauses) = true ↔
      ∀ j ∈ clauses, clauseTruth oracle j = true := by
  have h : boolClause .and clauses = single "bool" (.object [("must", .array clauses)]) := rfl
  rw [h, clauseTruth_bool]
  simp [sectionClauses, minimumShouldMatch, Json.Fields.get?_cons]

theorem clauseTruth_or :
    clauseTruth oracle (boolClause .or clauses) = true ↔
      ∃ j ∈ clauses, clauseTruth oracle j = true := by
  have h : boolClause .or clauses = single "bool" (.object
      (Json.Fields.ofList [("should", .array clauses), ("minimum_should_match", .integer 1)])) := rfl
  rw [h, clauseTruth_bool]
  simp [sectionClauses, minimumShouldMatch, Json.Fields.ofList, Json.Fields.get?_put,
    List.one_le_countP_iff]

theorem clauseTruth_not {clause : Json} :
    clauseTruth oracle (boolClause .not [clause]) = true ↔ ¬ clauseTruth oracle clause = true := by
  have h : boolClause .not [clause] = single "bool" (.object [("must_not", .array [clause])]) := rfl
  rw [h, clauseTruth_bool]
  simp [sectionClauses, minimumShouldMatch, Json.Fields.get?_cons]

end StoreQuery.Search
