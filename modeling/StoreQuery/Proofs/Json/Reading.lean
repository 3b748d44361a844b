import StoreQuery.Json.Reader
import StoreQuery.Proofs.Json.Ordered
/-!
What is read of the parts of a text: the characters of a string, a member of an object, and members one
after another. The members of an object are given in the order that the text has them in; its value has
the same members by name.
-/
namespace StoreQuery.Json

namespace Reader

def members? (depth : Nat) : Read Fields
  | '\x7b' :: cs =>
    match skipSpace cs with
    | '\x7d' :: cs => some ([], cs)
    | cs => fields? (value? depth) cs.length cs
  | _ => none

end Reader

def membersOfText? (text : String) : Option Fields := do
  let (fs, rest) ← Reader.members? Reader.maxDepth.pred (Reader.skipSpace text.toList)
  if Reader.skipSpace rest = [] then return fs else none

namespace Reader

variable {item : Read Json} {depth n : Nat} {a b c d : Char}
  {cs rest after key value : List Char} {f : String × Json} {fs : Fields}

theorem string?_plain (hquote : c ≠ '"') (hslash : c ≠ '\\') (hcontrol : 32 ≤ c.toNat) (cs : List Char) :
    string? (c :: cs) = (string? cs).map fun (s, cs) => (c :: s, cs) := by
  have hplain : ¬ (c = '\\' ∨ c.toNat < 32) := by
    rintro (h | h)
    · exact hslash h
    · omega
  rw [string?, if_neg hplain] <;> simp_all

theorem string?_escape {e : Char} (hescape : escape? c = some e) (cs : List Char) :
    string? ('\\' :: c :: cs) = (string? cs).map fun (s, cs) => (e :: s, cs) := by
  have hpoint : c ≠ 'u' := by
    rintro rfl
    cases hescape
  rw [string?, hescape]
  simp_all

theorem string?_point (hpoint : Text.ofHex? [a, b, c, d] = some n) (hhigh : isHighSurrogate n = false)
    (hlow : isLowSurrogate n = false) (cs : List Char) :
    string? ('\\' :: 'u' :: a :: b :: c :: d :: cs) =
      (string? cs).map fun (s, cs) => (Char.ofNat n :: s, cs) := by
  rw [string?, hpoint]
  simp only [hhigh, hlow, Bool.false_eq_true, if_false]

theorem value?_string (depth : Nat) (h : string? cs = some (value, rest)) :
    value? depth ('"' :: cs) = some (.string (String.ofList value), rest) := by
  rw [value?, h]
  rfl

/-- A name and a string, with nothing but a colon between them. -/
theorem field?_strings (depth : Nat) (hkey : string? cs = some (key, ':' :: '"' :: rest))
    (hvalue : string? rest = some (value, after)) :
    field? (value? depth) ('"' :: cs) =
      some ((String.ofList key, .string (String.ofList value)), after) := by
  have hread : value? depth ('"' :: rest) = some (.string (String.ofList value), after) :=
    value?_string depth hvalue
  simp only [field?, hkey, Option.bind_eq_bind, Option.bind_some]
  change (value? depth ('"' :: rest)).bind _ = _
  rw [hread]
  rfl

theorem fields?_more (h : field? item (skipSpace cs) = some (f, ',' :: rest)) (fuel : Nat) :
    fields? item (fuel + 1) cs = (fields? item fuel rest).map fun (fs, rest) => (f :: fs, rest) := by
  rw [fields?, h]
  change (fields? item fuel rest).bind _ = _
  cases fields? item fuel rest <;> rfl

theorem fields?_last (h : field? item (skipSpace cs) = some (f, '\x7d' :: rest)) (fuel : Nat) :
    fields? item (fuel + 1) cs = some ([f], rest) := by
  rw [fields?, h]
  rfl

theorem value?_empty (h : skipSpace cs = '\x7d' :: rest) :
    value? (depth + 1) ('\x7b' :: cs) = some (.object [], rest) := by
  rw [value?]
  exact h

theorem value?_object (h : ∀ rest, skipSpace cs = '\x7d' :: rest → False) :
    value? (depth + 1) ('\x7b' :: cs) =
      (fields? (value? depth) (skipSpace cs).length (skipSpace cs)).map
        fun (fs, cs) => (.ofFields fs, cs) := by
  simp only [value?]

/-- The value of an object has its members by name. -/
theorem value?_members (h : members? depth cs = some (fs, rest)) :
    value? (depth + 1) cs = some (.ofFields fs, rest) := by
  unfold members? at h
  split at h
  case h_2 => cases h
  case h_1 cs =>
    split at h
    case h_1 hempty =>
      cases h
      rw [value?_empty hempty]
      rfl
    case h_2 hsome =>
      rw [value?_object hsome, h]
      rfl

end Reader

theorem ofText?_of_members {text : String} {fs : Fields} (h : membersOfText? text = some fs) :
    ofText? text = some (.ofFields fs) := by
  obtain ⟨⟨members, rest⟩, hread, hrest⟩ := Option.bind_eq_some_iff.mp h
  have hvalue : Reader.value? Reader.maxDepth (Reader.skipSpace text.toList) =
      some (.ofFields members, rest) := Reader.value?_members hread
  rw [ofText?, hvalue]
  dsimp only at hrest
  split at hrest
  · rename_i hspace
    cases hrest
    exact if_pos hspace
  · cases hrest

section Ordered

namespace Reader

variable {item : Read Json} {depth fuel : Nat} {cs rest : List Char} {j : Json} {js : List Json}
  {fs : Fields}

theorem ordered_number? (h : number? cs = some (j, rest)) : j.Ordered := by
  have hunsigned : ∃ negative cs, unsigned? negative cs = some (j, rest) := by
    rw [number?.eq_def] at h
    split at h
    · exact ⟨true, _, h⟩
    · exact ⟨false, _, h⟩
  obtain ⟨negative, cs, hread⟩ := hunsigned
  obtain ⟨⟨whole, cs⟩, -, hread⟩ := Option.bind_eq_some_iff.mp hread
  obtain ⟨⟨places, cs⟩, -, hread⟩ := Option.bind_eq_some_iff.mp hread
  obtain ⟨⟨exponent, cs⟩, -, hread⟩ := Option.bind_eq_some_iff.mp hread
  obtain ⟨n, hn, hread⟩ := Option.bind_eq_some_iff.mp hread
  cases hread
  simp only [numberOf?] at hn
  split at hn
  · cases hn
    exact ordered_of_scalar rfl nofun
  · obtain ⟨x, -, rfl⟩ := Option.map_eq_some_iff.mp hn
    exact ordered_of_scalar rfl nofun

theorem ordered_items? (hitem : ∀ cs j rest, item cs = some (j, rest) → j.Ordered)
    (h : items? item fuel cs = some (js, rest)) : ∀ j ∈ js, j.Ordered := by
  induction fuel generalizing cs js with
  | zero => cases h
  | succ fuel ih =>
    obtain ⟨⟨j, cs⟩, hj, h⟩ := Option.bind_eq_some_iff.mp h
    have hordered := hitem _ _ _ hj
    dsimp only at h
    split at h
    · obtain ⟨⟨js, cs⟩, hjs, h⟩ := Option.bind_eq_some_iff.mp h
      cases h
      exact List.forall_mem_cons.mpr ⟨hordered, ih hjs⟩
    · cases h
      exact List.forall_mem_singleton.mpr hordered
    · cases h

theorem ordered_field? {f : String × Json} (hitem : ∀ cs j rest, item cs = some (j, rest) → j.Ordered)
    (h : field? item cs = some (f, rest)) : f.2.Ordered := by
  unfold field? at h
  split at h
  · obtain ⟨⟨name, cs⟩, -, h⟩ := Option.bind_eq_some_iff.mp h
    dsimp only at h
    split at h
    · obtain ⟨⟨j, cs⟩, hj, h⟩ := Option.bind_eq_some_iff.mp h
      cases h
      exact hitem _ _ _ hj
    · cases h
  · cases h

theorem ordered_fields? (hitem : ∀ cs j rest, item cs = some (j, rest) → j.Ordered)
    (h : fields? item fuel cs = some (fs, rest)) : ∀ f ∈ fs, f.2.Ordered := by
  induction fuel generalizing cs fs with
  | zero => cases h
  | succ fuel ih =>
    obtain ⟨⟨f, cs⟩, hf, h⟩ := Option.bind_eq_some_iff.mp h
    have hordered := ordered_field? hitem hf
    dsimp only at h
    split at h
    · obtain ⟨⟨fs, cs⟩, hfs, h⟩ := Option.bind_eq_some_iff.mp h
      cases h
      exact List.forall_mem_cons.mpr ⟨hordered, ih hfs⟩
    · cases h
      exact List.forall_mem_singleton.mpr hordered
    · cases h

/-- Whatever order the fields of an object are read in, its value has them in order. -/
theorem ordered_value? (h : value? depth cs = some (j, rest)) : j.Ordered := by
  induction depth using Nat.strongRecOn generalizing cs j rest with
  | ind depth ih =>
    unfold value? at h
    split at h
    case h_4 cs =>
      obtain ⟨⟨value, cs⟩, -, hj⟩ := Option.map_eq_some_iff.mp h
      cases hj
      exact ordered_of_scalar rfl nofun
    case h_5 cs =>
      split at h
      · cases h
      · cases h
        exact ordered_array (List.forall_mem_nil _)
      · obtain ⟨⟨js, cs⟩, hjs, hj⟩ := Option.map_eq_some_iff.mp h
        cases hj
        exact ordered_array (ordered_items? (fun _ _ _ => ih _ (Nat.lt_succ_self _)) hjs)
    case h_6 cs =>
      split at h
      · cases h
      · cases h
        exact ordered_ofFields (List.forall_mem_nil _)
      · obtain ⟨⟨fs, cs⟩, hfs, hj⟩ := Option.map_eq_some_iff.mp h
        cases hj
        exact ordered_ofFields (ordered_fields? (fun _ _ _ => ih _ (Nat.lt_succ_self _)) hfs)
    case h_7 => exact ordered_number? h
    all_goals
      cases h
      exact ordered_of_scalar rfl nofun

end Reader

theorem ordered_ofText? {text : String} {j : Json} (h : ofText? text = some j) : j.Ordered := by
  obtain ⟨⟨k, rest⟩, hread, hrest⟩ := Option.bind_eq_some_iff.mp h
  dsimp only at hrest
  split at hrest
  · cases hrest
    exact Reader.ordered_value? hread
  · cases hrest

end Ordered

end StoreQuery.Json
