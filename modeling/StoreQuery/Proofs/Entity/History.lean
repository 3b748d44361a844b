import Mathlib.Data.Finmap
import Mathlib.Order.Bounds.Basic
import StoreQuery.Proofs.Entity
import StoreQuery.Proofs.Step
/-!
Entities by the history of what was done to them. Replayed on a finite map, a history tells what an entity
holds; its attributes stand in the order in which their names came in.
-/
namespace StoreQuery

abbrev Attribute.Made := { a : Attribute // ∃ name value, Attribute.of name value = .ok a }

theorem Attribute.Made.named (a : Attribute.Made) : a.val.name ≠ "" := by
  obtain ⟨a, name, value, h⟩ := a
  rw [Attribute.of] at h
  split at h
  · cases h
  · cases h
    assumption

inductive Edit where
  | set (name : String) (value : Value)
  /-- Gives the entity up for one with a value set. -/
  | extend (name : String) (value : Value)
  | add (a : Attribute.Made)
  | remove (name : String)

/-- What an edit answers, the removed attribute for one, and the entity that it leaves. -/
structure Edited where
  answer : Except QueryError (Option Attribute)
  left : Option Entity

def Entity.edit (e : Entity) : Edit → Edited
  | .set name value =>
    match e.set name value with
    | .ok f => ⟨.ok none, some f⟩
    | .error err => ⟨.error err, some e⟩
  | .extend name value =>
    match e.set name value with
    | .ok f => ⟨.ok none, some f⟩
    | .error err => ⟨.error err, none⟩
  | .add a => ⟨.ok none, some (e.add a.val)⟩
  | .remove name => ⟨.ok (e.find? name), some (e.remove name)⟩

def Entity.edits (e : Entity) : List Edit → Option Entity
  | [] => some e
  | x :: xs => (e.edit x).left.bind fun f => f.edits xs

/-- Entities of a collection with the edits that they came from. -/
inductive Entity.Traced (collection : String) : List Edit → Entity → Prop where
  | new {e : Entity} : Entity.new collection = .ok e → Traced collection [] e
  | of {as : List Attribute.Made} {e : Entity} :
      Entity.of collection (as.map Subtype.val) = .ok e → Traced collection (as.map .add) e
  | edits {history xs : List Edit} {e f : Entity} :
      Traced collection history e → e.edits xs = some f → Traced collection (history ++ xs) f

section Replay

abbrev Register := Finmap fun _ : String => Value

def Register.after (m : Register) : Edit → Register
  | .set name value | .extend name value => if name = "" then m else m.insert name value
  | .add a => m.insert a.val.name a.val.value
  | .remove name => m.erase name

def replayed (history : List Edit) : Register := history.foldl Register.after ∅

def Register.answer (m : Register) : Edit → Except QueryError (Option Attribute)
  | .set name _ | .extend name _ =>
    if name = "" then .error (.invalidArgument "attribute name must not be empty") else .ok none
  | .add _ => .ok none
  | .remove name => .ok ((m.lookup name).map (Attribute.mk name))

def Edit.Inserts (name : String) : Edit → Prop
  | .set n _ | .extend n _ => n ≠ "" ∧ n = name
  | .add a => a.val.name = name
  | .remove _ => False

def Edit.Removes (name : String) : Edit → Prop
  | .remove n => n = name
  | _ => False

/-- Where a history inserts a name that it does not remove later. -/
def insertions (history : List Edit) (name : String) : Set Nat :=
  { i | (∃ x, history[i]? = some x ∧ x.Inserts name) ∧
    ∀ j x, i < j → history[j]? = some x → ¬ x.Removes name }

variable {history : List Edit} {x : Edit} {name : String} {i : Nat}

theorem Edit.Inserts.not_removes (h : x.Inserts name) (other : String) : ¬ x.Removes other := by
  cases x with
  | remove n => exact h.elim
  | _ => exact id

theorem replayed_concat (history : List Edit) (x : Edit) :
    replayed (history ++ [x]) = (replayed history).after x := by
  rw [replayed, List.foldl_append]
  rfl

theorem lt_of_mem_insertions (h : i ∈ insertions history name) : i < history.length := by
  obtain ⟨⟨x, hx, -⟩, -⟩ := h
  exact (List.getElem?_eq_some_iff.mp hx).1

theorem mem_insertions_concat :
    i ∈ insertions (history ++ [x]) name ↔
      ¬ x.Removes name ∧
        (i ∈ insertions history name ∨ i = history.length ∧ x.Inserts name) := by
  have hlast : (history ++ [x])[history.length]? = some x := List.getElem?_concat_length
  constructor
  · rintro ⟨⟨y, hy, hinserts⟩, hkept⟩
    have hlt := (List.getElem?_eq_some_iff.mp hy).1
    rw [List.length_append, List.length_singleton] at hlt
    rcases Nat.lt_succ_iff_lt_or_eq.mp hlt with hlt | rfl
    · refine ⟨hkept _ x hlt hlast, .inl ⟨⟨y, ?_, hinserts⟩, ?_⟩⟩
      · rwa [List.getElem?_append_left hlt] at hy
      · intro j z hj hz
        have hjlt := (List.getElem?_eq_some_iff.mp hz).1
        exact hkept j z hj (by rwa [List.getElem?_append_left hjlt])
    · obtain rfl := Option.some.inj (hlast.symm.trans hy)
      exact ⟨hinserts.not_removes name, .inr ⟨rfl, hinserts⟩⟩
  · rintro ⟨hnot, ⟨⟨y, hy, hinserts⟩, hkept⟩ | ⟨rfl, hinserts⟩⟩
    · have hlt := (List.getElem?_eq_some_iff.mp hy).1
      refine ⟨⟨y, by rwa [List.getElem?_append_left hlt], hinserts⟩, ?_⟩
      intro j z hj hz
      have hjlt := (List.getElem?_eq_some_iff.mp hz).1
      rw [List.length_append, List.length_singleton] at hjlt
      rcases Nat.lt_succ_iff_lt_or_eq.mp hjlt with hjlt | rfl
      · exact hkept j z hj (by rwa [List.getElem?_append_left hjlt] at hz)
      · obtain rfl := Option.some.inj (hlast.symm.trans hz)
        exact hnot
    · refine ⟨⟨x, hlast, hinserts⟩, ?_⟩
      intro j z hj hz
      have hjlt := (List.getElem?_eq_some_iff.mp hz).1
      rw [List.length_append, List.length_singleton] at hjlt
      omega

theorem nonempty_insertions_concat :
    (insertions (history ++ [x]) name).Nonempty ↔
      ¬ x.Removes name ∧ ((insertions history name).Nonempty ∨ x.Inserts name) := by
  simp only [Set.Nonempty, mem_insertions_concat]
  constructor
  · rintro ⟨i, hnot, h | ⟨-, h⟩⟩
    · exact ⟨hnot, .inl ⟨i, h⟩⟩
    · exact ⟨hnot, .inr h⟩
  · rintro ⟨hnot, ⟨i, h⟩ | h⟩
    · exact ⟨i, hnot, .inl h⟩
    · exact ⟨history.length, hnot, .inr ⟨rfl, h⟩⟩

/-- A name that is there keeps the place of its first insertion. -/
theorem isLeast_of_concat (hthere : (insertions history name).Nonempty)
    (h : IsLeast (insertions (history ++ [x]) name) i) : IsLeast (insertions history name) i := by
  obtain ⟨hmem, hleast⟩ := h
  obtain ⟨hnot, hi⟩ := mem_insertions_concat.mp hmem
  have hlower : ∀ j ∈ insertions history name, i ≤ j :=
    fun j hj => hleast (mem_insertions_concat.mpr ⟨hnot, .inl hj⟩)
  rcases hi with hi | ⟨rfl, -⟩
  · exact ⟨hi, hlower⟩
  · obtain ⟨j, hj⟩ := hthere
    have hlt := lt_of_mem_insertions hj
    have hle := hlower j hj
    omega

end Replay

section Steps

variable {collection : String} {history : List Edit} {e f : Entity} {x : Edit}

inductive Effect (x : Edit) (e : Entity) : Entity → Prop where
  | writes (a : Attribute) : a.name ≠ "" →
      (∀ m : Register, m.after x = m.insert a.name a.value) →
      (∀ name, x.Inserts name ↔ a.name = name) → Effect x e (e.add a)
  | removes (name : String) : x = .remove name → Effect x e (e.remove name)
  | nothing : (∀ m : Register, m.after x = m) →
      (∀ name, ¬ x.Inserts name) → (∀ name, ¬ x.Removes name) → Effect x e e

theorem effect_of_set {name : String} {value : Value}
    (hafter : ∀ m : Register, m.after x = if name = "" then m else m.insert name value)
    (hinserts : ∀ n, x.Inserts n ↔ name ≠ "" ∧ name = n) (h : e.set name value = .ok f) :
    Effect x e f := by
  obtain ⟨hname, rfl⟩ := Entity.set_eq_ok.mp h
  refine .writes ⟨name, value⟩ hname ?_ ?_
  · intro m
    rw [hafter, if_neg hname]
  · intro n
    rw [hinserts]
    exact and_iff_right hname

theorem effect_of_edit (h : (e.edit x).left = some f) : Effect x e f := by
  cases x with
  | set name value =>
    simp only [Entity.edit] at h
    split at h
    · rename_i hset
      cases h
      exact effect_of_set (fun _ => rfl) (fun _ => Iff.rfl) hset
    · rename_i hset
      cases h
      have hname : name = "" := by
        by_contra hname
        rw [Entity.set_eq_ok.mpr ⟨hname, rfl⟩] at hset
        cases hset
      refine .nothing ?_ ?_ fun _ => id
      · exact fun m => if_pos hname
      · exact fun n hinserts => hinserts.1 hname
  | extend name value =>
    simp only [Entity.edit] at h
    split at h
    · rename_i hset
      cases h
      exact effect_of_set (fun _ => rfl) (fun _ => Iff.rfl) hset
    · cases h
  | add a =>
    cases h
    exact .writes a.val a.named (fun _ => rfl) fun _ => Iff.rfl
  | remove name =>
    cases h
    exact .removes name rfl

structure Reflects (collection : String) (history : List Edit) (e : Entity) : Prop where
  name_eq : e.name = collection
  valid : e.Valid
  get : ∀ name, e.get? name = (replayed history).lookup name
  present : ∀ name, name ∈ e.names ↔ (insertions history name).Nonempty
  ordered : e.names.Pairwise fun m n => ∀ i j,
    IsLeast (insertions history m) i → IsLeast (insertions history n) j → i < j

namespace Reflects

theorem new (h : Entity.new collection = .ok e) : Reflects collection [] e := by
  have hvalid := Entity.new_valid h
  rw [Entity.new] at h
  split at h
  · cases h
  · cases h
    refine ⟨rfl, hvalid, fun _ => rfl, ?_, .nil⟩
    intro name
    refine iff_of_false List.not_mem_nil ?_
    rintro ⟨i, hi⟩
    exact absurd (lt_of_mem_insertions hi) (Nat.not_lt_zero i)

/-- Names that stay keep their order. -/
theorem ordered_concat (h : Reflects collection history e) {names : List String}
    (hkept : names.Sublist e.names) :
    names.Pairwise fun m n => ∀ i j, IsLeast (insertions (history ++ [x]) m) i →
      IsLeast (insertions (history ++ [x]) n) j → i < j := by
  apply (h.ordered.sublist hkept).imp_of_mem
  intro m n hm hn hbefore i j hi hj
  have hmthere := (h.present m).mp (hkept.subset hm)
  have hnthere := (h.present n).mp (hkept.subset hn)
  exact hbefore i j (isLeast_of_concat hmthere hi) (isLeast_of_concat hnthere hj)

/-- A new name comes in after all others. -/
theorem ordered_add (h : Reflects collection history e) (a : Attribute) :
    (e.add a).names.Pairwise fun m n => ∀ i j, IsLeast (insertions (history ++ [x]) m) i →
      IsLeast (insertions (history ++ [x]) n) j → i < j := by
  have hnames := Entity.names_insert a e.attributes
  simp only [Entity.names, Entity.add, hnames]
  split
  · exact h.ordered_concat (List.Sublist.refl _)
  · rename_i hnew
    apply List.pairwise_append.mpr
    refine ⟨h.ordered_concat (List.Sublist.refl _), List.pairwise_singleton _ _, ?_⟩
    intro m hm n hn i j hi hj
    obtain rfl := List.mem_singleton.mp hn
    -- the new name comes in with the last edit, and the others came in before it
    have hlt := lt_of_mem_insertions (isLeast_of_concat ((h.present m).mp hm) hi).1
    rcases (mem_insertions_concat.mp hj.1).2 with hj | ⟨rfl, -⟩
    · exact absurd ((h.present _).mpr ⟨j, hj⟩) hnew
    · exact hlt

theorem edit (h : Reflects collection history e) (hx : (e.edit x).left = some f) :
    Reflects collection (history ++ [x]) f := by
  cases effect_of_edit hx with
  | writes a hname hafter hinserts =>
    constructor
    · exact h.name_eq
    · exact Entity.add_valid h.valid hname
    · intro name
      rw [Entity.get?_add, replayed_concat, hafter]
      split
      · rename_i hsame
        rw [← hsame, Finmap.lookup_insert]
      · rename_i hother
        rw [Finmap.lookup_insert_of_ne _ (Ne.symm hother), h.get]
    · intro name
      have hnot : ¬ x.Removes name := ((hinserts a.name).mpr rfl).not_removes name
      rw [Entity.mem_names_add, h.present, nonempty_insertions_concat, hinserts, and_iff_right hnot]
    · exact h.ordered_add a
  | removes name hremove =>
    subst hremove
    constructor
    · exact h.name_eq
    · exact Entity.remove_valid h.valid name
    · intro other
      rw [Entity.get?_remove h.valid, replayed_concat]
      split
      · rename_i hsame
        rw [← hsame]
        exact (Finmap.lookup_erase name (replayed history)).symm
      · rename_i hother
        rw [h.get]
        exact (Finmap.lookup_erase_ne (Ne.symm hother)).symm
    · intro other
      have hnot : ¬ (Edit.remove name).Inserts other := id
      rw [Entity.names_remove, h.valid.distinct.mem_erase_iff, h.present, nonempty_insertions_concat,
        or_iff_left hnot]
      exact and_congr_left' (not_congr eq_comm)
    · rw [Entity.names_remove]
      exact h.ordered_concat List.erase_sublist
  | nothing hafter hinserts hremoves =>
    constructor
    · exact h.name_eq
    · exact h.valid
    · intro name
      rw [h.get, replayed_concat, hafter]
    · intro name
      rw [h.present, nonempty_insertions_concat]
      simp [hinserts, hremoves]
    · exact h.ordered_concat (List.Sublist.refl _)

theorem edits {xs : List Edit} (h : Reflects collection history e) (hxs : e.edits xs = some f) :
    Reflects collection (history ++ xs) f := by
  induction xs generalizing history e with
  | nil =>
    cases hxs
    rwa [List.append_nil]
  | cons x xs ih =>
    obtain ⟨g, hg, hrest⟩ := Option.bind_eq_some_iff.mp hxs
    rw [List.append_cons]
    exact ih (h.edit hg) hrest

end Reflects

theorem edits_add (e : Entity) (as : List Attribute.Made) :
    e.edits (as.map .add) = some ((as.map Subtype.val).foldl Entity.add e) := by
  induction as generalizing e with
  | nil => rfl
  | cons a as ih => exact ih (e.add a.val)

theorem Entity.Traced.reflects (h : Traced collection history e) : Reflects collection history e := by
  induction h with
  | new hnew => exact .new hnew
  | of hof =>
    obtain ⟨e, hnew, rfl⟩ := map_eq_ok.mp hof
    exact (Reflects.new hnew).edits (edits_add e _)
  | edits _ hxs ih => exact ih.edits hxs

end Steps

section Maps

variable {collection : String} {history : List Edit} {e : Entity}

theorem Reflects.mem_iff (h : Reflects collection history e) (name : String) :
    name ∈ replayed history ↔ name ∈ e.names := by
  rw [← Finmap.lookup_isSome, ← h.get, Option.isSome_iff_ne_none]
  exact (not_congr Entity.get?_eq_none_iff).trans not_not

theorem Reflects.keys_eq (h : Reflects collection history e) :
    (replayed history).keys = e.names.toFinset := by
  ext name
  rw [Finmap.mem_keys, List.mem_toFinset, h.mem_iff]

theorem Reflects.answer_eq (h : Reflects collection history e) (x : Edit) :
    (e.edit x).answer = (replayed history).answer x := by
  cases x with
  | set name value | extend name value =>
    by_cases hname : name = ""
    · subst hname
      rfl
    · simp [Entity.edit, Entity.set_eq, Register.answer, hname]
  | add a => rfl
  | remove name =>
    rw [Entity.edit, Register.answer, Entity.find?_eq, h.get]

theorem Entity.left_eq_none_iff (e : Entity) (x : Edit) :
    (e.edit x).left = none ↔ ∃ value, x = .extend "" value := by
  cases x with
  | extend name value =>
    by_cases hname : name = ""
    · subst hname
      exact iff_of_true rfl ⟨value, rfl⟩
    · have hset : e.set name value = .ok (e.add ⟨name, value⟩) := set_eq_ok.mpr ⟨hname, rfl⟩
      simp [edit, hset, hname]
  | set name value =>
    simp only [edit]
    split <;> simp
  | _ => simp [edit]

structure Entity.OrderedMap (collection : String) (history : List Edit) (e : Entity) : Prop
    extends Reflects collection history e where
  find : ∀ name, e.find? name = ((replayed history).lookup name).map (Attribute.mk name)
  contains : ∀ name, e.contains name = true ↔ name ∈ replayed history
  size : e.size = (replayed history).keys.card
  answers : ∀ x, (e.edit x).answer = (replayed history).answer x
  refused : ∀ value, e.edit (.set "" value) =
    ⟨.error (.invalidArgument "attribute name must not be empty"), some e⟩
  given_up : ∀ x, (e.edit x).left = none ↔ ∃ value, x = .extend "" value

/-- Whatever was done to an entity, it holds what the same edits leave in a finite map, and its names
stand in the order in which they were first inserted since they were last removed. -/
theorem Entity.edits_replayed (h : Traced collection history e) :
    OrderedMap collection history e where
  toReflects := h.reflects
  find name := by rw [find?_eq, h.reflects.get]
  contains name := by
    rw [h.reflects.mem_iff, contains, find?_eq, Option.isSome_map, Option.isSome_iff_ne_none]
    exact (not_congr get?_eq_none_iff).trans not_not
  size := by
    rw [h.reflects.keys_eq, List.toFinset_card_of_nodup h.reflects.valid.distinct, names,
      List.length_map, size]
  answers := h.reflects.answer_eq
  refused _ := rfl
  given_up := left_eq_none_iff e

/-- A name that was removed comes in again behind the others, and one that is set again stays. -/
theorem Entity.edits_replayed_after_removal :
    let history : List Edit := [.set "a" (.text "x"), .extend "b" (.text "y"), .remove "a",
      .set "" (.text "z"), .set "a" (.text "z"), .set "b" (.boolean true)]
    let e : Entity := ⟨"items", [⟨"b", .boolean true⟩, ⟨"a", .text "z"⟩]⟩
    Traced "items" history e ∧ OrderedMap "items" history e := by
  intro history e
  have htraced : Traced "items" ([] ++ history) e := .edits (.new rfl) rfl
  exact ⟨htraced, edits_replayed htraced⟩

end Maps

end StoreQuery
