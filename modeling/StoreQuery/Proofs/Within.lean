/-!
Trees whose nodes have direct parts. A node stands in another when it is that node or stands in a part of
it.
-/
namespace StoreQuery

inductive Within {α : Type} (parts : α → List α) (inner : α) : α → Prop where
  | self : Within parts inner inner
  | part {outer p : α} : p ∈ parts outer → Within parts inner p → Within parts inner outer

variable {α : Type} {parts : α → List α} {inner outer : α}

theorem within_iff :
    Within parts inner outer ↔ inner = outer ∨ ∃ p ∈ parts outer, Within parts inner p := by
  constructor
  · intro h
    cases h with
    | self => exact .inl rfl
    | part hp h => exact .inr ⟨_, hp, h⟩
  · rintro (rfl | ⟨p, hp, h⟩)
    · exact .self
    · exact .part hp h

theorem within_iff_of_map {β : Type} {held : List β} {f : β → α} (h : parts outer = held.map f) :
    Within parts inner outer ↔ inner = outer ∨ ∃ b ∈ held, Within parts inner (f b) := by
  rw [within_iff, h]
  apply or_congr_right
  constructor
  · rintro ⟨p, hp, hinner⟩
    obtain ⟨b, hb, rfl⟩ := List.mem_map.mp hp
    exact ⟨b, hb, hinner⟩
  · rintro ⟨b, hb, hinner⟩
    exact ⟨f b, List.mem_map_of_mem hb, hinner⟩

theorem within_of_no_parts (h : parts outer = []) : Within parts inner outer ↔ inner = outer := by
  constructor
  · intro hinner
    cases hinner with
    | self => rfl
    | part hp _ =>
      rw [h] at hp
      cases hp
  · rintro rfl
    exact .self

end StoreQuery
