import Mathlib.Data.List.Nodup

/-! # Slices of a list

The pages of a list are its slices of one length. Slices of a list without duplicates agree only where
they start at the same position, unless both are empty, and the pages put together give back the list.
-/

namespace List

variable {α : Type} {l : List α}

/-- So many items from a position on. -/
def slice (l : List α) (start count : ℕ) : List α := (l.drop start).take count

theorem map_slice {β : Type} (f : α → β) (start count : ℕ) :
    (l.slice start count).map f = (l.map f).slice start count := by
  rw [slice, slice, map_take, map_drop]

theorem slice_eq_nil_iff {start count : ℕ} (some : 0 < count) : l.slice start count = [] ↔ l.length ≤ start := by
  rw [slice, take_eq_nil_iff, drop_eq_nil_iff]
  omega

/-- Slices that are not empty agree only if they start at the same item. -/
theorem start_eq_of_slice_eq (distinct : l.Nodup) {start start' count count' : ℕ} (some : 0 < count)
    (some' : 0 < count') (inside : start < l.length) (same : l.slice start count = l.slice start' count') :
    start = start' := by
  have head {start count : ℕ} (some : 0 < count) : (l.slice start count)[0]? = l[start]? := by
    rw [slice, getElem?_take_of_lt some, getElem?_drop, Nat.add_zero]
  have items : l[start]? = l[start']? := by
    rw [← head some, same, head some']
  exact (getElem?_inj inside distinct).mp items

theorem slice_eq_iff (distinct : l.Nodup) {start start' count count' : ℕ} (some : 0 < count) (some' : 0 < count') :
    l.slice start count = l.slice start' count' ↔
      (l.length ≤ start ∧ l.length ≤ start') ∨
        start = start' ∧ min count (l.length - start) = min count' (l.length - start) := by
  constructor
  · intro same
    rcases Nat.lt_or_ge start l.length with inside | beyond
    · obtain rfl := start_eq_of_slice_eq distinct some some' inside same
      rw [slice, slice, take_eq_take_iff, length_drop] at same
      exact .inr ⟨rfl, same⟩
    · rw [(slice_eq_nil_iff some).mpr beyond] at same
      exact .inl ⟨beyond, (slice_eq_nil_iff some').mp same.symm⟩
  · rintro (⟨beyond, beyond'⟩ | ⟨rfl, same⟩)
    · rw [(slice_eq_nil_iff some).mpr beyond, (slice_eq_nil_iff some').mpr beyond']
    · rw [slice, slice, take_eq_take_iff, length_drop]
      exact same

/-- Slices of a list with different keys are equal if their keys are. -/
theorem slice_eq_of_map_eq {β : Type} {f : α → β} (distinct : (l.map f).Nodup) {start start' count count' : ℕ}
    (some : 0 < count) (some' : 0 < count') (same : (l.slice start count).map f = (l.slice start' count').map f) :
    l.slice start count = l.slice start' count' := by
  rw [map_slice, map_slice, slice_eq_iff distinct some some', length_map] at same
  exact (slice_eq_iff (distinct.of_map f) some some').mpr same

end List
