import Mathlib.Algebra.Order.BigOperators.Group.Finset

/-! # Timetables

A server works on the items of a queue in turns. An item takes two turns, one that begins it and one that
ends it, and between them it may take its span. Turns follow each other within the gap. The allotments of
the items before an item, and its own, then bound the time after which it has ended.
-/

/-- How far apart turns may be, and how long an item may take once it has begun. -/
structure Timetable (ι τ : Type) [Zero τ] [LE τ] where
  gap : τ
  span : ι → τ
  gap_nonneg : 0 ≤ gap
  span_nonneg : ∀ item, 0 ≤ span item

namespace Timetable

variable {ι τ : Type} [AddCommGroup τ] [LinearOrder τ] (table : Timetable ι τ)

/-- How much time an item may have used up when so many of its turns are left. -/
def used (item : ι) : ℕ → τ
  | 0 => table.span item + table.gap + table.gap + table.gap
  | 1 => table.span item + table.gap + table.gap
  | _ => 0

/-- The time for all of an item. -/
def allotment (item : ι) : τ := table.used item 0

/-- How much time the items may have used up when so many turns of each are left. -/
def spent (turns : ι → ℕ) (items : Finset ι) : τ := ∑ item ∈ items, table.used item (turns item)

/-- The time for all of the items. -/
def allotted (items : Finset ι) : τ := ∑ item ∈ items, table.allotment item

variable [IsOrderedAddMonoid τ] {turns fewer : ι → ℕ} {items : Finset ι} {item other : ι}

theorem used_nonneg (item : ι) (turns : ℕ) : 0 ≤ table.used item turns := by
  have span := table.span_nonneg item
  have gap := table.gap_nonneg
  unfold used
  split
  · exact add_nonneg (add_nonneg (add_nonneg span gap) gap) gap
  · exact add_nonneg (add_nonneg span gap) gap
  · exact le_refl _

/-- With fewer turns left, more of the time may have been used up. -/
theorem used_anti (item : ι) {turns fewer : ℕ} (le : fewer ≤ turns) : table.used item turns ≤ table.used item fewer := by
  match turns, fewer with
  | 0, 0 | 1, 1 => exact le_refl _
  | 1, 0 => exact le_add_of_nonneg_right table.gap_nonneg
  | _ + 2, _ => exact table.used_nonneg ..

theorem spent_nonneg (turns : ι → ℕ) (items : Finset ι) : 0 ≤ table.spent turns items :=
  Finset.sum_nonneg fun item _ => table.used_nonneg item _

theorem spent_mono (le : ∀ item, fewer item ≤ turns item) : table.spent turns items ≤ table.spent fewer items :=
  Finset.sum_le_sum fun item _ => table.used_anti item (le item)

theorem used_le_spent (member : item ∈ items) : table.used item (turns item) ≤ table.spent turns items :=
  Finset.single_le_sum (f := fun item => table.used item (turns item)) (fun item _ => table.used_nonneg item _) member

theorem allotment_le_allotted (member : item ∈ items) : table.allotment item ≤ table.allotted items :=
  Finset.single_le_sum (f := table.allotment) (fun item _ => table.used_nonneg item _) member

variable [DecidableEq ι]

/-- The turns of one item count for the whole. -/
theorem spent_gain (le : ∀ item, fewer item ≤ turns item) (member : item ∈ items) :
    table.spent turns items + table.used item (fewer item) ≤ table.spent fewer items + table.used item (turns item) := by
  have others : table.spent turns (items.erase item) ≤ table.spent fewer (items.erase item) := table.spent_mono le
  unfold spent at others ⊢
  rw [← Finset.sum_erase_add items _ member, ← Finset.sum_erase_add items (fun item => table.used item (fewer item)) member,
    add_assoc, add_assoc, add_comm (table.used item (turns item))]
  exact add_le_add_left others _

/-- What an item has left is left of the whole. -/
theorem spent_le_allotted (member : item ∈ items) :
    table.spent turns items + table.allotment item ≤ table.allotted items + table.used item (turns item) := by
  have gain : table.spent turns items + table.used item 0 ≤ table.spent (fun _ => 0) items + table.used item (turns item) :=
    table.spent_gain (fun _ => Nat.zero_le _) member
  exact gain

theorem used_add_used_le_spent (distinct : item ≠ other) (member : item ∈ items) (member' : other ∈ items) :
    table.used item (turns item) + table.used other (turns other) ≤ table.spent turns items := by
  rw [← Finset.sum_pair (f := fun item => table.used item (turns item)) distinct]
  refine Finset.sum_le_sum_of_subset_of_nonneg ?_ fun item _ _ => table.used_nonneg item _
  exact Finset.insert_subset member (Finset.singleton_subset_iff.mpr member')

end Timetable
