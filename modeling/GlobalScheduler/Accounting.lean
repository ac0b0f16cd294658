import Mathlib.Algebra.Order.Group.Defs
import Mathlib.Tactic.Abel

/-! Budgets.

Something is spent in steps from what there was at the start. The steps keep within
the start when each takes no more than is left and lowers what is left by at least
what it takes. -/
namespace Accounting

variable {α : Type} [AddCommGroup α] [LinearOrder α]

/-- `spent` of `start` is gone and at most `left` of it is still there. A start below
zero is one from which nothing can be taken. -/
structure Budget (start spent left : α) : Prop where
  balance : spent + left ≤ start
  within : spent ≤ max 0 start

theorem Budget.opening (start : α) : Budget start 0 start where
  balance := (zero_add start).le
  within := le_max_left 0 start

/-- **One step**: it takes `x`, no more than is left, and leaves that much less. -/
theorem Budget.spend [IsOrderedAddMonoid α] {start spent left left' x : α} (h : Budget start spent left)
    (hx : x ≤ max 0 left) (hleft : left' + x ≤ left) : Budget start (spent + x) left' where
  balance :=
    calc spent + x + left' = spent + (left' + x) := by abel
      _ ≤ spent + left := by gcongr
      _ ≤ start := h.balance
  within := by
    rcases le_max_iff.mp hx with hnone | hsome
    · exact (add_le_of_nonpos_right hnone).trans h.within
    · calc spent + x ≤ spent + left := by gcongr
        _ ≤ start := h.balance
        _ ≤ max 0 start := le_max_right 0 start

end Accounting
