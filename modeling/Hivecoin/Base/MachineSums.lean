import Mathlib.Algebra.BigOperators.Group.List.Basic
import Mathlib.Algebra.Order.BigOperators.Group.List
import Mathlib.Algebra.Ring.Int.Defs

/-!
# Sums of machine integers
-/

namespace MachineSums

open List

scoped instance addCommGroup : AddCommGroup Int64 where
  add_assoc := Int64.add_assoc
  zero_add := Int64.zero_add
  add_zero := Int64.add_zero
  add_comm := Int64.add_comm
  neg_add_cancel := Int64.add_left_neg
  sub_eq_add_neg := Int64.sub_eq_add_neg
  nsmul := nsmulRec
  zsmul := zsmulRec

theorem toInt_add_of_lt {a b : Int64} (ha : 0 ≤ a.toInt) (hb : 0 ≤ b.toInt) (h : a.toInt + b.toInt < 2 ^ 63) :
    (a + b).toInt = a.toInt + b.toInt := by
  rw [Int64.toInt_add]
  exact Int.bmod_eq_of_le (by omega) (by omega)

/-- Sums of numbers that are not negative wrap around only if they are too large. -/
theorem toInt_sum {l : List Int64} (h : ∀ a ∈ l, 0 ≤ a.toInt) (hsum : (l.map Int64.toInt).sum < 2 ^ 63) :
    l.sum.toInt = (l.map Int64.toInt).sum := by
  induction l with
  | nil => rfl
  | cons a l ih =>
    rw [map_cons, sum_cons] at hsum
    have ha := h a mem_cons_self
    have hl : ∀ b ∈ l, 0 ≤ b.toInt := fun b hb => h b (mem_cons_of_mem _ hb)
    have hnonneg : 0 ≤ (l.map Int64.toInt).sum := sum_nonneg (by simpa using hl)
    have ih := ih hl (by omega)
    rw [map_cons, sum_cons, sum_cons, ← ih, toInt_add_of_lt ha (by omega) (by omega)]

end MachineSums
