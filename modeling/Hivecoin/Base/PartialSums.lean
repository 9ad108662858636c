import Mathlib.Algebra.BigOperators.Group.Finset.Basic
import Mathlib.Algebra.Order.BigOperators.Group.Finset
import Mathlib.Tactic.Ring

/-!
# Bounded partial sums
-/

variable {K : Type} {f g : K → Int} {B B' : Int}

/-- No finite sum of `f` is above `B`. -/
def SumsAtMost (f : K → Int) (B : Int) : Prop := ∀ s : Finset K, ∑ k ∈ s, f k ≤ B

namespace SumsAtMost

theorem zero : SumsAtMost (fun _ : K => 0) 0 := fun s => by simp

theorem mono (h : SumsAtMost f B) (hle : B ≤ B') : SumsAtMost f B' := fun s => (h s).trans hle

theorem congr (h : SumsAtMost f B) (heq : ∀ k, g k = f k) : SumsAtMost g B := (funext heq : g = f) ▸ h

variable [DecidableEq K]

/-- A value that changes gives back what it had. -/
theorem update (h : SumsAtMost f B) (k : K) {v} (hv : 0 ≤ v) :
    SumsAtMost (Function.update f k v) (B - f k + v) := by
  intro s
  have hrest : ∑ a ∈ s.erase k, Function.update f k v a = ∑ a ∈ s.erase k, f a :=
    Finset.sum_congr rfl fun a ha => Function.update_of_ne (Finset.ne_of_mem_erase ha) _ _
  have hle : f k + ∑ a ∈ s.erase k, f a ≤ B := by
    rw [← Finset.sum_insert (Finset.notMem_erase k s)]
    exact h _
  by_cases hk : k ∈ s
  · rw [← Finset.add_sum_erase s _ hk, hrest, Function.update_self]
    omega
  · rw [Finset.erase_eq_of_notMem hk] at hrest hle
    omega

end SumsAtMost

namespace Finset

/-- The sum over whole intervals of length `n`. -/
theorem sum_range_mul_div (g : Nat → Int) {n} (hn : 0 < n) (m : Nat) :
    ∑ k ∈ range (m * n), g (k / n) = n * ∑ i ∈ range m, g i := by
  induction m with
  | zero => simp
  | succ m ih =>
    have hlast : ∑ k ∈ range n, g ((m * n + k) / n) = n * g m := by
      rw [Finset.sum_congr rfl fun k hk => by
        rw [Nat.mul_comm, Nat.mul_add_div hn, Nat.div_eq_of_lt (mem_range.1 hk), Nat.add_zero]]
      simp
    rw [Nat.succ_mul, sum_range_add, ih, hlast, sum_range_succ]
    ring

/-- No sum is above that over all intervals on which the function is not zero. -/
theorem sum_range_div_le {g : Nat → Int} {n m : Nat} (hn : 0 < n) (hg : ∀ i, 0 ≤ g i) (hm : ∀ i, m ≤ i → g i = 0)
    (l : Nat) : ∑ k ∈ range l, g (k / n) ≤ n * ∑ i ∈ range m, g i := by
  rw [← sum_range_mul_div g hn]
  have hsplit : ∑ k ∈ range l, g (k / n) = ∑ k ∈ range l with k < m * n, g (k / n) := by
    refine (sum_filter_of_ne fun k _ hk => ?_).symm
    by_contra hlt
    exact hk (hm _ ((Nat.le_div_iff_mul_le hn).2 (by omega)))
  rw [hsplit]
  refine sum_le_sum_of_subset_of_nonneg (fun k hk => ?_) fun k _ _ => hg _
  exact mem_range.2 (mem_filter.1 hk).2

end Finset
