import Mathlib.Data.List.GetD
import Mathlib.Data.List.Sort

/-!
# Medians
-/

def median (l : List Nat) : Nat := (l.insertionSort (· ≤ ·)).getD (l.length / 2) 0

namespace Median

open List

variable {l s : List Nat} {x m t : Nat}

theorem le_getD_iff (hs : s.Pairwise (· ≤ ·)) {k} (hk : k < s.length) : x ≤ s.getD k 0 ↔ s.countP (· < x) ≤ k := by
  induction s generalizing k with
  | nil => simp at hk
  | cons a s ih =>
    rw [pairwise_cons] at hs
    rw [countP_cons]
    by_cases ha : a < x
    · cases k with
      | zero => simp [ha]
      | succ k =>
        rw [getD_cons_succ, ih hs.2 (by simpa using hk)]
        simp [ha]
    · have hall : ∀ b ∈ a :: s, x ≤ b := by
        intro b hb
        rcases mem_cons.mp hb with rfl | hb
        · omega
        · have := hs.1 b hb
          omega
      have hnone : s.countP (· < x) = 0 := countP_eq_zero.mpr fun b hb => by
        have := hall b (mem_cons_of_mem _ hb)
        simpa using this
      rw [getD_eq_getElem _ _ hk]
      simp [hnone, ha, hall _ (getElem_mem hk)]

theorem le_median_iff (hl : l ≠ []) : x ≤ median l ↔ l.countP (· < x) ≤ l.length / 2 := by
  have hperm := perm_insertionSort (· ≤ ·) l
  have hpos := length_pos_of_ne_nil hl
  rw [median, le_getD_iff (pairwise_insertionSort (· ≤ ·) l) (by rw [hperm.length_eq]; omega), hperm.countP_eq]

/-- The median of a window that takes in an element and drops at most one. -/
theorem median_le_cons (hl : l ≠ []) (hsub : s.Sublist l) (hlength : l.length ≤ s.length + 1) (ht : median l ≤ t) :
    median l ≤ median (t :: s) := by
  have hcount := (le_median_iff hl).mp le_rfl
  rw [le_median_iff (by simp), countP_cons_of_neg (by simpa using ht), length_cons]
  have := hsub.countP_le (p := (· < median l))
  omega

end Median
